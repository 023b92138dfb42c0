import Mathlib.Data.Option.Basic
import PageLoom.Proofs.Config.Quote
import PageLoom.Toml.Document

namespace PageLoom

/-!
# Lines of TOML

A line with a key and a value sets the key in the table that it belongs to. A line with a header
starts another table, or another one of a list of tables. Each line is read by itself, whatever
follows it.

* `Toml.Scalar` — the values that stand on one line;
* `Toml.writeKey`, `Toml.pairLine`, `Toml.tableLine`, … — lines;
* `Toml.Reads` — what reading some lines does to a draft;
* `Toml.noteLines`, `Toml.reads_notes` — empty lines and comments, which do nothing;
* `Toml.reads_pair`, `Toml.reads_table`, `Toml.reads_item` — what reading one line does.
-/

namespace Toml

/-- A value that stands on one line: a truth value, a text, or a list without items. -/
inductive Scalar where
  | bool (value : Bool)
  | text (value : String)
  | nothing

/-- The tree of a value. -/
def Scalar.datum : Scalar → Datum
  | .bool value => .bool value
  | .text value => .text value
  | .nothing => .list [] none

/-- The text of a value. -/
def Scalar.write (wished : Char → Bool) : Scalar → List Char
  | .bool true => ['t', 'r', 'u', 'e']
  | .bool false => ['f', 'a', 'l', 's', 'e']
  | .text value => quote wished value
  | .nothing => ['[', ']']

/-- A key that may stand without quotes. -/
def IsBare (key : String) : Prop :=
  key.toList ≠ [] ∧ ∀ c ∈ key.toList, isBareKeyChar c = true

instance (key : String) : Decidable (IsBare key) :=
  decidable_of_iff (key.toList.isEmpty = false ∧ key.toList.all isBareKeyChar = true) (by
    rw [IsBare, List.isEmpty_eq_false_iff, List.all_eq_true])

/-- A key with quotes, or without them if that is wished for and possible. -/
def writeKey (wished : Char → Bool) (bare : String → Bool) (key : String) : List Char :=
  if bare key ∧ IsBare key then key.toList else quote wished key

/-- A line with a key and its value. -/
def pairLine (wished : Char → Bool) (pair : String × Scalar) : List Char :=
  pair.1.toList ++ [' ', '=', ' '] ++ pair.2.write wished ++ ['\n']

variable {wished : Char → Bool} {bare : String → Bool} {key name : String} {c d : Char}
  {rest more : List Char} {fuel : Nat}

/-! ### Keys -/

/-- A character of a bare key is no blank, no quote and no point, and starts no other line. -/
theorem ne_of_isBareKeyChar (h : isBareKeyChar c = true) :
    isBlank c = false ∧ c ≠ '"' ∧ c ≠ '\'' ∧ c ≠ '.' ∧ c ≠ '[' ∧ c ≠ '#' ∧ c ≠ '\n' ∧ c ≠ '\r' := by
  have hne : ∀ other, isBareKeyChar other = false → c ≠ other := by
    rintro other hother rfl
    rw [h] at hother
    cases hother
  have hblank : isBlank c = false := by
    rw [isBlank, decide_eq_false (hne ' ' rfl), decide_eq_false (hne '\t' rfl)]
    rfl
  exact ⟨hblank, hne _ rfl, hne _ rfl, hne _ rfl, hne _ rfl, hne _ rfl, hne _ rfl, hne _ rfl⟩

/-- A bare key starts with a character of one. -/
theorem IsBare.exists_cons (h : IsBare key) :
    ∃ first chars, key.toList = first :: chars ∧ isBareKeyChar first = true := by
  obtain ⟨first, chars, hchars⟩ := List.exists_cons_of_ne_nil h.1
  exact ⟨first, chars, hchars, h.2 first (by rw [hchars]; exact List.mem_cons_self)⟩

/-- A bare key is read up to the first character that does not belong to one. -/
theorem keyPart?_bare (hkey : IsBare key) (hc : isBareKeyChar c = false) :
    keyPart? (key.toList ++ c :: rest) = some (key, c :: rest) := by
  obtain ⟨first, chars, hfirst, hbare⟩ := hkey.exists_cons
  have hquote := ne_of_isBareKeyChar hbare
  have htake : (key.toList ++ c :: rest).takeWhile isBareKeyChar = key.toList := by
    rw [List.takeWhile_append_of_pos hkey.2, List.takeWhile_cons_of_neg (by simp [hc]),
      List.append_nil]
  have hempty : key.toList.isEmpty = false := by simpa using hkey.1
  -- The reader looks at the first character for a quote, so the text is cut there and put together.
  rw [keyPart?.eq_def]
  split
  · rename_i heq
    simp at heq
  · rename_i c' rest' heq
    obtain rfl : first = c' := by
      rw [hfirst] at heq
      exact (List.cons.inj heq).1
    rw [if_neg (by simp [hquote]), htake]
    simp only [hempty, Bool.false_eq_true, if_false, String.ofList_toList, List.drop_left]

/-- A quoted key is read up to its closing quote. -/
theorem keyPart?_quote (wished : Char → Bool) (key : String) (rest : List Char) :
    keyPart? (quote wished key ++ rest) = some (key, rest) := by
  have hshort := shortString?_quote wished key rest
  rw [quote, List.cons_append] at hshort ⊢
  rw [keyPart?.eq_def]
  simp only [if_pos, Bool.or_eq_true, decide_eq_true_eq, true_or, hshort, Option.map_some,
    String.ofList_toList]

/-- A key is read however it was written. -/
theorem keyPart?_writeKey (hc : isBareKeyChar c = false) :
    keyPart? (writeKey wished bare key ++ c :: rest) = some (key, c :: rest) := by
  rw [writeKey]
  split
  · rename_i hbare
    exact keyPart?_bare hbare.2 hc
  · exact keyPart?_quote wished key _

/-- A key starts with a character of a bare key, or with a quote. -/
theorem exists_cons_of_writeKey (wished : Char → Bool) (bare : String → Bool) (key : String) :
    ∃ first more, writeKey wished bare key = first :: more ∧
      (isBareKeyChar first = true ∨ first = '"') := by
  rw [writeKey]
  split
  · rename_i hbare
    obtain ⟨first, more, htext, hfirst⟩ := hbare.2.exists_cons
    exact ⟨first, more, htext, .inl hfirst⟩
  · exact ⟨'"', _, rfl, .inr rfl⟩

/-- No blank is passed over in front of any other character. -/
theorem skipBlanks_cons (h : isBlank c = false) : skipBlanks (c :: rest) = c :: rest := by
  rw [skipBlanks, List.dropWhile_cons_of_neg (by simp [h])]

/-- No blank is passed over in front of a bare key. -/
theorem skipBlanks_bare (h : IsBare key) :
    skipBlanks (key.toList ++ rest) = key.toList ++ rest := by
  obtain ⟨first, chars, hchars, hfirst⟩ := h.exists_cons
  rw [hchars, List.cons_append, skipBlanks_cons (ne_of_isBareKeyChar hfirst).1]

/-- No blank is passed over in front of a key. -/
theorem skipBlanks_writeKey :
    skipBlanks (writeKey wished bare key ++ rest) = writeKey wished bare key ++ rest := by
  obtain ⟨first, more, htext, hfirst⟩ := exists_cons_of_writeKey wished bare key
  rw [htext, List.cons_append, skipBlanks_cons]
  rcases hfirst with hfirst | rfl
  · exact (ne_of_isBareKeyChar hfirst).1
  · rfl

/-- A key of one part is read up to what follows the blanks behind it. -/
theorem keyPath?_one {part : List Char} (hpart : keyPart? (part ++ rest) = some (key, rest))
    (hstart : skipBlanks (part ++ rest) = part ++ rest)
    (hrest : skipBlanks rest = d :: more) (hd : d ≠ '.') :
    keyPath? (part ++ rest) = some ([], key, d :: more) := by
  have hparts : keyParts? ((part ++ rest).length + 1) (part ++ rest) = some ([key], d :: more) := by
    rw [keyParts?, hstart]
    simp only [hpart, hrest, Option.bind_eq_bind, Option.bind_some]
    split
    · rename_i heq
      exact absurd (List.cons.inj heq).1 hd
    · rfl
  rw [keyPath?, hparts]
  rfl

/-- A key of two parts is read up to what follows it. -/
theorem keyPath?_two (hname : IsBare name) {part : List Char}
    (hpart : keyPart? (part ++ d :: rest) = some (key, d :: rest))
    (hstart : skipBlanks (part ++ d :: rest) = part ++ d :: rest) (hblank : isBlank d = false)
    (hd : d ≠ '.') :
    keyPath? (name.toList ++ '.' :: (part ++ d :: rest)) = some ([name], key, d :: rest) := by
  obtain ⟨fuel, hfuel⟩ : ∃ fuel,
      (name.toList ++ '.' :: (part ++ d :: rest)).length + 1 = fuel + 2 :=
    ⟨_, by rw [List.length_append, List.length_cons, ← Nat.add_assoc]⟩
  have hlast : keyParts? (fuel + 1) (part ++ d :: rest) = some ([key], d :: rest) := by
    rw [keyParts?, hstart]
    simp only [hpart, skipBlanks_cons hblank, Option.bind_eq_bind, Option.bind_some]
    split
    · rename_i heq
      exact absurd (List.cons.inj heq).1 hd
    · rfl
  rw [keyPath?, hfuel, keyParts?, skipBlanks_bare hname]
  simp only [keyPart?_bare hname (by decide : isBareKeyChar '.' = false), Option.bind_eq_bind,
    Option.bind_some, skipBlanks_cons (by decide : isBlank '.' = false), hlast]
  rfl

/-! ### Values -/

/-- A value is read up to the end of its line. -/
theorem value?_scalar (wished : Char → Bool) (scalar : Scalar) (hfuel : 2 ≤ fuel)
    (rest : List Char) :
    value? fuel 0 (scalar.write wished ++ '\n' :: rest) = some (scalar.datum, '\n' :: rest) := by
  obtain ⟨fuel, rfl⟩ := Nat.exists_eq_add_of_le' hfuel
  cases scalar with
  | bool value => cases value <;> rfl
  | nothing => rfl
  | text value =>
    have hstring := string?_quote wished value ('\n' :: rest) (by simp)
    rw [Scalar.write]
    rw [quote, List.cons_append] at hstring ⊢
    rw [value?, if_neg (by decide), if_neg (by decide), scalar?.eq_def]
    simp only [if_pos, Bool.or_eq_true, decide_eq_true_eq, true_or, hstring, Option.map_some,
      String.ofList_toList]
    rfl

/-! ### Lines -/

/-- The header of a table. -/
def tableLine (name : String) : List Char :=
  '[' :: (name.toList ++ [']', '\n'])

/-- The header of a table inside another one. -/
def innerLine (wished : Char → Bool) (bare : String → Bool) (name key : String) : List Char :=
  '[' :: (name.toList ++ '.' :: (writeKey wished bare key ++ [']', '\n']))

/-- The header of one of a list of tables. -/
def itemLine (name key : String) : List Char :=
  '[' :: '[' :: (name.toList ++ '.' :: (key.toList ++ [']', ']', '\n']))

/-- Reading the text takes a draft to another one, line by line. What follows is read after it. -/
def Reads (text : List Char) (draft draft' : Draft) : Prop :=
  ∃ count ≤ text.length, ∀ fuel rest,
    lines? (fuel + count) draft (text ++ rest) = lines? fuel draft' rest

variable {text text' : List Char} {draft draft' draft'' : Draft}

/-- Nothing is read. -/
theorem Reads.refl (draft : Draft) : Reads [] draft draft :=
  ⟨0, Nat.le_refl _, fun _ _ => rfl⟩

/-- One text is read after the other. -/
theorem Reads.trans (h : Reads text draft draft') (h' : Reads text' draft' draft'') :
    Reads (text ++ text') draft draft'' := by
  obtain ⟨count, hcount, hlines⟩ := h
  obtain ⟨count', hcount', hlines'⟩ := h'
  refine ⟨count' + count, by rw [List.length_append]; omega, fun fuel rest => ?_⟩
  rw [List.append_assoc, ← Nat.add_assoc, hlines, hlines']

/-- **Whole texts.** A text that is read by lines is read with as much fuel as it has characters. -/
theorem Reads.lines_eq (h : Reads text draft draft') :
    lines? (text.length + 1) draft text = some draft' := by
  obtain ⟨count, hcount, hlines⟩ := h
  obtain ⟨fuel, hfuel⟩ := Nat.exists_eq_add_of_le hcount
  have hall := hlines (fuel + 1) []
  rw [List.append_nil] at hall
  rw [show text.length + 1 = fuel + 1 + count by omega, hall]
  rfl

/-- A line that says nothing: it is empty, or all of it is a comment. -/
def isNote (line : List Char) : Bool :=
  match line with
  | [] => true
  | c :: rest => decide (c = '#') && rest.all isCommentChar

/-- Lines that say nothing. -/
def noteLines (notes : List String) : List Char :=
  notes.flatMap fun note => note.toList ++ ['\n']

/-- A line that says nothing leaves the draft as it is. -/
theorem reads_note {line : List Char} (draft : Draft) (hline : isNote line = true) :
    Reads (line ++ ['\n']) draft draft := by
  refine ⟨1, by simp, fun fuel rest => ?_⟩
  cases line with
  | nil => rfl
  | cons c chars =>
    rw [isNote, Bool.and_eq_true, decide_eq_true_eq, List.all_eq_true] at hline
    obtain ⟨rfl, hchars⟩ := hline
    -- The comment is passed over up to the end of its line, where no character of one stands.
    have hend : lineEnd? ('#' :: (chars ++ '\n' :: rest)) = some rest := by
      rw [lineEnd?, skipBlanks_cons (by decide), skipComment,
        List.dropWhile_append_of_pos hchars, List.dropWhile_cons_of_neg (by decide)]
      rfl
    rw [List.append_assoc, List.singleton_append, List.cons_append, lines?,
      skipBlanks_cons (by decide)]
    simp only [decide_true, Bool.true_or, if_true, hend, Option.bind_eq_bind, Option.bind_some]

/-- **Notes.** Lines that say nothing leave the draft as it is. -/
theorem reads_notes {notes : List String} (draft : Draft)
    (hnotes : ∀ note ∈ notes, isNote note.toList = true) : Reads (noteLines notes) draft draft := by
  induction notes with
  | nil => exact .refl draft
  | cons note notes ih =>
    obtain ⟨hnote, hmore⟩ := List.forall_mem_cons.mp hnotes
    exact (reads_note draft hnote).trans (ih hmore)

/-- A line is read if its header is, or its key and value are. -/
theorem reads_line {first : Char} {line : List Char}
    (hfirst : isBlank first = false ∧ first ≠ '#' ∧ first ≠ '\n' ∧ first ≠ '\r')
    (hline : ∀ rest, (if first = '[' then header? draft (line ++ '\n' :: rest)
      else pair? draft (first :: (line ++ '\n' :: rest))) = some (draft', '\n' :: rest)) :
    Reads (first :: (line ++ ['\n'])) draft draft' := by
  refine ⟨1, by simp, fun fuel rest => ?_⟩
  obtain ⟨hblank, hcomment, hfeed, hreturn⟩ := hfirst
  -- One unit of fuel goes to each line, and the line takes its end with it.
  rw [List.cons_append, List.append_assoc, lines?, skipBlanks_cons hblank]
  simp only [hcomment, hfeed, hreturn, decide_false, Bool.or_self, Bool.false_eq_true, if_false,
    List.singleton_append]
  have hread := hline rest
  by_cases hopen : first = '['
  · rw [if_pos hopen] at hread ⊢
    rw [hread]
    rfl
  · rw [if_neg hopen] at hread ⊢
    rw [hread]
    rfl

/-- **Keys with values.** A line with a key that is not there sets it. -/
theorem reads_pair (wished : Char → Bool) (draft : Draft) {pair : String × Scalar}
    (hkey : IsBare pair.1) (hdotted : draft.current.dotted = false)
    (hnew : draft.current.find? pair.1 = none) :
    Reads (pairLine wished pair) draft
      { draft with current := draft.current.set pair.1 (.value pair.2.datum) } := by
  obtain ⟨first, chars, hchars, hbare⟩ := hkey.exists_cons
  have hfirst := ne_of_isBareKeyChar hbare
  have hline : pairLine wished pair =
      first :: (chars ++ ' ' :: '=' :: ' ' :: pair.2.write wished ++ ['\n']) := by
    rw [pairLine, hchars]
    simp
  rw [hline]
  -- No bare key starts a comment or a header, so the line is taken to be one with a value.
  refine reads_line ⟨hfirst.1, hfirst.2.2.2.2.2⟩ fun rest => ?_
  rw [if_neg hfirst.2.2.2.2.1]
  have htext : first :: (chars ++ ' ' :: '=' :: ' ' :: pair.2.write wished ++ '\n' :: rest) =
      pair.1.toList ++ ' ' :: '=' :: ' ' :: (pair.2.write wished ++ '\n' :: rest) := by
    rw [hchars]
    simp
  have hvalue : skipBlanks (' ' :: (pair.2.write wished ++ '\n' :: rest)) =
      pair.2.write wished ++ '\n' :: rest := by
    rw [skipBlanks, List.dropWhile_cons_of_pos (by decide)]
    obtain ⟨_, value⟩ := pair
    cases value with
    | bool value => cases value <;> rfl
    | text value => rfl
    | nothing => rfl
  have hread : value? ((pair.2.write wished ++ '\n' :: rest).length + 1) 0
      (pair.2.write wished ++ '\n' :: rest) = some (pair.2.datum, '\n' :: rest) :=
    value?_scalar wished pair.2 (by rw [List.length_append, List.length_cons]; omega) rest
  -- The table is still open, and the key is not in it.
  have hinsert : draft.current.insert? [] pair.1 pair.2.datum =
      some (draft.current.set pair.1 (.value pair.2.datum)) := by
    simp [Table.insert?, Table.modify?, hdotted, hnew]
  have hpath : ∀ more, keyPath? (pair.1.toList ++ ' ' :: '=' :: more) =
      some ([], pair.1, '=' :: more) := fun more =>
    keyPath?_one (keyPart?_bare hkey (by decide)) (skipBlanks_bare hkey) rfl (by decide)
  rw [htext, pair?, hpath]
  simp only [Option.bind_eq_bind, Option.bind_some, hvalue, hread, Draft.insert?, hinsert]
  rfl

/-- A header line starts with a bracket. -/
theorem reads_header {line : List Char}
    (hline : ∀ rest, header? draft (line ++ '\n' :: rest) = some (draft', '\n' :: rest)) :
    Reads ('[' :: (line ++ ['\n'])) draft draft' :=
  reads_line (by decide) fun rest => by rw [if_pos rfl]; exact hline rest

/-- A bare key does not start with a bracket. -/
theorem bare_ne_bracket (h : IsBare name) {more : List Char} :
    ∀ other, name.toList ++ more ≠ '[' :: other := by
  obtain ⟨first, chars, hchars, hfirst⟩ := h.exists_cons
  rw [hchars]
  rintro other heq
  exact (ne_of_isBareKeyChar hfirst).2.2.2.2.1 (List.cons.inj heq).1

/-- The header of a table starts with a key, not with a second bracket. -/
theorem header?_table {key : String} {path : List String} {text : List Char}
    (hfirst : ∀ more, text ≠ '[' :: more)
    (hpath : keyPath? text = some (path, key, ']' :: rest))
    (hopen : draft.openTable? path key = some draft') :
    header? draft text = some (draft', rest) := by
  rw [header?]
  · rw [hpath]
    simp only [Option.bind_eq_bind, Option.bind_some, hopen]
    rfl
  · exact hfirst

/-- **Tables.** The header of a table starts it. -/
theorem reads_table (hname : IsBare name) (hopen : draft.openTable? [] name = some draft') :
    Reads (tableLine name) draft draft' := by
  have hline : tableLine name = '[' :: ((name.toList ++ [']']) ++ ['\n']) := by
    rw [tableLine, List.append_assoc]
    rfl
  rw [hline]
  refine reads_header fun rest => ?_
  rw [List.append_assoc, List.singleton_append]
  exact header?_table (bare_ne_bracket hname) (keyPath?_one (keyPart?_bare hname (by decide))
    (skipBlanks_bare hname) (skipBlanks_cons (by decide)) (by decide)) hopen

/-- **Inner tables.** The header of a table inside another one starts it. -/
theorem reads_inner (wished : Char → Bool) (bare : String → Bool) {key : String}
    (hname : IsBare name) (hopen : draft.openTable? [name] key = some draft') :
    Reads (innerLine wished bare name key) draft draft' := by
  have hline : innerLine wished bare name key =
      '[' :: ((name.toList ++ '.' :: (writeKey wished bare key ++ [']'])) ++ ['\n']) := by
    rw [innerLine]
    simp
  rw [hline]
  refine reads_header fun rest => ?_
  have htext : name.toList ++ '.' :: (writeKey wished bare key ++ [']']) ++ '\n' :: rest =
      name.toList ++ '.' :: (writeKey wished bare key ++ ']' :: '\n' :: rest) := by simp
  rw [htext]
  exact header?_table (bare_ne_bracket hname) (keyPath?_two hname (keyPart?_writeKey (by decide))
    skipBlanks_writeKey (by decide) (by decide)) hopen

/-- **Lists of tables.** The header of one of a list of tables starts it. -/
theorem reads_item {key : String} (hname : IsBare name) (hkey : IsBare key)
    (hopen : draft.openItem? [name] key = some draft') :
    Reads (itemLine name key) draft draft' := by
  have hline : itemLine name key =
      '[' :: (('[' :: (name.toList ++ '.' :: (key.toList ++ [']', ']']))) ++ ['\n']) := by
    rw [itemLine]
    simp
  rw [hline]
  refine reads_header fun rest => ?_
  have htext : '[' :: (name.toList ++ '.' :: (key.toList ++ [']', ']'])) ++ '\n' :: rest =
      '[' :: (name.toList ++ '.' :: (key.toList ++ ']' :: ']' :: '\n' :: rest)) := by simp
  have hpath : keyPath? (name.toList ++ '.' :: (key.toList ++ ']' :: ']' :: '\n' :: rest)) =
      some ([name], key, ']' :: ']' :: '\n' :: rest) :=
    keyPath?_two hname (keyPart?_bare hkey (by decide)) (skipBlanks_bare hkey) (by decide)
      (by decide)
  rw [htext, header?]
  simp only [hpath, Option.bind_eq_bind, Option.bind_some, hopen]
  rfl

end Toml

end PageLoom
