import Mathlib.Data.List.TakeWhile
import PageLoom.Proofs.Indent.Markup

namespace PageLoom

/-!
# Shapes of well-nested lines

The shape of a line is read off its characters. Where these are written from well-nested spots, it
counts the tags among the spots, and what is open behind the line follows from it.

* `Tag.next?_opening`, `Tag.next?_closing` — a tag is read as it was written;
* `Runs.raw_cases` — from inside a raw element a line either stays there or comes to its end;
* `leadingEnds` — the closing tags in front of all others;
* `Counts`, `Runs.counts` — what the shape of a line says about its spots.
-/

/-! ### Tags -/

/-- A tag is read up to its `>`, and its name up to its attributes. -/
theorem Tag.afterOpening?_append {name attributes : List Char}
    (hhead : name.head?.any Char.isAlpha = true) (hname : ∀ c ∈ name, isTagNameChar c = true)
    (hattributes : ∀ c ∈ attributes.head?, isTagNameChar c = false) (hangle : '>' ∉ attributes)
    (closing : Bool) (rest : List Char) :
    afterOpening? closing (name ++ (attributes ++ '>' :: rest)) =
      some (⟨closing, name.map Char.toLower, attributes.getLast? = some '/'⟩, rest) := by
  obtain ⟨stop, more, hmore, hstop⟩ : ∃ stop more, attributes ++ '>' :: rest = stop :: more ∧
      ¬ isTagNameChar stop = true := by
    cases attributes with
    | nil => exact ⟨'>', rest, rfl, by decide⟩
    | cons stop attributes => exact ⟨stop, _, rfl, by simp [hattributes stop rfl]⟩
  have hinside : ∀ c ∈ attributes, decide (c ≠ '>') = true :=
    fun c hc => decide_eq_true fun heq => hangle (heq ▸ hc)
  have htake : (name ++ (attributes ++ '>' :: rest)).takeWhile isTagNameChar = name := by
    rw [List.takeWhile_append_of_pos hname, hmore, List.takeWhile_cons_of_neg hstop,
      List.append_nil]
  have hdrop : (name ++ (attributes ++ '>' :: rest)).dropWhile isTagNameChar =
      attributes ++ '>' :: rest := by
    rw [List.dropWhile_append_of_pos hname, hmore, List.dropWhile_cons_of_neg hstop]
  cases name with
  | nil => cases hhead
  | cons c name =>
    have halpha : c.isAlpha = true := hhead
    unfold afterOpening?
    rw [List.cons_append] at htake hdrop ⊢
    simp only [htake, hdrop, halpha, List.takeWhile_append_of_pos hinside,
      List.dropWhile_append_of_pos hinside]
    simp

/-- A tag at the start of a text is its first one. -/
theorem Tag.next?_opening (tag : TagText) (rest : List Char) :
    next? (tag.opening ++ rest) = some (⟨false, tag.key, tag.slashed⟩, rest) := by
  have hread := afterOpening?_append tag.name_head tag.name_chars tag.attributes_head
    tag.attributes_angle false rest
  obtain ⟨c, name, hname⟩ : ∃ c name, tag.name = c :: name := by
    cases hname : tag.name with
    | nil =>
      have hhead := tag.name_head
      rw [hname] at hhead
      cases hhead
    | cons c name => exact ⟨c, name, rfl⟩
  have hslash : c ≠ '/' := by
    rintro rfl
    exact absurd (tag.name_chars '/' (hname ▸ List.mem_cons_self)) (by decide)
  have htext : tag.opening ++ rest = '<' :: c :: (name ++ (tag.attributes ++ '>' :: rest)) := by
    rw [TagText.opening, hname]
    simp only [List.cons_append, List.append_assoc, List.nil_append]
  rw [hname, List.cons_append] at hread
  rw [htext, next?, if_pos rfl, afterAngle?, if_neg hslash, hread, TagText.key, TagText.slashed,
    hname]

/-- So is the end of an element. -/
theorem Tag.next?_closing (tag : TagText) (rest : List Char) :
    next? (tag.closing ++ rest) = some (⟨true, tag.key, false⟩, rest) := by
  have hnone : ∀ c ∈ ([] : List Char).head?, isTagNameChar c = false := by simp
  have hread := afterOpening?_append tag.name_head tag.name_chars hnone List.not_mem_nil true rest
  have htext : tag.closing ++ rest = '<' :: '/' :: (tag.name ++ ([] ++ '>' :: rest)) := by
    rw [TagText.closing]
    simp only [List.cons_append, List.append_assoc, List.nil_append]
  rw [htext, next?, if_pos rfl, afterAngle?, if_pos rfl, hread]
  rfl

/-- A character that starts no tag is passed over. -/
theorem Tag.next?_cons_of_ne {c : Char} (h : c ≠ '<') (rest : List Char) :
    next? (c :: rest) = next? rest := by
  rw [next?, if_neg h]

/-- The shape of a text depends on its first tag and what follows it. -/
theorem shapeFrom_congr {text other : List Char} (h : Tag.next? text = Tag.next? other)
    (leading : Bool) : shapeFrom leading text = shapeFrom leading other := by
  cases hother : Tag.next? other with
  | none => rw [shapeFrom_of_none (h.trans hother), shapeFrom_of_none hother]
  | some found => rw [shapeFrom_of_some (h.trans hother), shapeFrom_of_some hother]

/-- Behind the end of an element follows what is behind its `>`. -/
theorem drop_dropWhile_closing (tag : TagText) (rest : List Char) :
    ((tag.closing ++ rest).dropWhile (· ≠ '>')).drop 1 = rest := by
  have hinside : ∀ c ∈ '<' :: '/' :: tag.name, decide (c ≠ '>') = true := by
    intro c hc
    refine decide_eq_true ?_
    rintro rfl
    have hname : '>' ∈ tag.name := by simpa using hc
    exact absurd (tag.name_chars '>' hname) (by decide)
  have htext : tag.closing ++ rest = ('<' :: '/' :: tag.name) ++ '>' :: rest := by
    rw [TagText.closing]
    simp only [List.cons_append, List.append_assoc, List.nil_append]
  rw [htext, List.dropWhile_append_of_pos hinside]
  rfl

/-! ### Raw elements -/

variable {nesting last : Nesting} {line : List Spot} {depth : Nat}

/-- Where the end of an element starts it is found at once. -/
theorem closeIndex?_of_startsEnd {name text : List Char} (h : startsEnd name text) :
    closeIndex? name text = some 0 := by
  unfold startsEnd at h
  unfold closeIndex?
  cases hlower : text.map Char.toLower with
  | nil =>
    rw [hlower] at h
    cases List.prefix_nil.mp h
  | cons c lower =>
    rw [hlower] at h
    exact (indexOf?_cons ..).trans (if_pos h)

/-- Where it does not start it is looked for behind the first character. -/
theorem closeIndex?_cons {name text : List Char} {c : Char} (h : ¬ startsEnd name (c :: text)) :
    closeIndex? name (c :: text) = (closeIndex? name text).map (· + 1) := by
  unfold closeIndex?
  rw [List.map_cons]
  exact (indexOf?_cons ..).trans (if_neg h)

/-- The end of an element starts at its closing tag. -/
theorem startsEnd_closing (tag : TagText) (rest : List Char) :
    startsEnd tag.key (tag.closing ++ rest) := by
  refine ⟨(['>'] ++ rest).map Char.toLower, ?_⟩
  rw [TagText.closing, endMark, TagText.key]
  simp only [List.map_cons, List.map_append, List.cons_append, List.append_assoc]
  rfl

/-- **Raw spots.** From inside a raw element spots either stay there, and nothing looks like its
    end, or the first thing that does is the tag that closes it. -/
theorem Runs.raw_cases {name : List Char} (h : Runs ⟨depth, some name⟩ line last) :
    (closeIndex? name (spotsText line) = none ∧ last = ⟨depth, some name⟩) ∨
      ∃ outer rest place, ∃ tag : TagText, depth = outer + 1 ∧
        closeIndex? name (spotsText line) = some place ∧
        (spotsText line).drop place = tag.closing ++ spotsText rest ∧
        Runs ⟨outer, none⟩ rest last ∧ rest.length < line.length := by
  induction line with
  | nil =>
    cases h
    exact .inl ⟨rfl, rfl⟩
  | cons spot line ih =>
    cases h with
    | cons hmoves hend hrest =>
      cases hmoves with
      | charRaw =>
        rename_i c
        have hnone : ¬ startsEnd name (c :: spotsText line) := by
          intro hstarts
          obtain ⟨tag, htag⟩ := hend name rfl hstarts
          cases htag
        rw [spotsText_cons, Symbol.toText, List.singleton_append, closeIndex?_cons hnone]
        rcases ih hrest with
          ⟨hindex, hlast⟩ | ⟨outer, rest, place, tag, hdepth, hindex, hdrop, hruns, hlength⟩
        · exact .inl ⟨by rw [hindex]; rfl, hlast⟩
        · refine .inr ⟨outer, rest, place + 1, tag, hdepth, by rw [hindex]; rfl, hdrop, hruns, ?_⟩
          rw [List.length_cons]
          omega
      | closingRaw =>
        rename_i tag outer
        refine .inr ⟨outer, line, 0, tag, rfl, ?_, rfl, hrest, Nat.lt_succ_self _⟩
        exact closeIndex?_of_startsEnd (startsEnd_closing tag _)

/-! ### Shapes -/

/-- The number of closing tags in front of the first other tag. -/
def leadingEnds : List Spot → Nat
  | [] => 0
  | ⟨_, .char _⟩ :: rest => leadingEnds rest
  | ⟨_, .closing _⟩ :: rest => leadingEnds rest + 1
  | _ :: _ => 0

/-- What a shape says about spots that run from a depth outside of raw elements. -/
structure Counts (leading : Bool) (depth : Nat) (line : List Spot) (last : Nesting)
    (shape : LineShape) : Prop where
  raw : shape.raw = last.raw
  balance : depth + shape.opens = last.depth + shape.closes
  leadingCloses : shape.leadingCloses = if leading then leadingEnds line else 0
  leadingEnds_le : leadingEnds line ≤ depth

variable {tag : TagText} {text : List Char}

/-- A tag that is all of its element does not count. -/
theorem shapeFrom_lone (h : tag.key ∈ voidElements ∨ tag.slashed = true) (leading : Bool)
    (text : List Char) : shapeFrom leading (tag.opening ++ text) = shapeFrom false text := by
  have hbody : Tag.opensBody ⟨false, tag.key, tag.slashed⟩ = false := by
    unfold Tag.opensBody
    rcases h with hvoid | hslashed
    · rw [List.contains_iff_mem.mpr hvoid, Bool.not_true, Bool.and_false]
    · rw [hslashed, Bool.not_true, Bool.and_false, Bool.false_and]
  rw [shapeFrom_of_some (Tag.next?_opening tag text), if_neg Bool.false_ne_true, hbody]
  exact if_pos rfl

/-- Any other tag opens an element with a body. -/
theorem opensBody_opening (hvoid : tag.key ∉ voidElements) (hslashed : tag.slashed = false) :
    Tag.opensBody ⟨false, tag.key, tag.slashed⟩ = true := by
  have hcontains : voidElements.contains tag.key = false :=
    Bool.eq_false_iff.mpr (mt List.contains_iff_mem.mp hvoid)
  rw [Tag.opensBody, hslashed, hcontains]
  rfl

/-- The start of an element is one opening. -/
theorem shapeFrom_opening
    (h : tag.key ∉ voidElements ∧ tag.key ∉ rawElements ∧ tag.slashed = false) (leading : Bool)
    (text : List Char) :
    shapeFrom leading (tag.opening ++ text) = (shapeFrom false text).openOne := by
  have hraw : ¬ rawElements.contains tag.key = true := mt List.contains_iff_mem.mp h.2.1
  rw [shapeFrom_of_some (Tag.next?_opening tag text), if_neg Bool.false_ne_true,
    opensBody_opening h.1 h.2.2, if_neg (by decide), if_neg hraw]

/-- No raw element is one without a body. -/
theorem not_mem_voidElements {name : List Char} (h : name ∈ rawElements) : name ∉ voidElements := by
  have hall : ∀ name ∈ rawElements, name ∉ voidElements := by decide +kernel
  exact hall name h

/-- The start of a raw element is one opening, and nothing counts up to its end. -/
theorem shapeFrom_openingRaw (h : tag.key ∈ rawElements ∧ tag.slashed = false) (leading : Bool)
    (text : List Char) :
    shapeFrom leading (tag.opening ++ text) =
      match closeIndex? tag.key text with
      | none => ⟨0, 1, 0, some tag.key⟩
      | some place => (shapeFrom false (text.drop place)).openOne := by
  rw [shapeFrom_of_some (Tag.next?_opening tag text), if_neg Bool.false_ne_true,
    opensBody_opening (not_mem_voidElements h.1) h.2, if_neg (by decide),
    if_pos (List.contains_iff_mem.mpr h.1)]
  rfl

/-- The end of an element is one closing. -/
theorem shapeFrom_closing (tag : TagText) (leading : Bool) (text : List Char) :
    shapeFrom leading (tag.closing ++ text) = (shapeFrom leading text).close leading := by
  rw [shapeFrom_of_some (Tag.next?_closing tag text), if_pos rfl]

/-- **Shapes.** The shape of a text counts the tags of its spots. -/
theorem Runs.counts (h : Runs ⟨depth, none⟩ line last) (leading : Bool) :
    Counts leading depth line last (shapeFrom leading (spotsText line)) := by
  induction hlength : line.length using Nat.strong_induction_on
    generalizing line depth last leading with
  | _ n ih =>
    subst hlength
    cases h with
    | nil =>
      rw [spotsText_nil, shapeFrom_of_none rfl]
      exact ⟨rfl, rfl, by cases leading <;> rfl, Nat.zero_le _⟩
    | cons hmoves hend hrest =>
      rename_i rest
      have hshorter : rest.length < rest.length + 1 := Nat.lt_succ_self _
      rw [spotsText_cons]
      cases hmoves with
      | char hc =>
        obtain ⟨hraw, hbalance, hleading, hle⟩ := ih _ hshorter hrest leading rfl
        rw [Symbol.toText, List.singleton_append, shapeFrom_congr (Tag.next?_cons_of_ne hc _)]
        exact ⟨hraw, hbalance, hleading, hle⟩
      | lone hlone =>
        obtain ⟨hraw, hbalance, hleading, -⟩ := ih _ hshorter hrest false rfl
        rw [Symbol.toText, shapeFrom_lone hlone]
        exact ⟨hraw, hbalance, by rw [hleading]; cases leading <;> rfl, Nat.zero_le _⟩
      | opening hbodied =>
        obtain ⟨hraw, hbalance, hleading, -⟩ := ih _ hshorter hrest false rfl
        rw [Symbol.toText, shapeFrom_opening hbodied]
        refine ⟨hraw, ?_, ?_, Nat.zero_le _⟩
        · rw [LineShape.opens_openOne, LineShape.closes_openOne]
          omega
        · rw [LineShape.leadingCloses_openOne, hleading]
          cases leading <;> rfl
      | openingRaw hbodied =>
        rw [Symbol.toText, shapeFrom_openingRaw hbodied]
        rcases hrest.raw_cases with
          ⟨hindex, rfl⟩ | ⟨outer, behind, place, closing, hdepth, hindex, hdrop, hbehind, hlength⟩
        · rw [hindex]
          exact ⟨rfl, rfl, by cases leading <;> rfl, Nat.zero_le _⟩
        · -- The element ends on the line, and what stands behind its end counts again.
          obtain rfl : depth = outer := Nat.succ.inj hdepth
          obtain ⟨hraw, hbalance, hleading, -⟩ :=
            ih _ (hlength.trans hshorter) hbehind false rfl
          rw [hindex]
          simp only [hdrop, shapeFrom_closing]
          refine ⟨hraw, ?_, ?_, Nat.zero_le _⟩
          · rw [LineShape.opens_openOne, LineShape.closes_openOne, LineShape.opens_close,
              LineShape.closes_close]
            omega
          · rw [LineShape.leadingCloses_openOne, LineShape.leadingCloses_close, hleading]
            cases leading <;> rfl
      | closing =>
        obtain ⟨hraw, hbalance, hleading, hle⟩ := ih _ hshorter hrest leading rfl
        rw [Symbol.toText, shapeFrom_closing]
        refine ⟨hraw, ?_, ?_, Nat.succ_le_succ hle⟩
        · rw [LineShape.opens_close, LineShape.closes_close]
          omega
        · rw [LineShape.leadingCloses_close, hleading]
          cases leading <;> rfl

end PageLoom
