import PageLoom.Json.Text
import PageLoom.Toml.Text

namespace PageLoom

/-!
# Quoted texts

In both formats a text stands between double quotes. A character in it is written as it is, by a
backslash and a letter, or by its code. Some characters cannot be written as they are, and any may
be written by its code. What was quoted is read as it was.

* `quoteChar` — a character inside quotes, for either format;
* `hexNumber?_hexDigits` — codes are read as they were written;
* `Json.string_quote`, `Toml.string?_quote` — so are quoted texts.
-/

/-- The letter that stands for a character behind a backslash. -/
def quoteLetter? (c : Char) : Option Char :=
  match c with
  | '"' => some '"'
  | '\\' => some '\\'
  | '\x08' => some 'b'
  | '\t' => some 't'
  | '\n' => some 'n'
  | '\x0c' => some 'f'
  | '\r' => some 'r'
  | _ => none

/-- A character inside quotes. It is written by its code if that is wished for, or if it has no
    letter and may not stand there as it is. -/
def quoteChar (plain : Char → Bool) (code : Char → List Char) (wished : Char → Bool) (c : Char) :
    List Char :=
  if wished c then code c
  else
    match quoteLetter? c with
    | some letter => ['\\', letter]
    | none => if plain c then [c] else code c

/-- A character is written by its code, by a letter, or as it is. -/
theorem quoteChar_cases {plain wished : Char → Bool} {code : Char → List Char} {c : Char}
    (holds : List Char → Prop) (hcode : holds (code c))
    (hletter : ∀ letter, quoteLetter? c = some letter → holds ['\\', letter])
    (hplain : c ≠ '"' → c ≠ '\\' → plain c = true → holds [c]) :
    holds (quoteChar plain code wished c) := by
  rw [quoteChar]
  split
  · exact hcode
  · split
    · rename_i letter hc
      exact hletter letter hc
    · rename_i hc
      split
      · rename_i hself
        refine hplain ?_ ?_ hself
        · rintro rfl
          cases hc
        · rintro rfl
          cases hc
      · exact hcode

/-! ### Codes -/

/-- The last digits of a number in base sixteen. -/
def hexDigits : (width n : Nat) → List Char
  | 0, _ => []
  | width + 1, n => hexDigits width (n / 16) ++ [Nat.digitChar (n % 16)]

theorem length_hexDigits (width n : Nat) : (hexDigits width n).length = width := by
  induction width generalizing n with
  | zero => rfl
  | succ width ih => rw [hexDigits, List.length_append, ih, List.length_singleton]

theorem hexDigit?_digitChar : ∀ digit < 16, hexDigit? (Nat.digitChar digit) = some digit := by
  decide

/-- A number that has no more digits is read from its digits. -/
theorem hexNumber?_hexDigits {width n : Nat} (h : n < Nat.pow 16 width) :
    hexNumber? (hexDigits width n) = some n := by
  rw [hexNumber?]
  induction width generalizing n with
  | zero =>
    obtain rfl : n = 0 := by simpa using h
    rfl
  | succ width ih =>
    have hfront : n / 16 < Nat.pow 16 width := by
      have hmore : n < Nat.pow 16 width * 16 := h
      omega
    rw [hexDigits, List.foldlM_append, ih hfront]
    show Option.bind (Option.map _ _) some = _
    rw [hexDigit?_digitChar _ (Nat.mod_lt n (by decide)), Option.map_some, Option.bind_some,
      Nat.div_add_mod']

/-- A text has no more characters than bytes. -/
theorem length_le_byteLength (text : List Char) : text.length ≤ byteLength text := by
  have hmore : ∀ start, start + text.length ≤
      text.foldl (fun n c => n + c.utf8Size) start := by
    induction text with
    | nil => exact fun start => Nat.le_refl _
    | cons c text ih =>
      intro start
      have hnext := ih (start + c.utf8Size)
      have hpos := c.utf8Size_pos
      rw [List.foldl_cons, List.length_cons]
      omega
  rw [byteLength]
  simpa using hmore 0

/-! ### JSON -/

namespace Json

/-- A code unit of UTF-16 by its number. -/
def unitCode (unit : Nat) : List Char :=
  '\\' :: 'u' :: hexDigits 4 unit

/-- A character by its code, which is a pair of code units if one does not do. -/
def charCode (c : Char) : List Char :=
  if c.toNat < 0x10000 then unitCode c.toNat
  else
    unitCode (0xD800 + (c.toNat - 0x10000) / 0x400) ++
      unitCode (0xDC00 + (c.toNat - 0x10000) % 0x400)

/-- A text between its quotes. Of the characters those that are wished for are written by their
    codes. -/
def quote (wished : Char → Bool) (text : String) : List Char :=
  '"' :: (text.toList.flatMap (quoteChar (fun c => 32 ≤ c.toNat) charCode wished) ++ ['"'])

variable {content : Content} {rest : List Char}

/-- A code unit is read from its four digits. -/
theorem string_unitCode {unit : Nat} (h : unit < 0x10000) :
    string content (unitCode unit ++ rest) = string (content.pushUnit unit) rest := by
  have hlength := length_hexDigits 4 unit
  have hunit : unit? (hexDigits 4 unit) = .ok unit := by
    have hbytes := length_le_byteLength (hexDigits 4 unit)
    rw [unit?, List.take_of_length_le (by omega), if_neg (by omega), hexNumber?_hexDigits h]
  match hdigits : hexDigits 4 unit, hlength with
  | [a, b, c, d], _ =>
    rw [hdigits] at hunit
    rw [unitCode, hdigits]
    show string content ('\\' :: 'u' :: a :: b :: c :: d :: rest) = _
    rw [string]
    simp [hunit]

/-- A character is no half of a surrogate pair. -/
theorem not_surrogate (c : Char) : c.toNat < 0xD800 ∨ 0xE000 ≤ c.toNat ∧ c.toNat < 0x110000 := by
  have hvalid := c.valid
  rw [UInt32.isValidChar, Nat.isValidChar] at hvalid
  have hc : c.toNat = c.val.toNat := rfl
  omega

/-- Two halves of a surrogate pair make up a character. -/
theorem pushUnit_pair {reversed : List Char} {high low : Nat} (hhigh : high < 0x400)
    (hlow : low < 0x400) :
    (Content.pushUnit (Content.pushUnit ⟨reversed, none, false⟩ (0xD800 + high)) (0xDC00 + low)) =
      ⟨Char.ofNat (0x10000 + high * 0x400 + low) :: reversed, none, false⟩ := by
  have hfirst : Content.pushUnit ⟨reversed, none, false⟩ (0xD800 + high) =
      ⟨reversed, some (0xD800 + high), false⟩ := by
    rw [Content.pushUnit, if_neg (by omega), if_pos (by omega)]
    rfl
  rw [hfirst, Content.pushUnit, if_pos (by omega)]
  simp only [Nat.add_sub_cancel_left]

/-- A character is read from its code. -/
theorem string_charCode (reversed : List Char) (c : Char) :
    string ⟨reversed, none, false⟩ (charCode c ++ rest) =
      string ⟨c :: reversed, none, false⟩ rest := by
  have hrange := not_surrogate c
  rw [charCode]
  split
  · rename_i hsmall
    rw [string_unitCode hsmall, Content.pushUnit, if_neg (by omega), if_neg (by omega),
      Content.push, Char.ofNat_toNat]
    rfl
  · -- Ten bits of the number go to each half of the pair.
    rename_i hlarge
    have hhigh : (c.toNat - 0x10000) / 0x400 < 0x400 := by omega
    have hlow : (c.toNat - 0x10000) % 0x400 < 0x400 := Nat.mod_lt _ (by decide)
    have hcode := Nat.div_add_mod' (c.toNat - 0x10000) 0x400
    rw [List.append_assoc, string_unitCode (by omega), string_unitCode (by omega),
      pushUnit_pair hhigh hlow, show 0x10000 + _ * 0x400 + _ = c.toNat by omega, Char.ofNat_toNat]

/-- A character is read from what is written for it. -/
theorem string_quoteChar (wished : Char → Bool) (reversed : List Char) (c : Char) :
    string ⟨reversed, none, false⟩
        (quoteChar (fun c => 32 ≤ c.toNat) charCode wished c ++ rest) =
      string ⟨c :: reversed, none, false⟩ rest := by
  refine quoteChar_cases
    (fun piece => string _ (piece ++ rest) = string ⟨c :: reversed, none, false⟩ rest)
    (string_charCode reversed c) ?_ ?_
  · intro letter hletter
    -- The reader takes a `u` for the start of a code.
    have hescape : escapeLetter? letter = some c ∧ letter ≠ 'u' := by
      unfold quoteLetter? at hletter
      split at hletter <;> cases hletter <;> exact ⟨rfl, by decide⟩
    show string _ ('\\' :: letter :: rest) = _
    rw [string]
    · simp [hescape.1, Content.push]
    · exact fun _ _ _ _ _ hu => absurd hu hescape.2
    · exact hescape.2
  · intro hquote hslash hplain
    show string _ (c :: rest) = _
    rw [string.eq_def]
    simp only [if_neg hquote, if_neg hslash]
    rw [if_neg (by simpa using hplain)]
    rfl

/-- **JSON texts.** A quoted text is read as it was. -/
theorem string_quote (wished : Char → Bool) (text : String) (rest : List Char) :
    string .none (text.toList.flatMap (quoteChar (fun c => 32 ≤ c.toNat) charCode wished) ++
      '"' :: rest) = .closed (some text) rest := by
  -- The reader puts each character in front of those that it has read.
  suffices hmore : ∀ (chars reversed : List Char), string ⟨reversed, none, false⟩
      (chars.flatMap (quoteChar (fun c => 32 ≤ c.toNat) charCode wished) ++ '"' :: rest) =
        .closed (some (String.ofList (reversed.reverse ++ chars))) rest by
    have hall := hmore text.toList []
    rwa [List.reverse_nil, List.nil_append, String.ofList_toList] at hall
  intro chars
  induction chars with
  | nil =>
    intro reversed
    rw [List.flatMap_nil, List.nil_append, string.eq_def, List.append_nil]
    rfl
  | cons c chars ih =>
    intro reversed
    rw [List.flatMap_cons, List.append_assoc, string_quoteChar, ih, List.reverse_cons,
      List.append_assoc]
    rfl

end Json

/-! ### TOML -/

namespace Toml

/-- A character by its code, with four digits if they do. -/
def charCode (c : Char) : List Char :=
  if c.toNat < 0x10000 then '\\' :: 'u' :: hexDigits 4 c.toNat
  else '\\' :: 'U' :: hexDigits 8 c.toNat

/-- A text between its quotes. Of the characters those that are wished for are written by their
    codes. -/
def quote (wished : Char → Bool) (text : String) : List Char :=
  '"' :: (text.toList.flatMap (quoteChar isPlain charCode wished) ++ ['"'])

variable {rest : List Char} {fuel : Nat}

/-- A character is read from the digits of its code. -/
theorem coded?_hexDigits {count : Nat} {c : Char} (h : c.toNat < Nat.pow 16 count) :
    coded? count (hexDigits count c.toNat ++ rest) = some (c, rest) := by
  have hlength := length_hexDigits count c.toNat
  have hdigits : (guard ((hexDigits count c.toNat).length = count) : Option Unit) = some () :=
    if_pos hlength
  have hvalid : (guard (Nat.isValidChar c.toNat) : Option Unit) = some () := if_pos c.valid
  rw [coded?, List.take_left' hlength, List.drop_left' hlength, hdigits, hexNumber?_hexDigits h]
  show (guard (Nat.isValidChar c.toNat) >>= fun _ => some (Char.ofNat c.toNat, rest)) = _
  rw [hvalid, Char.ofNat_toNat]
  rfl

/-- A character is read from what is written for it. -/
theorem basic?_quoteChar (wished : Char → Bool) (reversed : List Char) (c : Char) :
    basic? (fuel + 1) reversed (quoteChar isPlain charCode wished c ++ rest) =
      basic? fuel (c :: reversed) rest := by
  have hescape : ∀ text, escape? (text ++ rest) = some (c, rest) →
      basic? (fuel + 1) reversed ('\\' :: text ++ rest) = basic? fuel (c :: reversed) rest := by
    intro text h
    show basic? (fuel + 1) reversed ('\\' :: (text ++ rest)) = _
    rw [basic?]
    simp [h]
  refine quoteChar_cases
    (fun piece => basic? (fuel + 1) reversed (piece ++ rest) =
      basic? fuel (c :: reversed) rest) ?_ ?_ ?_
  · rw [charCode]
    split
    · rename_i hsmall
      exact hescape _ (coded?_hexDigits hsmall)
    · have hrange : c.toNat < Nat.pow 16 8 := by
        have hcode := Json.not_surrogate c
        have height : Nat.pow 16 8 = 0x100000000 := rfl
        omega
      exact hescape _ (coded?_hexDigits hrange)
  · intro letter hletter
    refine hescape [letter] ?_
    unfold quoteLetter? at hletter
    split at hletter <;> cases hletter <;> rfl
  · intro hquote hslash hplain
    show basic? (fuel + 1) reversed (c :: rest) = _
    rw [basic?, if_neg hquote, if_neg hslash, if_pos hplain]

/-- What is written for a character is not empty, and does not start with a quote. -/
theorem exists_cons_of_quoteChar (wished : Char → Bool) (c : Char) :
    ∃ first more, quoteChar isPlain charCode wished c = first :: more ∧ first ≠ '"' := by
  refine quoteChar_cases (fun piece => ∃ first more, piece = first :: more ∧ first ≠ '"')
    ?_ (fun letter _ => ⟨'\\', [letter], rfl, by decide⟩) (fun hquote _ _ => ⟨c, [], rfl, hquote⟩)
  rw [charCode]
  split
  · exact ⟨'\\', _, rfl, by decide⟩
  · exact ⟨'\\', _, rfl, by decide⟩

/-- The characters up to the closing quote are read. -/
theorem basic?_quote (wished : Char → Bool) (chars reversed : List Char)
    (hfuel : chars.length < fuel) :
    basic? fuel reversed (chars.flatMap (quoteChar isPlain charCode wished) ++ '"' :: rest) =
      some (reversed.reverse ++ chars, rest) := by
  induction chars generalizing fuel reversed with
  | nil =>
    obtain ⟨fuel, rfl⟩ := Nat.exists_eq_add_of_lt hfuel
    rw [List.flatMap_nil, List.nil_append, List.append_nil, basic?.eq_def]
    rfl
  | cons c chars ih =>
    obtain ⟨fuel, rfl⟩ : ∃ less, fuel = less + 1 := Nat.exists_eq_add_one.mpr (by omega)
    rw [List.flatMap_cons, List.append_assoc, basic?_quoteChar, ih _ (by simpa using hfuel),
      List.reverse_cons, List.append_assoc]
    rfl

/-- What is written for a text is no shorter than the text. -/
theorem length_le_flatMap_quoteChar (wished : Char → Bool) (chars : List Char) :
    chars.length ≤ (chars.flatMap (quoteChar isPlain charCode wished)).length := by
  induction chars with
  | nil => exact Nat.le_refl _
  | cons c chars ih =>
    obtain ⟨first, more, hpiece, -⟩ := exists_cons_of_quoteChar wished c
    rw [List.flatMap_cons, hpiece, List.length_append, List.length_cons, List.length_cons]
    omega

/-- A quoted text is read as it was, whatever follows, where no text over many lines may stand. -/
theorem shortString?_quote (wished : Char → Bool) (text : String) (rest : List Char) :
    shortString? (quote wished text ++ rest) = some (text.toList, rest) := by
  have hlength := length_le_flatMap_quoteChar wished text.toList
  rw [quote, List.cons_append, List.append_assoc, shortString?, List.singleton_append,
    basic?_quote wished _ _ (by rw [List.length_append]; omega)]
  rfl

/-- **TOML texts.** A quoted text is read as it was, unless a quote follows. -/
theorem string?_quote (wished : Char → Bool) (text : String) (rest : List Char)
    (hrest : rest.head? ≠ some '"') :
    string? (quote wished text ++ rest) = some (text.toList, rest) := by
  have hshort := shortString?_quote wished text rest
  rw [quote, List.cons_append, List.append_assoc, List.singleton_append] at hshort ⊢
  -- Three quotes in a row would start a text over many lines.
  have hthree : ∀ more, text.toList.flatMap (quoteChar isPlain charCode wished) ++ '"' :: rest ≠
      '"' :: '"' :: more := by
    intro more heq
    cases hchars : text.toList with
    | nil =>
      rw [hchars] at heq
      rw [(List.cons.inj heq).2] at hrest
      exact hrest rfl
    | cons c chars =>
      obtain ⟨first, others, hpiece, hfirst⟩ := exists_cons_of_quoteChar wished c
      rw [hchars, List.flatMap_cons, hpiece] at heq
      exact hfirst (List.cons.inj heq).1
  generalize text.toList.flatMap (quoteChar isPlain charCode wished) ++ '"' :: rest = all at *
  rw [string?]
  · exact hshort
  · rintro more ⟨⟩
    exact hthree more rfl
  · rintro more ⟨⟩

end Toml

end PageLoom
