import Mathlib.Data.List.DropRight
import Mathlib.Data.List.TakeWhile
import PageLoom.Text.Blank

namespace PageLoom

/-!
# Trimmed texts

Trimming takes the blanks off both ends of a text. Here its result is said without a scan: it is
the core of the text, and blanks put around a core are trimmed off again.

* `exists_eq_trim`, `exists_trimStart_eq_trim` — a text and its trimmed core;
* `trim_pad` — blanks around a text do not matter;
* `exists_eq_append_of_front`, `exists_eq_append_of_back` — other characters are not among the blanks
  around a text.
-/

variable {text front back : List Char}

/-- Only the blanks in front differ between a text and what is left of it. -/
theorem exists_eq_trimStart (text : List Char) :
    ∃ front, (∀ c ∈ front, isBlank c = true) ∧ text = front ++ trimStart text :=
  ⟨text.takeWhile isBlank, fun _ hc => List.mem_takeWhile_imp hc,
    (List.takeWhile_append_dropWhile ..).symm⟩

/-- Only the blanks at the end differ between a text and what is left of it. -/
theorem exists_eq_trimEnd (text : List Char) :
    ∃ back, (∀ c ∈ back, isBlank c = true) ∧ text = trimEnd text ++ back := by
  refine ⟨(text.reverse.takeWhile isBlank).reverse, fun c hc => ?_, ?_⟩
  · exact List.mem_takeWhile_imp (List.mem_reverse.mp hc)
  · rw [trimEnd, ← List.reverse_append, List.takeWhile_append_dropWhile, List.reverse_reverse]

/-- A text without its leading blanks is its trimmed core with blanks behind it. -/
theorem exists_trimStart_eq_trim (text : List Char) :
    ∃ back, (∀ c ∈ back, isBlank c = true) ∧ trimStart text = trim text ++ back :=
  exists_eq_trimEnd (trimStart text)

/-- **Core.** A text is its trimmed core between blanks. -/
theorem exists_eq_trim (text : List Char) :
    ∃ front back, (∀ c ∈ front, isBlank c = true) ∧ (∀ c ∈ back, isBlank c = true) ∧
      text = front ++ trim text ++ back := by
  obtain ⟨front, hfront, hstart⟩ := exists_eq_trimStart text
  obtain ⟨back, hback, hend⟩ := exists_trimStart_eq_trim text
  refine ⟨front, back, hfront, hback, ?_⟩
  rw [List.append_assoc, ← hend]
  exact hstart

/-- Blanks in front are trimmed off. -/
theorem trimStart_append (hfront : ∀ c ∈ front, isBlank c = true) (text : List Char) :
    trimStart (front ++ text) = trimStart text :=
  List.dropWhile_append_of_pos hfront

/-- Blanks at the end are trimmed off. -/
theorem trimEnd_append (text : List Char) (hback : ∀ c ∈ back, isBlank c = true) :
    trimEnd (text ++ back) = trimEnd text := by
  have hreversed : ∀ c ∈ back.reverse, isBlank c = true :=
    fun c hc => hback c (List.mem_reverse.mp hc)
  rw [trimEnd, List.reverse_append, List.dropWhile_append_of_pos hreversed, trimEnd]

/-- Nothing is left of a text exactly if all of it is blank. -/
theorem trimStart_eq_nil_iff : trimStart text = [] ↔ ∀ c ∈ text, isBlank c = true := by
  rw [trimStart, List.dropWhile_eq_nil_iff]

/-- **Padding.** Blanks put around a text are trimmed off again. -/
theorem trim_pad (hfront : ∀ c ∈ front, isBlank c = true) (text : List Char)
    (hback : ∀ c ∈ back, isBlank c = true) : trim (front ++ text ++ back) = trim text := by
  rw [List.append_assoc, trim, trimStart_append hfront, trim]
  by_cases hblank : ∀ c ∈ text, isBlank c = true
  · -- Of a blank text nothing is left, with or without the blanks behind it.
    have hall : ∀ c ∈ text ++ back, isBlank c = true :=
      fun c hc => (List.mem_append.mp hc).elim (hblank c) (hback c)
    rw [trimStart_eq_nil_iff.mpr hall, trimStart_eq_nil_iff.mpr hblank]
  · have hkept : trimStart (text ++ back) = trimStart text ++ back := by
      rw [trimStart, List.dropWhile_append, if_neg]
      · rfl
      · rw [List.isEmpty_iff]
        exact mt trimStart_eq_nil_iff.mp hblank
    rw [hkept, trimEnd_append _ hback]

/-- Blanks put in front of a text are trimmed off again. -/
theorem trim_front (hfront : ∀ c ∈ front, isBlank c = true) (text : List Char) :
    trim (front ++ text) = trim text := by
  have hpad := trim_pad hfront text (List.forall_mem_nil fun c => isBlank c = true)
  rw [List.append_nil] at hpad
  exact hpad

/-- A carriage return put behind a text is trimmed off again. -/
theorem trim_append_return (text : List Char) : trim (text ++ ['\r']) = trim text :=
  trim_pad (List.forall_mem_nil fun c => isBlank c = true) text
    (List.forall_mem_singleton.mpr (by decide))

/-- Trimming twice is trimming once. -/
theorem trim_trim (text : List Char) : trim (trim text) = trim text := by
  obtain ⟨front, back, hfront, hback, htext⟩ := exists_eq_trim text
  calc trim (trim text) = trim (front ++ trim text ++ back) := (trim_pad hfront _ hback).symm
    _ = trim text := by rw [← htext]

/-- The leading blanks are trimmed off once. -/
theorem trimStart_trimStart (text : List Char) : trimStart (trimStart text) = trimStart text :=
  List.dropWhile_idempotent _ _

/-- Trimming forgets that the leading blanks were taken off before. -/
theorem trim_trimStart (text : List Char) : trim (trimStart text) = trim text := by
  obtain ⟨front, hfront, htext⟩ := exists_eq_trimStart text
  have hpad := trim_front hfront (trimStart text)
  rw [← htext] at hpad
  exact hpad.symm

/-- Spaces are blanks. -/
theorem isBlank_of_mem_spaces {c : Char} {count : Nat} (h : c ∈ List.replicate count ' ') :
    isBlank c = true := by
  rw [List.eq_of_mem_replicate h]
  decide

/-- The characters of a trimmed text are characters of the text. -/
theorem mem_of_mem_trim {c : Char} (h : c ∈ trim text) : c ∈ text := by
  obtain ⟨front, back, -, -, htext⟩ := exists_eq_trim text
  rw [htext]
  exact List.mem_append_left _ (List.mem_append_right _ h)

/-- A character that is no blank is not one of the blanks in front of a text. -/
theorem exists_eq_append_of_front {c : Char} {opening more : List Char}
    (hfront : ∀ d ∈ front, isBlank d = true) (hc : isBlank c = false)
    (h : front ++ text = opening ++ c :: more) :
    ∃ later, opening = front ++ later ∧ text = later ++ c :: more := by
  rcases List.append_eq_append_iff.mp h with ⟨later, hopening, htext⟩ | ⟨between, hbefore, hmore⟩
  · exact ⟨later, hopening, htext⟩
  · cases between with
    | nil =>
      rw [List.append_nil] at hbefore
      rw [List.nil_append] at hmore
      exact ⟨[], by rw [List.append_nil, hbefore], hmore.symm⟩
    | cons d between =>
      -- The character would be a blank of the front.
      have hd : c = d := (List.cons.inj hmore).1
      have hblank := hfront d (hbefore ▸ List.mem_append_right _ List.mem_cons_self)
      rw [← hd, hc] at hblank
      cases hblank

/-- A character that is no blank is not one of the blanks behind a text. -/
theorem exists_eq_append_of_back {c : Char} {opening more : List Char}
    (hback : ∀ d ∈ back, isBlank d = true) (hc : isBlank c = false)
    (h : text ++ back = opening ++ c :: more) :
    ∃ later, more = later ++ back ∧ text = opening ++ c :: later := by
  rcases List.append_eq_append_iff.mp h with ⟨between, hopening, hbehind⟩ | ⟨between, htext, hmore⟩
  · have hblank := hback c (hbehind ▸ List.mem_append_right _ List.mem_cons_self)
    rw [hc] at hblank
    cases hblank
  · cases between with
    | nil =>
      rw [List.nil_append] at hmore
      have hblank := hback c (hmore ▸ List.mem_cons_self)
      rw [hc] at hblank
      cases hblank
    | cons d between =>
      obtain ⟨rfl, hrest⟩ := List.cons.inj hmore
      exact ⟨between, hrest, htext⟩

end PageLoom
