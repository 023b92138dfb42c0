import PageLoom.Pattern.Ends
import PageLoom.Proofs.Search

namespace PageLoom

/-!
# Patterns made of words and lazy gaps

A pattern that is a sequence of words and of lazy gaps, which pass any text, is matched by
searches: the preferred end after a gap and a word is the one at the first place of the word,
if what follows can be matched from there at all.

* `Cursor.skip`, `Cursor.onwards` — places further on, and all of them in order;
* `Pattern.endsAll` — the ends of a list of patterns, one after the other;
* `Pattern.gap` — the lazy gap, and `Pattern.ends_gap`, its ends;
* `Cursor.Settled` — a continuation that fails further on whenever it fails;
* `Cursor.findSome?_onwards` — the first place of a word decides for a settled continuation;
* `Pattern.findFrom_eq` — the first match of any pattern, as the first place that has one;
* `Pattern.find_of_head?` — the first match of a pattern that begins with a word.
-/

namespace Cursor

/-- The place `n` characters further on. -/
def skip (n : Nat) (cursor : Cursor) : Cursor :=
  ⟨(cursor.rest.take n).reverse ++ cursor.before, cursor.rest.drop n⟩

@[simp] theorem skip_rest (n : Nat) (cursor : Cursor) :
    (cursor.skip n).rest = cursor.rest.drop n := rfl

@[simp] theorem skip_zero (cursor : Cursor) : cursor.skip 0 = cursor := rfl

@[simp] theorem skip_succ_cons (n : Nat) (before rest : List Char) (c : Char) :
    (⟨before, c :: rest⟩ : Cursor).skip (n + 1) = (⟨c :: before, rest⟩ : Cursor).skip n := by
  simp [skip]

/-- Two moves are one. -/
theorem skip_skip (m n : Nat) (cursor : Cursor) :
    (cursor.skip m).skip n = cursor.skip (m + n) := by
  simp only [skip, List.drop_drop, List.take_add, List.reverse_append, List.append_assoc]

/-- Beyond the end of the text there is no further place. -/
theorem skip_min (n : Nat) (cursor : Cursor) :
    cursor.skip (min n cursor.rest.length) = cursor.skip n := by
  rw [skip, skip, List.take_eq_take_min, Nat.min_assoc, Nat.min_self, ← List.take_eq_take_min]
  rcases Nat.le_total n cursor.rest.length with h | h
  · rw [Nat.min_eq_left h]
  · rw [Nat.min_eq_right h, List.drop_length, List.drop_eq_nil_of_le h]

/-- All places from here on, the nearest one first. -/
def onwards (before : List Char) : List Char → List Cursor
  | [] => [⟨before, []⟩]
  | c :: rest => ⟨before, c :: rest⟩ :: onwards (c :: before) rest

/-- Every place from here on is some characters further on. -/
theorem exists_skip_of_mem_onwards {before rest : List Char} {cursor : Cursor}
    (h : cursor ∈ onwards before rest) : ∃ n, cursor = (⟨before, rest⟩ : Cursor).skip n := by
  induction rest generalizing before with
  | nil =>
    rw [onwards, List.mem_singleton] at h
    exact ⟨0, h⟩
  | cons c rest ih =>
    rw [onwards, List.mem_cons] at h
    rcases h with rfl | h
    · exact ⟨0, rfl⟩
    · obtain ⟨n, rfl⟩ := ih h
      exact ⟨n + 1, (skip_succ_cons ..).symm⟩

variable {β : Type}

/-- A continuation that fails at a place fails at all later ones too. -/
def Settled (f : Cursor → Option β) : Prop :=
  ∀ cursor n, f cursor = none → f (cursor.skip n) = none

/-- **First place.** Of all later places at which a word is written, the first one decides for
    a settled continuation. -/
theorem findSome?_onwards (word : List Char) {f : Cursor → Option β} (hf : Settled f)
    (before rest : List Char) :
    (onwards before rest).findSome? (fun c => if word <+: c.rest then f c else none) =
      (indexOf? word rest).bind fun i => f ((⟨before, rest⟩ : Cursor).skip i) := by
  induction rest generalizing before with
  | nil =>
    rw [indexOf?_nil]
    by_cases h : word = [] <;> simp [onwards, h]
  | cons c rest ih =>
    rw [onwards, List.findSome?_cons, indexOf?_cons]
    by_cases h : word <+: c :: rest
    · simp only [if_pos h, Option.bind_some, skip_zero]
      cases hc : f ⟨before, c :: rest⟩ with
      | some stop => rfl
      | none =>
        -- The continuation failed at the first place, so it fails at every later one.
        refine List.findSome?_eq_none_iff.mpr fun later hl => ?_
        obtain ⟨n, rfl⟩ := exists_skip_of_mem_onwards hl
        rw [← skip_succ_cons, hf _ _ hc]
        simp
    · simp only [if_neg h, ih, Option.bind_map, Function.comp_def, skip_succ_cons]

/-- A search followed by a settled continuation is settled: further on it can only find later
    places. -/
theorem Settled.search (word : List Char) {f : Cursor → Option β} (hf : Settled f) :
    Settled fun cursor =>
      (indexOf? word cursor.rest).bind fun i => f (cursor.skip i) := by
  intro cursor n hnone
  rw [← skip_min]
  have hn : min n cursor.rest.length ≤ cursor.rest.length := Nat.min_le_right ..
  generalize min n cursor.rest.length = n at hn ⊢
  refine Option.bind_eq_none_iff.mpr fun j hj => ?_
  have hocc : OccursAt word cursor.rest (n + j) :=
    (occursAt_drop hn).mp (indexOf?_eq_some_iff.mp hj).1
  cases hi : indexOf? word cursor.rest with
  | none => exact absurd hocc (indexOf?_eq_none_iff.mp hi _)
  | some i =>
    have hij : i ≤ n + j := (indexOf?_eq_some_iff.mp hi).2 hocc
    have hfirst : f (cursor.skip i) = none := by simpa only [hi, Option.bind_some] using hnone
    -- The later place lies `n + j - i` characters behind the first one.
    have hskip : (cursor.skip n).skip j = (cursor.skip i).skip (n + j - i) := by
      rw [skip_skip, skip_skip, Nat.add_sub_cancel' hij]
    rw [hskip]
    exact hf _ _ hfirst

/-- A settled continuation stays settled behind a fixed number of characters. -/
theorem Settled.skip (m : Nat) {f : Cursor → Option β} (hf : Settled f) :
    Settled fun cursor => f (cursor.skip m) := by
  intro cursor n hnone
  show f ((cursor.skip n).skip m) = none
  rw [skip_skip, Nat.add_comm, ← skip_skip]
  exact hf _ _ hnone

/-- A settled continuation stays settled if its results are changed. -/
theorem Settled.map {γ : Type} {f : Cursor → Option β} (hf : Settled f) (g : Cursor → β → γ) :
    Settled fun cursor => (f cursor).map (g cursor) := by
  intro cursor n hnone
  rw [Option.map_eq_none_iff] at hnone ⊢
  exact hf _ _ hnone

end Cursor

namespace Pattern

/-- The ends of a list of patterns, each matched from where the one before ended. -/
def endsAll : List Pattern → Cursor → List Cursor
  | [], cursor => [cursor]
  | pattern :: more, cursor => (pattern.ends cursor).flatMap (endsAll more)

/-- The ends of two lists of patterns, one after the other. -/
theorem endsAll_append (first second : List Pattern) (cursor : Cursor) :
    endsAll (first ++ second) cursor = (endsAll first cursor).flatMap (endsAll second) := by
  induction first generalizing cursor with
  | nil => simp [endsAll]
  | cons pattern more ih =>
    simp only [List.cons_append, endsAll, List.flatMap_assoc]
    exact congrArg (fun k => (pattern.ends cursor).flatMap k) (funext ih)

/-- A set of characters is matched by one character that it holds. -/
theorem ends_one_cons (set : CharSet) (before rest : List Char) (c : Char) :
    (one set).ends ⟨before, c :: rest⟩ = if set.holds c then [⟨c :: before, rest⟩] else [] :=
  rfl

/-- A set of characters is not matched at the end of a text. -/
theorem ends_one_nil (set : CharSet) (before : List Char) : (one set).ends ⟨before, []⟩ = [] :=
  rfl

/-- A set of one character holds that character only. -/
theorem holds_single (c d : Char) :
    CharSet.holds ⟨[.range c c], false, false⟩ d = decide (c = d) := by
  have hcd : c ≤ d ∧ d ≤ c ↔ c = d := ⟨fun h => Char.le_antisymm h.1 h.2, fun h => by simp [h]⟩
  simp [CharSet.holds, CharItem.holds, ← hcd]

/-- The set of all characters holds every character. -/
theorem holds_all (c : Char) : CharSet.all.holds c = true := by
  simp [CharSet.all, CharSet.holds]

/-- The patterns of the characters of a word, one after the other. -/
def letters (word : List Char) : List Pattern :=
  word.map fun c => .one ⟨[.range c c], false, false⟩

/-- A word is matched where it is written. -/
theorem endsAll_letters (word : List Char) (cursor : Cursor) :
    endsAll (letters word) cursor =
      if word <+: cursor.rest then [cursor.skip word.length] else [] := by
  induction word generalizing cursor with
  | nil => simp [letters, endsAll]
  | cons c word ih =>
    obtain ⟨before, rest⟩ := cursor
    rw [letters, List.map_cons, ← letters, endsAll]
    cases rest with
    | nil => simp [ends_one_nil]
    | cons d rest =>
      rw [ends_one_cons, holds_single]
      by_cases h : c = d
      · subst h
        simp [ih]
      · simp [h, List.cons_prefix_cons]

/-- The lazy gap: any number of any characters, preferably none. -/
def gap : Pattern :=
  repeated false (.one .all) none 0

/-- One character or more of any kind, preferably one, end at every later place. -/
theorem loopEnds_all (before rest : List Char) (c : Char) {room : Nat} (hroom : rest.length < room)
    (fresh : Bool) :
    loopEnds false (ends (.one .all)) room fresh ⟨before, c :: rest⟩ =
      Cursor.onwards (c :: before) rest := by
  induction rest generalizing before c room fresh with
  | nil =>
    obtain ⟨room, rfl⟩ := Nat.exists_eq_succ_of_ne_zero (Nat.ne_of_gt hroom)
    have hmore : loopEnds false (ends (.one .all)) room false ⟨c :: before, []⟩ = [] := by
      cases room <;> simp [loopEnds, ends_one_nil]
    simp [loopEnds, ends_one_cons, holds_all, Cursor.onwards, hmore]
  | cons d rest ih =>
    obtain ⟨room, rfl⟩ := Nat.exists_eq_succ_of_ne_zero (Nat.ne_of_gt (Nat.zero_lt_of_lt hroom))
    have hroom' : rest.length < room := by simpa using hroom
    have hmore := ih (c :: before) d hroom' false
    simp [loopEnds, ends_one_cons, holds_all, Cursor.onwards, hmore]

/-- The lazy gap ends at every place from here on, the nearest one first. -/
theorem ends_gap (before rest : List Char) :
    gap.ends ⟨before, rest⟩ = Cursor.onwards before rest := by
  show ⟨before, rest⟩ :: loopEnds false (ends (.one .all)) (rest.length + 1) true ⟨before, rest⟩ = _
  cases rest with
  | nil => simp [loopEnds, ends_one_nil, Cursor.onwards]
  | cons c rest => rw [loopEnds_all before rest c (by simp only [List.length_cons]; omega), Cursor.onwards]

/-- **Gap and word.** The preferred end after a gap, a word and what follows is the one from the
    first place of the word, if what follows is settled. -/
theorem head?_endsAll_gap (word : List Char) (more : List Pattern)
    (hmore : Cursor.Settled fun cursor => (endsAll more cursor).head?) (cursor : Cursor) :
    (endsAll (gap :: letters word ++ more) cursor).head? =
      (indexOf? word cursor.rest).bind fun i =>
        (endsAll more ((cursor.skip i).skip word.length)).head? := by
  obtain ⟨before, rest⟩ := cursor
  rw [List.cons_append, endsAll, ends_gap, List.head?_flatMap]
  rw [← Cursor.findSome?_onwards word (hmore.skip word.length)]
  congr 1
  funext c
  rw [endsAll_append, endsAll_letters]
  by_cases h : word <+: c.rest <;> simp [h]

/-- Nothing more to match is settled. -/
theorem settled_nil : Cursor.Settled fun cursor => (endsAll [] cursor).head? :=
  fun _ _ h => absurd h (by simp [endsAll])

/-- A gap, a word and what follows are settled if what follows is. -/
theorem settled_gap (word : List Char) (more : List Pattern)
    (hmore : Cursor.Settled fun cursor => (endsAll more cursor).head?) :
    Cursor.Settled fun cursor => (endsAll (gap :: letters word ++ more) cursor).head? := by
  simp only [head?_endsAll_gap word more hmore]
  exact (hmore.skip word.length).search word

/-- A round of a loop ends no earlier than it starts. -/
theorem rest_length_le_of_mem_loopEnds {greedy : Bool} {round : Cursor → List Cursor} {room : Nat}
    {fresh : Bool} {cursor stop : Cursor} (h : stop ∈ loopEnds greedy round room fresh cursor) :
    stop.rest.length ≤ cursor.rest.length := by
  induction room generalizing fresh cursor with
  | zero => simp [loopEnds] at h
  | succ room ih =>
    rw [loopEnds, List.mem_flatMap] at h
    obtain ⟨next, -, h⟩ := h
    by_cases hlt : next.rest.length < cursor.rest.length
    · have hmore : stop ∈ loopEnds greedy round room false next ∨ stop = next := by
        rw [if_pos hlt] at h
        cases greedy <;> simpa [or_comm] using h
      rcases hmore with hmore | rfl
      · exact le_trans (ih hmore) (le_of_lt hlt)
      · exact le_of_lt hlt
    · rw [if_neg hlt] at h
      cases fresh <;> simp_all

/-- A match ends no earlier than it starts. -/
theorem rest_length_le_of_mem_ends {pattern : Pattern} {cursor stop : Cursor}
    (h : stop ∈ pattern.ends cursor) : stop.rest.length ≤ cursor.rest.length := by
  induction pattern generalizing cursor stop with
  | empty => simp_all [ends]
  | one set =>
    obtain ⟨before, rest⟩ := cursor
    cases rest with
    | nil => simp [ends_one_nil] at h
    | cons c rest =>
      rw [ends_one_cons] at h
      split at h <;> simp_all
  | check assertion =>
    rw [ends] at h
    split at h <;> simp_all
  | seq first second ihf ihs =>
    rw [ends, List.mem_flatMap] at h
    obtain ⟨next, hnext, h⟩ := h
    exact le_trans (ihs h) (ihf hnext)
  | either first second ihf ihs =>
    rw [ends, List.mem_append] at h
    exact h.elim (fun h => ihf h) (fun h => ihs h)
  | loop greedy body _ => exact rest_length_le_of_mem_loopEnds h

/-- **Leftmost match.** A pattern is found at the first place from which it matches, up to the
    preferred end from there. -/
theorem findFrom_eq (pattern : Pattern) (n : Nat) (before rest : List Char) :
    pattern.findFrom n before rest =
      (Cursor.onwards before rest).findSome? fun cursor =>
        (pattern.ends cursor).head?.map fun stop =>
          ⟨n + rest.length - cursor.rest.length, n + rest.length - stop.rest.length⟩ := by
  induction rest generalizing n before with
  | nil =>
    rw [findFrom, Cursor.onwards, List.findSome?_singleton]
    cases hends : pattern.ends ⟨before, []⟩ with
    | nil => rfl
    | cons stop more =>
      have hstop : stop.rest.length ≤ 0 := rest_length_le_of_mem_ends (hends ▸ List.mem_cons_self)
      simp [Nat.le_zero.mp hstop]
  | cons c rest ih =>
    rw [findFrom, Cursor.onwards, List.findSome?_cons]
    cases hends : pattern.ends ⟨before, c :: rest⟩ with
    | nil => simp only [ih, List.head?_nil, Option.map_none, List.length_cons, Nat.add_right_comm n 1,
        Nat.add_assoc]
    | cons stop more =>
      have hstop : stop.rest.length ≤ (c :: rest).length :=
        rest_length_le_of_mem_ends (hends ▸ List.mem_cons_self)
      simp only [List.head?_cons, Option.map_some, Option.some.injEq, Span.mk.injEq,
        List.length_cons] at hstop ⊢
      omega

/-- **Patterns that begin with a word.** If a pattern can match only where a word is written, and the
    preferred end from there is that of a settled continuation, then the first place of the word
    decides. -/
theorem find_of_head? {pattern : Pattern} {word : List Char} {stop? : Cursor → Option Cursor}
    (hends : ∀ cursor, (pattern.ends cursor).head? =
      if word <+: cursor.rest then stop? cursor else none)
    (hstop : Cursor.Settled stop?) (before rest : List Char) :
    pattern.find before rest =
      (indexOf? word rest).bind fun i =>
        (stop? ((⟨before, rest⟩ : Cursor).skip i)).map fun stop =>
          ⟨i, rest.length - stop.rest.length⟩ := by
  let span (cursor stop : Cursor) : Span :=
    ⟨rest.length - cursor.rest.length, rest.length - stop.rest.length⟩
  calc pattern.find before rest
      = (indexOf? word rest).bind fun i =>
          (stop? ((⟨before, rest⟩ : Cursor).skip i)).map (span ((⟨before, rest⟩ : Cursor).skip i)) := by
        rw [find, findFrom_eq, ← Cursor.findSome?_onwards _ (hstop.map span)]
        congr 1
        funext cursor
        rw [hends]
        by_cases h : word <+: cursor.rest <;> simp [h, span]
    _ = (indexOf? word rest).bind fun i =>
          (stop? ((⟨before, rest⟩ : Cursor).skip i)).map fun stop =>
            ⟨i, rest.length - stop.rest.length⟩ := by
        -- The word is inside the rest, so the characters before it are as many as its place says.
        refine Option.bind_congr fun i hi => ?_
        have hi := indexOf?_bound hi
        have hstart : rest.length - (rest.drop i).length = i := by
          rw [List.length_drop]
          omega
        simp only [span, Cursor.skip_rest, hstart]

end Pattern

end PageLoom
