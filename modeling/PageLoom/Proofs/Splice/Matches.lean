import Mathlib.Data.List.Basic
import PageLoom.Splice.Basic
import PageLoom.Text.Offset

namespace PageLoom

/-!
# What splicing replaces

A needle is asked for one match after the other, and always in the given text: behind a match with
characters the next search starts at its end, behind an empty match one character later, and an
empty match at the end of the text is the last one. Splicing replaces exactly these matches.

* `Needle.Matches` — the matches of a needle, as spans of the text;
* `Pieces.cut` — a text cut at spans;
* `Needle.pieces_eq_cut` — the needle's own cut is the one at its matches;
* `splice_replaces_matches` — what is replaced, and what stays.
-/

/-! ### Places -/

@[simp] theorem byteLength_nil : byteLength [] = 0 := rfl

/-- The bytes of a text are those of its first character and of the rest. -/
@[simp] theorem byteLength_cons (c : Char) (rest : List Char) :
    byteLength (c :: rest) = c.utf8Size + byteLength rest := by
  have hshift : ∀ (text : List Char) (n : Nat),
      text.foldl (fun n c => n + c.utf8Size) n = n + text.foldl (fun n c => n + c.utf8Size) 0 := by
    intro text
    induction text with
    | nil => simp
    | cons d text ih =>
      intro n
      rw [List.foldl_cons, List.foldl_cons, ih, ih (0 + _)]
      omega
  rw [byteLength, List.foldl_cons, hshift, Nat.zero_add]
  rfl

/-- The place with the number `n` is inside a text or at its end: as a byte offset it is the start
    of a character, or the end. -/
def IsBoundary (text : List Char) (n : Nat) : Prop :=
  charsBefore? (byteLength (text.take n)) text = some n

/-- Every place that is not behind the end of a text is on the boundary of a character. -/
theorem isBoundary_of_le {text : List Char} {n : Nat} (h : n ≤ text.length) :
    IsBoundary text n := by
  induction text generalizing n with
  | nil =>
    cases Nat.le_zero.mp h
    simp [IsBoundary, charsBefore?]
  | cons c rest ih =>
    cases n with
    | zero => simp [IsBoundary, charsBefore?]
    | succ n =>
      have hrest : charsBefore? (byteLength (rest.take n)) rest = some n :=
        ih (Nat.le_of_succ_le_succ h)
      obtain ⟨size, hsize⟩ := Nat.exists_eq_succ_of_ne_zero (Nat.ne_of_gt c.utf8Size_pos)
      rw [IsBoundary, List.take_succ_cons, byteLength_cons]
      have hoffset : c.utf8Size + byteLength (rest.take n) =
          size + byteLength (rest.take n) + 1 := by omega
      rw [hoffset, charsBefore?, if_pos (by omega)]
      have hless : size + byteLength (rest.take n) + 1 - c.utf8Size = byteLength (rest.take n) := by
        omega
      rw [hless, hrest]
      rfl

/-! ### Matches -/

/-- The matches of a needle in a text, from the place `start` on. Each one is asked for in the
    text itself. -/
inductive Needle.Matches (needle : Needle) (text : List Char) : (start : Nat) → List Span → Prop
  | none {start : Nat} : needle.findAt text start = .none → needle.Matches text start []
  | full {start : Nat} {span : Span} {more : List Span} :
      needle.findAt text start = some span → span.start < span.stop →
      needle.Matches text span.stop more → needle.Matches text start (span :: more)
  | empty {start : Nat} {span : Span} {more : List Span} :
      needle.findAt text start = some span → span.start = span.stop → span.stop < text.length →
      needle.Matches text (span.stop + 1) more → needle.Matches text start (span :: more)
  | last {start : Nat} {span : Span} :
      needle.findAt text start = some span → span.start = span.stop → span.stop = text.length →
      needle.Matches text start [span]

variable {needle : Needle} {text : List Char} {start : Nat} {spans : List Span}

/-- A match that is asked for from a place on is not before it, and ends inside the text. -/
theorem Needle.findAt_bounds {span : Span} (hstart : start ≤ text.length)
    (h : needle.findAt text start = some span) :
    start ≤ span.start ∧ span.start ≤ span.stop ∧ span.stop ≤ text.length := by
  obtain ⟨found, hfound, rfl⟩ := Option.map_eq_some_iff.mp h
  have hinside := needle.inside hfound
  simp only [Span.shift, List.length_drop] at hinside ⊢
  omega

namespace Needle.Matches

/-- From one place on there is only one list of matches. -/
theorem unique {others : List Span} (h : needle.Matches text start spans)
    (h' : needle.Matches text start others) : spans = others := by
  induction h generalizing others with
  | none hfind =>
    cases h' with
    | none _ => rfl
    | full hfind' | empty hfind' | last hfind' => simp [hfind] at hfind'
  | full hfind hlt _ ih =>
    cases h' with
    | none hfind' => simp [hfind] at hfind'
    | full hfind' _ hmore =>
      cases hfind.symm.trans hfind'
      rw [ih hmore]
    | empty hfind' heq | last hfind' heq =>
      cases hfind.symm.trans hfind'
      omega
  | empty hfind heq hstop _ ih =>
    cases h' with
    | none hfind' => simp [hfind] at hfind'
    | full hfind' hlt =>
      cases hfind.symm.trans hfind'
      omega
    | empty hfind' _ _ hmore =>
      cases hfind.symm.trans hfind'
      rw [ih hmore]
    | last hfind' _ hend =>
      cases hfind.symm.trans hfind'
      omega
  | last hfind heq hend =>
    cases h' with
    | none hfind' => simp [hfind] at hfind'
    | full hfind' hlt =>
      cases hfind.symm.trans hfind'
      omega
    | empty hfind' _ hstop =>
      cases hfind.symm.trans hfind'
      omega
    | last hfind' =>
      cases hfind.symm.trans hfind'
      rfl

/-- **Order.** Matches come one after the other and stay inside the text. -/
theorem bounds (h : needle.Matches text start spans) (hstart : start ≤ text.length) :
    (∀ span ∈ spans, start ≤ span.start ∧ span.start ≤ span.stop ∧ span.stop ≤ text.length) ∧
      spans.Pairwise fun first second => first.stop ≤ second.start := by
  induction h with
  | none => simp
  | full hfind hlt _ ih =>
    have hbounds := Needle.findAt_bounds hstart hfind
    obtain ⟨hmore, hpairs⟩ := ih hbounds.2.2
    refine ⟨fun other hother => ?_, List.pairwise_cons.mpr ⟨fun other hother => ?_, hpairs⟩⟩
    · rcases List.mem_cons.mp hother with rfl | hother
      · exact hbounds
      · have := hmore other hother
        omega
    · exact (hmore other hother).1
  | empty hfind heq hstop _ ih =>
    have hbounds := Needle.findAt_bounds hstart hfind
    obtain ⟨hmore, hpairs⟩ := ih hstop
    refine ⟨fun other hother => ?_, List.pairwise_cons.mpr ⟨fun other hother => ?_, hpairs⟩⟩
    · rcases List.mem_cons.mp hother with rfl | hother
      · exact hbounds
      · have := hmore other hother
        omega
    · exact Nat.le_of_succ_le (hmore other hother).1
  | last hfind heq hend =>
    simpa using Needle.findAt_bounds hstart hfind

end Needle.Matches

/-! ### Cuts -/

/-- The text from the place `start` on, cut at the spans. -/
def Pieces.cut (text : List Char) : (start : Nat) → List Span → Pieces
  | start, [] => ⟨[], text.drop start⟩
  | start, span :: more =>
    Pieces.cons (text.extract start span.start) (text.extract span.start span.stop)
      (cut text span.stop more)

/-- Pieces with one more match in front are filled with its gap and a value in front. -/
theorem Pieces.fill_cons (gap hit value : List Char) (pieces : Pieces) :
    (Pieces.cons gap hit pieces).fill value = gap ++ (value ++ pieces.fill value) := by
  simp [Pieces.fill, Pieces.cons]

/-- The pieces of a cut are those of the text. -/
theorem Pieces.text_cut
    (hspans : ∀ span ∈ spans, start ≤ span.start ∧ span.start ≤ span.stop)
    (hpairs : spans.Pairwise fun first second => first.stop ≤ second.start) :
    (cut text start spans).text = text.drop start := by
  induction spans generalizing start with
  | nil => simp [cut, Pieces.text]
  | cons span more ih =>
    obtain ⟨hlater, hmore⟩ := List.pairwise_cons.mp hpairs
    have hspan := hspans span List.mem_cons_self
    have hrest : (cut text span.stop more).text = text.drop span.stop :=
      ih (fun other hother => ⟨hlater other hother,
        (hspans other (List.mem_cons_of_mem _ hother)).2⟩) hmore
    have hsplit : ∀ {i j : Nat}, i ≤ j → text.extract i j ++ text.drop j = text.drop i := by
      intro i j hij
      obtain ⟨n, rfl⟩ := Nat.exists_eq_add_of_le hij
      rw [List.extract_eq_take_drop, Nat.add_sub_cancel_left, ← List.drop_drop,
        List.take_append_drop]
    calc (cut text start (span :: more)).text
        = text.extract start span.start ++ (text.extract span.start span.stop ++
            (cut text span.stop more).text) := by
          simp [cut, Pieces.cons, Pieces.text]
      _ = text.drop start := by rw [hrest, hsplit hspan.2, hsplit hspan.1]

/-- A character that is passed over belongs to the gap before the next match. -/
theorem Pieces.push_cut {c : Char} {after : List Char} (hc : text.drop start = c :: after)
    (hspans : ∀ span ∈ spans, start < span.start) :
    Pieces.push c (cut text (start + 1) spans) = cut text start spans := by
  have hafter : text.drop (start + 1) = after := by
    rw [← List.drop_drop, hc]
    rfl
  cases spans with
  | nil => rw [cut, cut, hafter, hc, push]
  | cons span more =>
    have hspan := hspans span List.mem_cons_self
    have hgap : text.extract start span.start = c :: text.extract (start + 1) span.start := by
      have hlength : span.start - start = span.start - (start + 1) + 1 := by omega
      rw [List.extract_eq_take_drop, List.extract_eq_take_drop, hafter, hc, hlength,
        List.take_succ_cons]
    rw [cut, cut, hgap]
    rfl

/-! ### The cut of a needle -/

section Pieces

variable {before rest : List Char} {span : Span}

/-- What was passed before and between two places of the rest is passed before the second one. -/
private theorem reverseAux_take (before rest : List Char) {i j : Nat} (h : i ≤ j) :
    ((rest.drop i).take (j - i)).reverseAux ((rest.take i).reverseAux before) =
      (rest.take j).reverse ++ before := by
  obtain ⟨n, rfl⟩ := Nat.exists_eq_add_of_le h
  rw [List.reverseAux_eq, List.reverseAux_eq, Nat.add_sub_cancel_left, ← List.append_assoc,
    ← List.reverse_append, ← List.take_add]

/-- Without a match the rest is not cut. -/
theorem Needle.pieces_of_none (h : needle.find before rest = none) :
    needle.pieces before rest = ⟨[], rest⟩ := by
  rw [Needle.pieces]
  split
  · rfl
  · rename_i hsome
    cases h.symm.trans hsome

/-- Behind a match with characters the cut goes on at its end. -/
theorem Needle.pieces_of_full (h : needle.find before rest = some span)
    (hlt : span.start < span.stop) :
    needle.pieces before rest =
      Pieces.cons (rest.take span.start) ((rest.drop span.start).take (span.stop - span.start))
        (needle.pieces ((rest.take span.stop).reverse ++ before) (rest.drop span.stop)) := by
  have hempty : span.isEmpty = false := by
    simpa [Span.isEmpty] using Nat.ne_of_lt hlt
  rw [Needle.pieces]
  split
  · rename_i hnone
    cases h.symm.trans hnone
  · rename_i found hfound
    cases h.symm.trans hfound
    rw [if_neg (by simp [hempty]), reverseAux_take before rest (Nat.le_of_lt hlt)]

/-- Behind an empty match the cut goes on one character later. -/
theorem Needle.pieces_of_empty {c : Char} {after : List Char}
    (h : needle.find before rest = some span) (heq : span.start = span.stop)
    (hafter : rest.drop span.stop = c :: after) :
    needle.pieces before rest =
      Pieces.cons (rest.take span.start) []
        (Pieces.push c (needle.pieces (c :: ((rest.take span.start).reverse ++ before)) after)) := by
  have hempty : span.isEmpty = true := by simpa [Span.isEmpty] using heq
  rw [Needle.pieces]
  split
  · rename_i hnone
    cases h.symm.trans hnone
  · rename_i found hfound
    cases h.symm.trans hfound
    rw [if_pos hempty]
    simp only [heq, Nat.sub_self, List.take_zero]
    split
    · rename_i hnil
      cases hafter.symm.trans hnil
    · rename_i d more hcons
      cases hafter.symm.trans hcons
      rw [List.reverseAux_eq]

/-- An empty match at the end is the last one. -/
theorem Needle.pieces_of_last (h : needle.find before rest = some span)
    (heq : span.start = span.stop) (hafter : rest.drop span.stop = []) :
    needle.pieces before rest = ⟨[(rest.take span.start, [])], []⟩ := by
  have hempty : span.isEmpty = true := by simpa [Span.isEmpty] using heq
  rw [Needle.pieces]
  split
  · rename_i hnone
    cases h.symm.trans hnone
  · rename_i found hfound
    cases h.symm.trans hfound
    rw [if_pos hempty]
    simp only [heq, Nat.sub_self, List.take_zero]
    split
    · rfl
    · rename_i d more hcons
      cases hafter.symm.trans hcons

/-- Nothing occurs in a text just if nothing is found from its start. -/
theorem Needle.occursIn_eq_false_iff :
    needle.occursIn rest = false ↔ needle.find [] rest = none := by
  rw [Needle.occursIn]
  cases hfind : needle.find [] rest with
  | none => simp [pieces_of_none hfind]
  | some span =>
    refine iff_of_false ?_ (by simp)
    rcases Nat.lt_or_eq_of_le (needle.inside hfind).1 with hlt | heq
    · simp [pieces_of_full hfind hlt, Pieces.cons]
    · cases hafter : rest.drop span.stop with
      | nil => simp [pieces_of_last hfind heq hafter]
      | cons c after => simp [pieces_of_empty hfind heq hafter, Pieces.cons]

end Pieces

/-- **Cuts of needles.** The cut that a needle makes in the rest of a text is the one at its
    matches, of which there are finitely many. -/
theorem Needle.pieces_eq_cut (needle : Needle) {before rest : List Char}
    (htext : before.reverse ++ rest = text) :
    ∃ spans, needle.Matches text before.length spans ∧
      needle.pieces before rest = Pieces.cut text before.length spans := by
  -- By induction on the length of what is still to be searched.
  induction hlength : rest.length using Nat.strongRecOn generalizing before rest with
  | _ length ih =>
    subst htext
    have hdrop : (before.reverse ++ rest).drop before.length = rest :=
      List.drop_left' List.length_reverse
    have htake : ((before.reverse ++ rest).take before.length).reverse = before := by
      rw [List.take_left' List.length_reverse, List.reverse_reverse]
    have hfindAt : needle.findAt (before.reverse ++ rest) before.length =
        (needle.find before rest).map (·.shift before.length) := by
      rw [findAt, hdrop, htake]
    have hextract : ∀ i j, (before.reverse ++ rest).extract (i + before.length) (j + before.length) =
        (rest.drop i).take (j - i) := by
      intro i j
      rw [List.extract_eq_take_drop, Nat.add_comm i, ← List.drop_drop, hdrop]
      congr 1
      omega
    cases hfind : needle.find before rest with
    | none =>
      refine ⟨[], .none (by rw [hfindAt, hfind]; rfl), ?_⟩
      rw [pieces_of_none hfind, Pieces.cut, hdrop]
    | some span =>
      rw [hfind] at hfindAt
      obtain ⟨hle, hstop⟩ := needle.inside hfind
      have hgap := hextract 0 span.start
      rw [Nat.zero_add, Nat.sub_zero, List.drop_zero] at hgap
      by_cases hlt : span.start < span.stop
      · have hpassed : ((rest.take span.stop).reverse ++ before).length =
            span.stop + before.length := by simp [Nat.min_eq_left hstop]
        obtain ⟨spans, hmatches, hcut⟩ := @ih _ (by simp; omega)
          ((rest.take span.stop).reverse ++ before) (rest.drop span.stop) (by simp) rfl
        rw [hpassed] at hmatches hcut
        refine ⟨_, .full hfindAt (Nat.add_lt_add_right hlt _) hmatches, ?_⟩
        rw [pieces_of_full hfind hlt, hcut, Pieces.cut]
        simp only [Span.shift, hgap, hextract]
      · have heq : span.start = span.stop := Nat.le_antisymm hle (Nat.le_of_not_lt hlt)
        have hhit := hextract span.stop span.stop
        rw [Nat.sub_self, List.take_zero] at hhit
        rw [heq] at hgap
        cases hafter : rest.drop span.stop with
        | nil =>
          have hend := List.drop_eq_nil_iff.mp hafter
          refine ⟨_, .last hfindAt (by simp [Span.shift, heq])
            (by simp [Span.shift]; omega), ?_⟩
          rw [pieces_of_last hfind heq hafter, Pieces.cut, Pieces.cut, Pieces.cons]
          simp only [Span.shift, heq, hgap, hhit]
          rw [Nat.add_comm, ← List.drop_drop, hdrop, hafter]
        | cons c after =>
          -- The character behind the empty match is passed over, and is part of the next gap.
          have hsplit : rest = rest.take span.stop ++ c :: after := by
            rw [← hafter, List.take_append_drop]
          have hshorter : after.length < rest.length := by
            have := congrArg List.length hafter
            simp at this
            omega
          have hpassed : (c :: ((rest.take span.start).reverse ++ before)).length =
              span.stop + before.length + 1 := by simp [heq, Nat.min_eq_left hstop]
          obtain ⟨spans, hmatches, hcut⟩ := @ih after.length (by omega)
            (c :: ((rest.take span.start).reverse ++ before)) after
            (by rw [heq]; conv_rhs => rw [hsplit]
                simp) rfl
          rw [hpassed] at hmatches hcut
          have hend : span.stop + before.length < (before.reverse ++ rest).length := by
            have := congrArg List.length hafter
            simp at this ⊢
            omega
          refine ⟨_, .empty hfindAt (by simp [Span.shift, heq]) hend hmatches, ?_⟩
          rw [pieces_of_empty hfind heq hafter, hcut, Pieces.cut]
          have hbehind : (before.reverse ++ rest).drop (span.stop + before.length) = c :: after := by
            rw [Nat.add_comm, ← List.drop_drop, hdrop, hafter]
          rw [Pieces.push_cut hbehind fun span hspan => (hmatches.bounds hend).1 span hspan |>.1]
          simp only [Span.shift, heq, hgap, hhit]

/-- **Matches replaced.** Every needle has one list of matches in a text, found one after the other
    in the text itself. They are inside the text, on the boundaries of characters, and in order; the
    gaps and the matches together are the text, and the gaps with a value for each match are the
    spliced text, for every value. The text stays as it is just if there is no match. -/
theorem splice_replaces_matches (needle : Needle) (text : List Char) :
    ∃ spans, needle.Matches text 0 spans ∧
      (∀ others, needle.Matches text 0 others → others = spans) ∧
      (∀ span ∈ spans, span.start ≤ span.stop ∧
        IsBoundary text span.start ∧ IsBoundary text span.stop) ∧
      spans.Pairwise (fun first second => first.stop ≤ second.start) ∧
      (Pieces.cut text 0 spans).text = text ∧
      (∀ value, splice needle value text = (Pieces.cut text 0 spans).fill value) ∧
      (needle.occursIn text = false ↔ spans = []) := by
  obtain ⟨spans, hmatches, hcut⟩ := @Needle.pieces_eq_cut text needle [] text rfl
  rw [List.length_nil] at hmatches hcut
  obtain ⟨hbounds, hpairs⟩ := hmatches.bounds (Nat.zero_le _)
  refine ⟨spans, hmatches, fun others hothers => hothers.unique hmatches, fun span hspan => ?_,
    hpairs, ?_, fun value => ?_, ?_⟩
  · obtain ⟨-, hle, hstop⟩ := hbounds span hspan
    exact ⟨hle, isBoundary_of_le (Nat.le_trans hle hstop), isBoundary_of_le hstop⟩
  · exact Pieces.text_cut (fun span hspan => ⟨Nat.zero_le _, (hbounds span hspan).2.1⟩) hpairs
  · rw [splice, hcut]
  · rw [Needle.occursIn, hcut]
    cases spans <;> simp [Pieces.cut, Pieces.cons]

end PageLoom
