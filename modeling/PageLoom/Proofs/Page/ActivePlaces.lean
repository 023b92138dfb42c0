import PageLoom.Proofs.Page.ActiveLink
import PageLoom.Proofs.Splice.Places

namespace PageLoom

/-!
# Where the active class is put in

A page's token may be written at places that overlap: a token that is refused because an identifier
goes on behind it may hold the start of one that is valid. So a refused place is passed by one
character only, and no valid place is missed. The marked header is the header with the class put in
right behind the valid places, chosen from left to right without overlap.

* `ValidAt` — a token is written at a place of a text and ends there;
* `acceptedFrom` — its places tried one after the other;
* `ValidAt.add_length_le` — the valid places of an identifier do not overlap;
* `markActive_marks_places` — what is found in a header, and what is put in.
-/

/-! ### Tokens -/

section Tokens

variable {token text : List Char} {start p q : Nat}

/-- The token is written at the place with the number `i`, and no identifier character follows. -/
def ValidAt (token text : List Char) (i : Nat) : Prop :=
  OccursAt token text i ∧ endsToken (text.drop (i + token.length)) = true

instance (token text : List Char) (i : Nat) : Decidable (ValidAt token text i) :=
  inferInstanceAs (Decidable (_ ∧ _))

/-- A token with characters is there just where it is valid. -/
theorem tokenHere_drop_iff (hne : token ≠ []) :
    tokenHere token (text.drop p) = true ↔ ValidAt token text p := by
  rw [tokenHere, Bool.and_eq_true, isPrefixOf_drop_iff hne, List.drop_drop]
  exact Iff.rfl

/-- What a word is found at from a place on is not before the place, and inside the text. -/
theorem findAt_literal_bounds {span : Span}
    (h : (Needle.literal token).findAt text start = some span) :
    start ≤ span.start ∧ span.start < text.length := by
  have hne : token ≠ [] := by
    rintro rfl
    simp [Needle.findAt, Needle.literal] at h
  obtain ⟨⟨⟨hstart, hhere⟩, -⟩, -⟩ := (scans_literal hne).findAt_eq_some_iff.mp h
  have hend := ((isPrefixOf_drop_iff hne).mp hhere).add_length_le
  have hpos := List.length_pos_iff.mpr hne
  exact ⟨hstart, by omega⟩

/-- The first valid place from `start` on, found by trying the places of the token one after the
    other. A refused place is passed by one character, as the next one may overlap it. -/
def acceptedFrom (token text : List Char) (start : Nat) : Option Span :=
  match _found : (Needle.literal token).findAt text start with
  | none => none
  | some span =>
    if endsToken (text.drop span.stop) then some span
    else acceptedFrom token text (span.start + 1)
termination_by text.length - start
decreasing_by
  have := findAt_literal_bounds _found
  omega

/-- **Trying places.** Trying the places of a token finds what the class token finds. -/
theorem acceptedFrom_eq (hne : token ≠ []) (text : List Char) (start : Nat) :
    acceptedFrom token text start = (Needle.classToken token).findAt text start := by
  have hscans := scans_classToken hne
  have hliteral := scans_literal hne
  fun_induction acceptedFrom token text start with
  | case1 start hfind =>
    symm
    rw [hscans.findAt_eq_none_iff]
    intro p hp
    rw [tokenHere, hliteral.findAt_eq_none_iff.mp hfind p hp, Bool.false_and]
  | case2 start span hfind hends =>
    obtain ⟨hleast, hstop⟩ := hliteral.findAt_eq_some_iff.mp hfind
    symm
    rw [hscans.findAt_eq_some_iff]
    refine ⟨⟨⟨hleast.1.1, ?_⟩, fun p hp => hleast.2 ⟨hp.1, ?_⟩⟩, hstop⟩
    · rw [tokenHere, hleast.1.2, List.drop_drop, ← hstop, hends, Bool.and_self]
    · exact (Bool.and_eq_true _ _ ▸ hp.2).1
  | case3 start span hfind hends ih =>
    obtain ⟨hleast, hstop⟩ := hliteral.findAt_eq_some_iff.mp hfind
    rw [ih]
    -- The refused place is the least one of the token, and it is not valid.
    refine hscans.findAt_congr fun p hp => ⟨fun hle => ?_, fun hle => ?_⟩
    · exact Nat.le_trans hleast.1.1 (Nat.le_of_succ_le hle)
    · rw [tokenHere, Bool.and_eq_true, List.drop_drop] at hp
      refine Nat.lt_of_le_of_ne (hleast.2 ⟨hle, hp.1⟩) ?_
      rintro rfl
      exact hends (hstop ▸ hp.2)

/-- **Least valid place.** From every place on, a class token is found at the least place at which it is
    valid, and not at all if there is none. Trying its places one after the other comes to the same. -/
theorem findAt_classToken (hne : token ≠ []) (text : List Char) (start : Nat) :
    (Needle.classToken token).findAt text start = acceptedFrom token text start ∧
      (∀ span, (Needle.classToken token).findAt text start = some span ↔
        IsLeast {p | start ≤ p ∧ ValidAt token text p} span.start ∧
          span.stop = span.start + token.length) ∧
      ((Needle.classToken token).findAt text start = none ↔
        ∀ p, start ≤ p → ¬ ValidAt token text p) := by
  have hscans := scans_classToken hne
  refine ⟨(acceptedFrom_eq hne text start).symm, fun span => ?_, ?_⟩
  · simp only [hscans.findAt_eq_some_iff, tokenHere_drop_iff hne]
  · simp only [hscans.findAt_eq_none_iff, ← tokenHere_drop_iff hne, Bool.not_eq_true]

/-- The valid places of a token of identifier characters do not overlap. -/
theorem ValidAt.add_length_le (htoken : ∀ c ∈ token, isIdentifier c = true)
    (hp : ValidAt token text p) (hq : ValidAt token text q) (hlt : p < q) :
    p + token.length ≤ q := by
  by_contra hover
  -- Otherwise the character behind the first place is one of the token at the second place.
  obtain ⟨n, hn⟩ := Nat.exists_eq_add_of_le (Nat.le_of_not_le hover)
  obtain ⟨rest, hrest⟩ := hq.1.2
  have hdrop : text.drop (p + token.length) = token.drop n ++ rest := by
    rw [hn, ← List.drop_drop, ← hrest, List.drop_append_of_le_length (by omega)]
  obtain ⟨c, more, hmore⟩ : ∃ c more, token.drop n = c :: more :=
    List.exists_cons_of_ne_nil (by rw [ne_eq, List.drop_eq_nil_iff]; omega)
  have hends := hp.2
  have hc := htoken c (List.mem_of_mem_drop (hmore ▸ List.mem_cons_self))
  rw [hdrop, hmore, List.cons_append, endsToken, hc] at hends
  cases hends

/-- **Marks.** Splicing a token with a mark behind it puts the mark in behind the valid places that are
    chosen from left to right. Without the marks it is the text. If the token has identifier characters
    only, these are all the valid places. -/
theorem splice_classToken (hne : token ≠ []) (text mark : List Char) :
    ∃ places,
      (∀ others, Chosen (ValidAt token text) token.length 0 others ↔ others = places) ∧
      splice (.classToken token) (token ++ mark) text =
        (Pieces.cut text 0 (places.map (spanBehind token))).fill mark ∧
      (Pieces.cut text 0 (places.map (spanBehind token))).fill [] = text ∧
      ((∀ c ∈ token, isIdentifier c = true) → ∀ p, ValidAt token text p ↔ p ∈ places) := by
  obtain ⟨spans, hmatches, hcut⟩ := @Needle.pieces_eq_cut text (.classToken token) [] text rfl
  obtain ⟨places, hplaces, rfl⟩ := (scans_classToken hne).chosen_of_matches hmatches
  simp only [tokenHere_drop_iff hne] at hplaces
  have hmem := hplaces.valid_of_mem
  refine ⟨places, fun others => ⟨fun h => h.unique hplaces, fun h => h ▸ hplaces⟩, ?_, ?_, ?_⟩
  · rw [splice, hcut]
    exact Pieces.fill_cut_word (fun p hp => ⟨Nat.zero_le p, (hmem p hp).2.1.2⟩) hplaces.pairwise
  · exact Pieces.fill_nil_cut (fun p _ => Nat.zero_le p) hplaces.pairwise
  · intro htoken p
    refine ⟨fun hp => ?_, fun hp => (hmem p hp).2⟩
    exact hplaces.mem_of_valid (fun hp hq hlt => hp.add_length_le htoken hq hlt) (Nat.zero_le p) hp

end Tokens

/-! ### The header -/

/-- **Active places.** From every place of a header on, a page's token is found at the least place at
    which it is valid, and not at all if there is none. Trying its places one after the other comes to
    the same. The marked header is the header with the active class put in behind the valid places that
    are chosen from left to right without overlap. Without the pieces that were put in it is the header.
    For a page with a key of identifier characters, the class is put in behind all the valid places. -/
theorem markActive_marks_places (header key : String) :
    let token := (navigationToken key).toList
    let text := header.toList
    (∀ start,
      (Needle.classToken token).findAt text start = acceptedFrom token text start ∧
      (∀ span, (Needle.classToken token).findAt text start = some span ↔
        IsLeast {p | start ≤ p ∧ ValidAt token text p} span.start ∧
          span.stop = span.start + token.length) ∧
      ((Needle.classToken token).findAt text start = none ↔
        ∀ p, start ≤ p → ¬ ValidAt token text p)) ∧
    ∃ places,
      (∀ others, Chosen (ValidAt token text) token.length 0 others ↔ others = places) ∧
      (markActive header key).toList =
        (Pieces.cut text 0 (places.map (spanBehind token))).fill (" " ++ activeClass).toList ∧
      (Pieces.cut text 0 (places.map (spanBehind token))).fill [] = text ∧
      (key.toList.all isIdentifier = true → ∀ p, ValidAt token text p ↔ p ∈ places) := by
  intro token text
  have hne : token ≠ [] := navigationToken_ne_nil key
  obtain ⟨places, hchosen, hmarked, hplain, hall⟩ :=
    splice_classToken hne text (" " ++ activeClass).toList
  refine ⟨findAt_classToken hne text, places, hchosen, ?_, hplain, fun hkey => ?_⟩
  · have htoken : (navigationToken key ++ " " ++ activeClass).toList =
        token ++ (" " ++ activeClass).toList := by
      rw [String.append_assoc, String.toList_append]
    rw [← hmarked, markActive, String.toList_ofList, htoken]
  · exact hall (isIdentifier_navigationToken hkey)

/-- A header in which a page's token is written at two places that overlap. -/
def overlapHeader : String :=
  "menu-list-item-link-menu-list-item-link-m"

/-- The first token is refused, and the second one, which starts inside it, is found and marked. -/
theorem markActive_marks_places_overlap :
    "m".toList.all isIdentifier = true ∧
      OccursAt (navigationToken "m").toList overlapHeader.toList 0 ∧
      acceptedFrom (navigationToken "m").toList overlapHeader.toList 0 = some ⟨20, 41⟩ ∧
      (∀ p, ValidAt (navigationToken "m").toList overlapHeader.toList p ↔ p ∈ [20]) ∧
      (markActive overlapHeader "m").toList =
        overlapHeader.toList ++ (" " ++ activeClass).toList := by
  have hkey : "m".toList.all isIdentifier = true := by decide
  have hlength : 20 + (navigationToken "m").toList.length = 41 ∧
      overlapHeader.toList.length = 41 := by decide +kernel
  have hleast : IsLeast
      {p | 0 ≤ p ∧ ValidAt (navigationToken "m").toList overlapHeader.toList p} 20 := by
    have hrefused : ∀ p < 20, ¬ ValidAt (navigationToken "m").toList overlapHeader.toList p := by
      decide +kernel
    refine ⟨⟨Nat.zero_le _, by decide +kernel⟩, fun p hp => ?_⟩
    by_contra hlt
    exact hrefused p (Nat.lt_of_not_le hlt) hp.2
  obtain ⟨hfinds, places, hchosen, hmarked, -, hall⟩ := markActive_marks_places overlapHeader "m"
  obtain ⟨haccepted, hsome, -⟩ := hfinds 0
  have hplaces : [20] = places := by
    refine (hchosen _).mp (.next hleast (.none fun p hp hvalid => ?_))
    have hle := hvalid.1.add_length_le
    omega
  subst hplaces
  refine ⟨hkey, by decide +kernel, ?_, hall hkey, ?_⟩
  · exact haccepted ▸ (hsome ⟨20, 41⟩).mpr ⟨hleast, hlength.1.symm⟩
  · rw [hmarked]
    decide +kernel

end PageLoom
