import Mathlib.Algebra.Order.BigOperators.Group.List
import Mathlib.Algebra.Order.Ring.Nat
import Mathlib.Data.List.SplitBy
import PageLoom.Page.Document
import PageLoom.Proofs.Splice.Scan

namespace PageLoom

/-!
# Which links are marked

The link of the page being shown is meant to be marked where its class is a whole identifier of the
header, and no other identifier is meant to change. But a class token looks only at what follows it.
So an identifier that goes on behind the token stays as it is, and one that goes on in front of it
is marked, too.

* `identifierRuns` — a text cut into its identifiers and what is between them;
* `splice_identifier`, `splice_gap` — what happens to each of them;
* `markActive_eq_markedRuns` — the identifiers that end with the token are marked;
* `markActive_whole_iff` — when these are the whole tokens only;
* `markActive_marks_longer` — a header with an identifier that only ends with the token.
-/

/-! ### Identifiers -/

/-- The longest runs of identifier characters, and the longest runs of other characters between
    them. -/
def identifierRuns (text : List Char) : List (List Char) :=
  text.splitBy fun a b => isIdentifier a == isIdentifier b

/-- A header with the active class behind each run that is to be marked. -/
def markedRuns (marks : List Char → Bool) (header : String) : String :=
  String.ofList ((identifierRuns header.toList).flatMap fun run =>
    if marks run then run ++ (" " ++ activeClass).toList else run)

/-- The characters of a run are all of the kind of its first one. -/
theorem isIdentifier_of_isChain {c d : Char} {more : List Char}
    (h : (c :: more).IsChain fun a b => (isIdentifier a == isIdentifier b) = true)
    (hd : d ∈ c :: more) : isIdentifier d = isIdentifier c := by
  induction more generalizing c with
  | nil => rw [List.mem_singleton.mp hd]
  | cons e more ih =>
    obtain ⟨hce, hmore⟩ := List.isChain_cons_cons.mp h
    rcases List.mem_cons.mp hd with rfl | hd
    · rfl
    · exact (ih hmore hd).trans (beq_iff_eq.mp hce).symm

/-! ### One identifier, one gap -/

section Runs

variable {token mark run rest : List Char}

/-- A token is there if its first character is, and the others behind it. -/
theorem tokenHere_cons_cons (c d : Char) (token text : List Char) :
    tokenHere (c :: token) (d :: text) = (c == d && tokenHere token text) := by
  rw [tokenHere, tokenHere, List.isPrefixOf, Bool.and_assoc]
  rfl

/-- In an identifier a token is there if it is all that is left of the identifier. -/
theorem tokenHere_append_iff (htoken : ∀ c ∈ token, isIdentifier c = true)
    (hrun : ∀ c ∈ run, isIdentifier c = true) (hrest : endsToken rest = true) :
    tokenHere token (run ++ rest) = true ↔ token = run := by
  induction run generalizing token with
  | nil =>
    cases token with
    | nil => simpa [tokenHere] using hrest
    | cons c token =>
      -- Behind the identifier no character of a token can follow.
      cases rest with
      | nil => simp [tokenHere]
      | cons d rest =>
        have hc := htoken c List.mem_cons_self
        have hne : c ≠ d := by
          rintro rfl
          simp [endsToken, hc] at hrest
        simp [tokenHere_cons_cons, hne]
  | cons d run ih =>
    obtain ⟨hd, hrun⟩ := List.forall_mem_cons.mp hrun
    cases token with
    | nil => simp [tokenHere, endsToken, hd]
    | cons c token =>
      have htoken := (List.forall_mem_cons.mp htoken).2
      rw [List.cons_append, tokenHere_cons_cons, Bool.and_eq_true, ih htoken hrun, beq_iff_eq,
        List.cons.injEq]

/-- An identifier is marked if it ends with the token. -/
theorem splice_identifier (htoken : ∀ c ∈ token, isIdentifier c = true) (hne : token ≠ [])
    (hrun : ∀ c ∈ run, isIdentifier c = true) (hrest : endsToken rest = true) :
    splice (.classToken token) (token ++ mark) (run ++ rest) =
      (if token.isSuffixOf run then run ++ mark else run) ++
        splice (.classToken token) (token ++ mark) rest := by
  have hscans := scans_classToken hne
  induction run with
  | nil =>
    have hnot : token.isSuffixOf [] = false := by
      rw [Bool.eq_false_iff, ne_eq, List.isSuffixOf_iff_suffix, List.suffix_nil]
      exact hne
    simp [hnot]
  | cons c run ih =>
    have hhere := tokenHere_append_iff htoken hrun hrest
    by_cases hwhole : token = c :: run
    · have hsuffix : token.isSuffixOf (c :: run) = true :=
        List.isSuffixOf_iff_suffix.mpr (hwhole ▸ List.suffix_rfl)
      rw [hscans.splice_here (hhere.mpr hwhole), hsuffix, if_pos rfl, hwhole, List.drop_left]
    · have hskip : tokenHere token (c :: (run ++ rest)) = false :=
        Bool.eq_false_iff.mpr (mt hhere.mp hwhole)
      have hsuffix : token.isSuffixOf (c :: run) = token.isSuffixOf run := by
        rw [Bool.eq_iff_iff, List.isSuffixOf_iff_suffix, List.isSuffixOf_iff_suffix,
          List.suffix_cons_iff, or_iff_right hwhole]
      rw [List.cons_append, hscans.splice_skip hskip, ih (List.forall_mem_cons.mp hrun).2, hsuffix]
      split <;> rfl

/-- Between identifiers nothing changes. -/
theorem splice_gap (htoken : ∀ c ∈ token, isIdentifier c = true) (hne : token ≠ [])
    (hrun : ∀ c ∈ run, isIdentifier c = false) (value : List Char) :
    splice (.classToken token) value (run ++ rest) =
      run ++ splice (.classToken token) value rest := by
  induction run with
  | nil => rfl
  | cons d run ih =>
    obtain ⟨hd, hrun⟩ := List.forall_mem_cons.mp hrun
    have hskip : tokenHere token (d :: (run ++ rest)) = false := by
      obtain ⟨c, more, rfl⟩ := List.exists_cons_of_ne_nil hne
      have hcd : c ≠ d := by
        rintro rfl
        simp [htoken c List.mem_cons_self] at hd
      simp [tokenHere_cons_cons, hcd]
    rw [List.cons_append, (scans_classToken hne).splice_skip hskip, ih hrun]
    rfl

/-- In a gap between identifiers no token can be written. -/
theorem isSuffixOf_gap (htoken : ∀ c ∈ token, isIdentifier c = true) (hne : token ≠ [])
    (hrun : ∀ c ∈ run, isIdentifier c = false) : token.isSuffixOf run = false := by
  rw [Bool.eq_false_iff, ne_eq, List.isSuffixOf_iff_suffix]
  intro hsuffix
  obtain ⟨c, hc⟩ := List.exists_mem_of_ne_nil token hne
  have hgap := hrun c (hsuffix.subset hc)
  rw [htoken c hc] at hgap
  cases hgap

/-- **Runs.** In a text that is cut into runs of one kind of character, with different kinds next
    to each other, the runs that end with the token are marked. -/
theorem splice_runs (htoken : ∀ c ∈ token, isIdentifier c = true) (hne : token ≠ [])
    {runs : List (List Char)}
    (hkind : ∀ run ∈ runs, run.IsChain fun a b => (isIdentifier a == isIdentifier b) = true)
    (hnil : [] ∉ runs)
    (hchange : runs.IsChain fun one next =>
      ∃ hone hnext, (isIdentifier (one.getLast hone) == isIdentifier (next.head hnext)) = false) :
    splice (.classToken token) (token ++ mark) runs.flatten =
      runs.flatMap fun run => if token.isSuffixOf run then run ++ mark else run := by
  induction runs with
  | nil => exact (scans_classToken hne).splice_nil
  | cons run runs ih =>
    obtain ⟨hrun, hkind⟩ := List.forall_mem_cons.mp hkind
    have hrest := ih hkind (fun hmem => hnil (List.mem_cons_of_mem _ hmem)) hchange.tail
    obtain ⟨c, more, rfl⟩ := List.exists_cons_of_ne_nil fun h => hnil (h ▸ List.mem_cons_self)
    have hall : ∀ d ∈ c :: more, isIdentifier d = isIdentifier c :=
      fun d hd => isIdentifier_of_isChain hrun hd
    rw [List.flatten_cons, List.flatMap_cons]
    cases hc : isIdentifier c with
    | false =>
      have hgap : ∀ d ∈ c :: more, isIdentifier d = false := fun d hd => (hall d hd).trans hc
      rw [splice_gap htoken hne hgap, isSuffixOf_gap htoken hne hgap, hrest]
      rfl
    | true =>
      have hidentifier : ∀ d ∈ c :: more, isIdentifier d = true := fun d hd => (hall d hd).trans hc
      have hends : endsToken runs.flatten = true := by
        cases runs with
        | nil => rfl
        | cons next runs =>
          obtain ⟨hone, hnext, hdiffers⟩ := (List.isChain_cons_cons.mp hchange).1
          obtain ⟨d, later, rfl⟩ := List.exists_cons_of_ne_nil hnext
          rw [hidentifier _ (List.getLast_mem hone)] at hdiffers
          simpa [endsToken] using hdiffers
      rw [splice_identifier htoken hne hidentifier hends, hrest]

end Runs

/-! ### The header -/

/-- The characters of a token are those of every token and those of the key. -/
theorem toList_navigationToken (key : String) :
    (navigationToken key).toList = "menu-list-item-link-".toList ++ key.toList :=
  String.toList_append

/-- The token of a page with a key of identifier characters has identifier characters only. -/
theorem isIdentifier_navigationToken {key : String}
    (hkey : key.toList.all isIdentifier = true) :
    ∀ c ∈ (navigationToken key).toList, isIdentifier c = true := by
  have hlink : "menu-list-item-link-".toList.all isIdentifier = true := by decide +kernel
  intro c hc
  rw [toList_navigationToken] at hc
  exact (List.mem_append.mp hc).elim (List.all_eq_true.mp hlink c) (List.all_eq_true.mp hkey c)

/-- No token is empty. -/
theorem navigationToken_ne_nil (key : String) : (navigationToken key).toList ≠ [] := by
  rw [toList_navigationToken]
  simp

/-- The identifiers of a header that end with the token of a page are marked. -/
theorem markActive_eq_markedRuns {key : String} (hkey : key.toList.all isIdentifier = true)
    (header : String) :
    markActive header key = markedRuns ((navigationToken key).toList.isSuffixOf ·) header := by
  have hmarked : (navigationToken key ++ " " ++ activeClass).toList =
      (navigationToken key).toList ++ (" " ++ activeClass).toList := by
    simp
  rw [markActive, markedRuns, hmarked]
  conv_lhs => rw [← List.flatten_splitBy (fun a b => isIdentifier a == isIdentifier b) header.toList]
  rw [splice_runs (isIdentifier_navigationToken hkey) (navigationToken_ne_nil key)
    (fun _ hrun => List.isChain_of_mem_splitBy hrun) (List.nil_notMem_splitBy _ _)
    (List.isChain_getLast_head_splitBy (fun a b => isIdentifier a == isIdentifier b) _)]
  rfl

/-- More marks make a longer text. So if one marking is within another, both are the same text only
    where they mark the same runs. -/
theorem marks_eq_of_flatMap_eq {marks others : List Char → Bool} {mark : List Char}
    (hmark : mark ≠ []) {runs : List (List Char)}
    (hwithin : ∀ run, others run = true → marks run = true)
    (h : (runs.flatMap fun run => if marks run then run ++ mark else run) =
      runs.flatMap fun run => if others run then run ++ mark else run) :
    ∀ run ∈ runs, marks run = true → others run = true := by
  intro run hrun hmarks
  by_contra hothers
  have hshorter : ∀ run, (if others run then run ++ mark else run).length ≤
      (if marks run then run ++ mark else run).length := by
    intro run
    by_cases hrun : others run = true
    · rw [if_pos hrun, if_pos (hwithin run hrun)]
    · rw [if_neg hrun]
      split <;> simp
  have hstrictly : (if others run then run ++ mark else run).length <
      (if marks run then run ++ mark else run).length := by
    rw [if_neg hothers, if_pos hmarks, List.length_append]
    exact Nat.lt_add_of_pos_right (List.length_pos_iff.mpr hmark)
  have hlength := congrArg List.length h
  rw [List.length_flatMap, List.length_flatMap] at hlength
  exact absurd hlength (Nat.ne_of_gt
    (List.sum_lt_sum _ _ (fun run _ => hshorter run) ⟨run, hrun, hstrictly⟩))

/-- **Active link.** For a page with a key of identifier characters the header keeps its text, and
    the active class is added to the identifiers that end with the page's token, and to no others.
    These are the identifiers that are the token, just if no identifier of the header ends with the
    token in another way. -/
theorem markActive_marks_endings {key : String} (hkey : key.toList.all isIdentifier = true)
    (header : String) :
    markActive header key = markedRuns ((navigationToken key).toList.isSuffixOf ·) header ∧
      (markActive header key = markedRuns (· == (navigationToken key).toList) header ↔
        ∀ run ∈ identifierRuns header.toList, (navigationToken key).toList <:+ run →
          run = (navigationToken key).toList) := by
  have hwithin : ∀ run, (run == (navigationToken key).toList) = true →
      (navigationToken key).toList.isSuffixOf run = true := by
    intro run hrun
    exact List.isSuffixOf_iff_suffix.mpr (beq_iff_eq.mp hrun ▸ List.suffix_rfl)
  refine ⟨markActive_eq_markedRuns hkey header, ?_⟩
  rw [markActive_eq_markedRuns hkey header]
  constructor
  · intro heq run hrun hsuffix
    refine beq_iff_eq.mp (marks_eq_of_flatMap_eq (by simp [activeClass]) hwithin
      (String.ofList_inj.mp heq) run hrun ?_)
    exact List.isSuffixOf_iff_suffix.mpr hsuffix
  · intro hwhole
    refine congrArg String.ofList (List.flatMap_congr fun run hrun => ?_)
    have hsame : (navigationToken key).toList.isSuffixOf run =
        (run == (navigationToken key).toList) := by
      refine Bool.eq_iff_iff.mpr ⟨fun hsuffix => ?_, hwithin run⟩
      exact beq_iff_eq.mpr (hwhole run hrun (List.isSuffixOf_iff_suffix.mp hsuffix))
    simp only [hsame]

/-- An identifier that goes on behind the token stays as it is, and the token itself is marked. -/
theorem markActive_marks_endings_about :
    markActive "menu-list-item-link-about-us menu-list-item-link-about" "about" =
      "menu-list-item-link-about-us menu-list-item-link-about active-page" := by
  refine (markActive_marks_endings (by decide) _).1.trans ?_
  decide +kernel

/-- An identifier that only ends with the token is marked, although it is another one. -/
theorem markActive_marks_longer :
    "about".toList.all isIdentifier = true ∧
      markActive "<a class=\"x-menu-list-item-link-about\">" "about" =
        "<a class=\"x-menu-list-item-link-about active-page\">" ∧
      markActive "<a class=\"x-menu-list-item-link-about\">" "about" ≠
        markedRuns (· == (navigationToken "about").toList)
          "<a class=\"x-menu-list-item-link-about\">" := by
  have hkey : "about".toList.all isIdentifier = true := by decide
  have hmarked : markActive "<a class=\"x-menu-list-item-link-about\">" "about" =
      "<a class=\"x-menu-list-item-link-about active-page\">" := by
    rw [markActive_eq_markedRuns hkey]
    decide +kernel
  refine ⟨hkey, hmarked, ?_⟩
  rw [hmarked]
  decide +kernel

end PageLoom
