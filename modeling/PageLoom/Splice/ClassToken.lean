import PageLoom.Splice.Needle
import PageLoom.Text.Word

namespace PageLoom

/-!
# Class tokens as needles

A class token is the name of a class or an id in markup. It matches where it is written and
no further identifier character follows, so that `nav-about` is found in `nav-about active`
but not in `nav-about-us`. What stands before it does not matter.

* `endsToken` — the place where a token may end;
* `tokenIndexFrom` — the first valid place of a token;
* `Needle.classToken` — the needle.
-/

/-- What follows does not continue an identifier. -/
def endsToken : List Char → Bool
  | [] => true
  | c :: _ => !isIdentifier c

/-- The token is written at the start of the text and ends there. -/
def tokenHere (token text : List Char) : Bool :=
  token.isPrefixOf text && endsToken (text.drop token.length)

/-- The first place where the token is written and ends, where the text's first character
    has the number `n`. -/
def tokenIndexFrom (token : List Char) (n : Nat) : List Char → Option Nat
  | [] => none
  | c :: rest =>
    if tokenHere token (c :: rest) then some n else tokenIndexFrom token (n + 1) rest

/-- A token found at a place ends inside the text. -/
theorem tokenIndexFrom_bound {token text : List Char} {n i : Nat}
    (h : tokenIndexFrom token n text = some i) :
    n ≤ i ∧ i + token.length ≤ n + text.length := by
  induction text generalizing n with
  | nil => simp [tokenIndexFrom] at h
  | cons c rest ih =>
    simp only [tokenIndexFrom] at h
    split at h
    · rename_i hp
      simp only [tokenHere, Bool.and_eq_true] at hp
      have hl := (List.isPrefixOf_iff_prefix.mp hp.1).length_le
      simp only [Option.some.injEq] at h
      omega
    · have := ih h
      simp only [List.length_cons]
      omega

/-- Matches the token where no identifier character follows it. The empty token never
    matches. -/
def Needle.classToken (token : List Char) : Needle where
  find _ rest :=
    if token.isEmpty then none
    else (tokenIndexFrom token 0 rest).map fun i => ⟨i, i + token.length⟩
  inside {_ rest span} h := by
    split at h
    · simp at h
    · obtain ⟨i, hi, rfl⟩ := Option.map_eq_some_iff.mp h
      have := tokenIndexFrom_bound hi
      exact ⟨Nat.le_add_right .., by simp only; omega⟩

end PageLoom
