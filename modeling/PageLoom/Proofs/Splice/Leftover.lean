import Mathlib.Data.Nat.Find
import PageLoom.Proofs.Page.Characters
import PageLoom.Proofs.Placeholder
import PageLoom.Proofs.Splice.Directives

namespace PageLoom

/-!
# What a directive leaves

A directive replaces the placeholders of its symbol from left to right. In the gaps between them no
`{{` is left, and none arises where a gap meets a value. Behind the last placeholder there may be
`{{`, but no symbol and `}}` after it. So whatever placeholder of the symbol stands in the new text
starts inside a value that was put in.

* `OpensAt` — a placeholder can start at a place;
* `Pieces.InValue` — a place of the new text is inside one of the values;
* `inValue_of_opensAt` — placeholders start in values only;
* `apply_leaves_no_own_placeholder` — the same for directives, and what a second round does.
-/

/-! ### Where placeholders start -/

/-- A placeholder of the symbol can start at the place: `{{` is written there, and behind it the
    symbol and then `}}`. -/
def OpensAt (symbol text : List Char) (i : Nat) : Prop :=
  OccursAt ['{', '{'] text i ∧ ∃ j k, i + 2 ≤ j ∧ OccursAt symbol text j ∧
    j + symbol.length ≤ k ∧ OccursAt ['}', '}'] text k

section Opens

variable {symbol text first rest before : List Char} {i start : Nat} {span : Span}

/-- A placeholder starts with a brace. -/
theorem OpensAt.getElem? (h : OpensAt symbol text i) : text[i]? = some '{' := by
  obtain ⟨⟨-, more, hmore⟩, -⟩ := h
  have hhead := congrArg List.head? hmore
  rw [List.head?_drop] at hhead
  exact hhead.symm

/-- What the needle finds starts where a placeholder can start. -/
theorem opensAt_of_findAt (h : (Needle.placeholder symbol).findAt text start = some span) :
    OpensAt symbol text span.start := by
  obtain ⟨j, k, hi, hj, hk, -⟩ :=
    (placeholderSpan?_eq_some_iff symbol text start span.start span.stop).mp h
  exact ⟨hi.1.2, j, k, hj.1.1, hj.1.2, hk.1.1, hk.1.2⟩

/-- A word that is written somewhere from a place on is written at a first place from there on. -/
theorem exists_isLeast_occursAt {word : List Char} (hi : start ≤ i) (h : OccursAt word text i) :
    ∃ least, IsLeast {p | start ≤ p ∧ OccursAt word text p} least ∧ least ≤ i := by
  classical
  have hsome : ∃ p, start ≤ p ∧ OccursAt word text p := ⟨i, hi, h⟩
  exact ⟨Nat.find hsome, ⟨Nat.find_spec hsome, fun _ => Nat.find_min' hsome⟩,
    Nat.find_min' hsome ⟨hi, h⟩⟩

/-- Where a placeholder can start behind the start of a search, the needle finds one. -/
theorem exists_findAt_of_opensAt (hstart : start ≤ i) (h : OpensAt symbol text i) :
    ∃ span, (Needle.placeholder symbol).findAt text start = some span := by
  obtain ⟨hopen, j, k, hij, hsymbol, hjk, hclose⟩ := h
  -- The first `{{` may be an earlier one, and then so may be the symbol and `}}`.
  obtain ⟨i', hi', hle⟩ := exists_isLeast_occursAt hstart hopen
  have hij' : i' + 2 ≤ j := by omega
  obtain ⟨j', hj', hle'⟩ := exists_isLeast_occursAt hij' hsymbol
  have hjk' : j' + symbol.length ≤ k := by omega
  obtain ⟨k', hk', -⟩ := exists_isLeast_occursAt hjk' hclose
  exact ⟨_, (placeholderSpan?_eq_some_iff symbol text start i' (k' + 2)).mpr
    ⟨j', k', hi', hj', hk', rfl⟩⟩

/-- Where nothing is found no placeholder can start. -/
theorem not_opensAt_of_find (h : (Needle.placeholder symbol).find before rest = none) :
    ¬ OpensAt symbol rest i := by
  intro hopens
  obtain ⟨span, hspan⟩ := exists_findAt_of_opensAt (Nat.zero_le i) hopens
  have hfind : (placeholderSpan? symbol rest).map (·.shift 0) = some span := hspan
  have hnone : placeholderSpan? symbol rest = none := h
  rw [hnone] at hfind
  cases hfind

/-- What is found has characters, and starts with the first `{{`. -/
theorem first_braces_of_find (h : (Needle.placeholder symbol).find before rest = some span) :
    span.start < span.stop ∧ (∃ tail, rest = rest.take span.start ++ '{' :: tail) ∧
      ∀ p < span.start, ¬ OccursAt ['{', '{'] rest p := by
  have hfind : (placeholderSpan? symbol (rest.drop 0)).map (·.shift 0) =
      some ⟨span.start, span.stop⟩ := congrArg (Option.map _) h
  obtain ⟨j, k, hi, hj, hk, hstop⟩ := (placeholderSpan?_eq_some_iff symbol rest 0 _ _).mp hfind
  have hij := hj.1.1
  have hjk := hk.1.1
  obtain ⟨-, more, hmore⟩ := hi.1.2
  refine ⟨by omega, ⟨'{' :: more, ?_⟩,
    fun p hp hocc => absurd (hi.2 ⟨Nat.zero_le p, hocc⟩) (Nat.not_le.mpr hp)⟩
  exact (List.take_append_drop span.start rest).symm.trans (congrArg _ hmore.symm)

/-- What is written behind a text is written in what follows it. -/
theorem occursAt_append {word : List Char} :
    OccursAt word (first ++ rest) (first.length + i) ↔ OccursAt word rest i := by
  rw [← occursAt_drop (by simp), List.drop_left]

/-- A placeholder that starts behind a text starts in what follows it. -/
theorem opensAt_append :
    OpensAt symbol (first ++ rest) (first.length + i) ↔ OpensAt symbol rest i := by
  rw [OpensAt, OpensAt, occursAt_append]
  refine and_congr_right fun _ => ?_
  constructor
  · rintro ⟨j, k, hij, hsymbol, hjk, hclose⟩
    obtain ⟨j, rfl⟩ := Nat.exists_eq_add_of_le (show first.length ≤ j by omega)
    obtain ⟨k, rfl⟩ := Nat.exists_eq_add_of_le (show first.length ≤ k by omega)
    exact ⟨j, k, by omega, occursAt_append.mp hsymbol, by omega, occursAt_append.mp hclose⟩
  · rintro ⟨j, k, hij, hsymbol, hjk, hclose⟩
    exact ⟨_, _, by omega, occursAt_append.mpr hsymbol, by omega, occursAt_append.mpr hclose⟩

/-- Two braces that start in a text before a brace would be written there before the brace. -/
theorem occursAt_of_lt_length {more : List Char} (hi : i < first.length)
    (h : OccursAt ['{', '{'] (first ++ more) i) : OccursAt ['{', '{'] (first ++ '{' :: rest) i := by
  obtain ⟨-, hp⟩ := h
  refine ⟨by simp; omega, ?_⟩
  rw [List.drop_append_of_le_length (Nat.le_of_lt hi)] at hp ⊢
  -- The second brace is the next character of the text, or the one behind it.
  obtain ⟨c, later, hlater⟩ := List.exists_cons_of_ne_nil
    (fun hnil => absurd (List.drop_eq_nil_iff.mp hnil) (Nat.not_le.mpr hi))
  rw [hlater] at hp ⊢
  obtain ⟨hc, hp⟩ := List.cons_prefix_cons.mp hp
  refine List.cons_prefix_cons.mpr ⟨hc, ?_⟩
  cases later with
  | nil => simp
  | cons d later =>
    obtain ⟨rfl, -⟩ := List.cons_prefix_cons.mp hp
    simp

end Opens

/-! ### Values in the new text -/

/-- The place, in the text that the pieces are filled to, is inside one of the values. -/
def Pieces.InValue (pieces : Pieces) (value : List Char) (n : Nat) : Prop :=
  ∃ before gap hit after, pieces.hits = before ++ (gap, hit) :: after ∧
    ((⟨before, gap⟩ : Pieces).fill value).length ≤ n ∧
    n < ((⟨before, gap⟩ : Pieces).fill value).length + value.length

section Values

variable {symbol value gap hit before rest : List Char} {pieces : Pieces} {i : Nat}

/-- The first value is a value. -/
theorem Pieces.inValue_first (hi : i < value.length) :
    (Pieces.cons gap hit pieces).InValue value (gap.length + i) :=
  ⟨[], gap, hit, pieces.hits, rfl, by simp [Pieces.fill], by simpa [Pieces.fill] using hi⟩

/-- The values of the other pieces are values, too. -/
theorem Pieces.InValue.cons (h : pieces.InValue value i) :
    (Pieces.cons gap hit pieces).InValue value (gap.length + (value.length + i)) := by
  obtain ⟨before, gap', hit', after, hhits, hle, hlt⟩ := h
  refine ⟨(gap, hit) :: before, gap', hit', after, by rw [Pieces.cons, hhits]; rfl, ?_⟩
  have hfill : ((⟨(gap, hit) :: before, gap'⟩ : Pieces).fill value).length =
      gap.length + (value.length + ((⟨before, gap'⟩ : Pieces).fill value).length) := by
    rw [show (⟨(gap, hit) :: before, gap'⟩ : Pieces) = Pieces.cons gap hit ⟨before, gap'⟩ from rfl,
      Pieces.fill_cons, List.length_append, List.length_append]
  omega

/-- What stands inside a value is a character of the value. -/
theorem Pieces.InValue.mem {c : Char} (h : pieces.InValue value i)
    (hc : (pieces.fill value)[i]? = some c) : c ∈ value := by
  obtain ⟨before, gap, hit, after, hhits, hle, hlt⟩ := h
  have hfill : pieces.fill value =
      (⟨before, gap⟩ : Pieces).fill value ++ (value ++ (⟨after, pieces.tail⟩ : Pieces).fill value) := by
    simp [Pieces.fill, hhits]
  rw [hfill, List.getElem?_append_right hle, List.getElem?_append_left (by omega)] at hc
  exact List.mem_of_getElem? hc

/-- **Placeholders in values.** Where a placeholder of the symbol can start in the new text, there is
    a value. -/
theorem inValue_of_opensAt
    (h : OpensAt symbol (((Needle.placeholder symbol).pieces before rest).fill value) i) :
    ((Needle.placeholder symbol).pieces before rest).InValue value i := by
  -- By induction on the text that is still to be searched, which gets shorter behind each match.
  induction hlength : rest.length using Nat.strongRecOn generalizing before rest i with
  | _ length ih =>
    subst hlength
    cases hfind : (Needle.placeholder symbol).find before rest with
    | none =>
      rw [Needle.pieces_of_none hfind] at h
      exact absurd h (not_opensAt_of_find hfind)
    | some span =>
      obtain ⟨hlt, ⟨tail, htail⟩, hfirst⟩ := first_braces_of_find hfind
      obtain ⟨hle, hstop⟩ := (Needle.placeholder symbol).inside hfind
      have hgap : (rest.take span.start).length = span.start :=
        List.length_take_of_le (Nat.le_trans hle hstop)
      have hshorter : (rest.drop span.stop).length < rest.length := by
        rw [List.length_drop]
        omega
      rw [Needle.pieces_of_full hfind hlt] at h ⊢
      rw [Pieces.fill_cons] at h
      by_cases hi : i < (rest.take span.start).length
      · -- In the gap the braces would have been found, and at its end, too.
        have hearly : OccursAt ['{', '{'] (rest.take span.start ++ '{' :: tail) i :=
          occursAt_of_lt_length hi h.1
        rw [← htail] at hearly
        exact absurd hearly (hfirst i (hgap ▸ hi))
      obtain ⟨i, rfl⟩ := Nat.exists_eq_add_of_le (Nat.not_lt.mp hi)
      rw [opensAt_append] at h
      by_cases hi : i < value.length
      · exact Pieces.inValue_first hi
      obtain ⟨i, rfl⟩ := Nat.exists_eq_add_of_le (Nat.not_lt.mp hi)
      rw [opensAt_append] at h
      exact (ih _ hshorter h rfl).cons

/-- If the value has no brace that opens, no placeholder of the symbol is left. -/
theorem findAt_splice_eq_none {text : List Char} (hvalue : '{' ∉ value) (start : Nat) :
    (Needle.placeholder symbol).findAt (splice (.placeholder symbol) value text) start = none := by
  refine Option.eq_none_iff_forall_ne_some.mpr fun span hspan => hvalue ?_
  have hopens := opensAt_of_findAt hspan
  exact (inValue_of_opensAt hopens).mem hopens.getElem?

end Values

/-- A text in which nothing is found stays as it is. -/
theorem Needle.splice_of_findAt {needle : Needle} {text : List Char}
    (h : needle.findAt text 0 = none) (value : List Char) :
    splice needle value text = text ∧ needle.occursIn text = false := by
  have hpieces : needle.pieces [] text = ⟨[], text⟩ :=
    needle.pieces_of_none (Option.map_eq_none_iff.mp h)
  rw [splice, Needle.occursIn, hpieces]
  exact ⟨rfl, rfl⟩

/-! ### Directives -/

/-- **Left over.** A directive whose symbol is not too long gives a text in which a placeholder of the
    symbol, wherever the search for one starts, begins inside a value that was put in. If the value
    has no `{`, then there is none, and the directive leaves that text as it is. -/
theorem apply_leaves_no_own_placeholder {directive : Directive} {needle : Needle}
    (hneedle : Needle.placeholder? directive.symbol.toList = .ok needle) (text : String) :
    ∃ result, directive.apply text = .ok result ∧
      result.toList = splice needle directive.value.toList text.toList ∧
      result.toList = (needle.pieces [] text.toList).fill directive.value.toList ∧
      (needle.pieces [] text.toList).text = text.toList ∧
      (∀ start span, needle.findAt result.toList start = some span →
        (needle.pieces [] text.toList).InValue directive.value.toList span.start) ∧
      ('{' ∉ directive.value.toList →
        (∀ start, needle.findAt result.toList start = none) ∧
        needle.occursIn result.toList = false ∧ directive.apply result = .ok result) := by
  have happly : ∀ text : String, directive.apply text =
      .ok (String.ofList (splice needle directive.value.toList text.toList)) := by
    intro text
    rw [Directive.apply, hneedle]
    rfl
  cases eq_placeholder_of_ok hneedle
  refine ⟨_, happly text, String.toList_ofList, String.toList_ofList, Needle.text_pieces .., ?_, ?_⟩
  · intro start span hspan
    rw [String.toList_ofList] at hspan
    exact inValue_of_opensAt (opensAt_of_findAt hspan)
  · intro hvalue
    have hnone : ∀ start, (Needle.placeholder directive.symbol.toList).findAt
        (splice (.placeholder directive.symbol.toList) directive.value.toList text.toList) start =
          none := findAt_splice_eq_none hvalue
    obtain ⟨hagain, hoccurs⟩ := Needle.splice_of_findAt (hnone 0) directive.value.toList
    rw [happly, String.toList_ofList, hagain]
    exact ⟨hnone, hoccurs, rfl⟩

/-- The symbol `}` is found among the braces that close, and the empty value joins two gaps that both
    have a `{`. -/
theorem apply_leaves_no_own_placeholder_braces :
    Needle.placeholder? "\x7d".toList = .ok (.placeholder ['}']) ∧
      '{' ∉ (⟨"\x7d", ""⟩ : Directive).value.toList ∧
      ∃ result, (⟨"\x7d", ""⟩ : Directive).apply
          "\x7b \x7b\x7b\x7d\x7d\x7d\x7b x \x7b\x7b\x7d" = .ok result ∧
        (⟨"\x7d", ""⟩ : Directive).apply result = .ok result := by
  have hneedle : Needle.placeholder? (⟨"\x7d", ""⟩ : Directive).symbol.toList =
      .ok (.placeholder ['}']) := rfl
  have hvalue : '{' ∉ (⟨"\x7d", ""⟩ : Directive).value.toList := by decide
  obtain ⟨result, hresult, -, -, -, -, hagain⟩ := apply_leaves_no_own_placeholder hneedle
    "\x7b \x7b\x7b\x7d\x7d\x7d\x7b x \x7b\x7b\x7d"
  exact ⟨hneedle, hvalue, result, hresult, (hagain hvalue).2.2⟩

end PageLoom
