import PageLoom.Proofs.PatternReader

namespace PageLoom

/-!
# Placeholders as patterns

The placeholder of a symbol is a regular expression with two lazy gaps, and the library finds it
by three plain searches. Both find the same:

* `Pattern.placeholder` — the pattern, and `Pattern.read?_placeholderSource`, which reads it off
  the regular expression;
* `Pattern.find_placeholder` — the pattern finds what the three searches find;
* `placeholderSpan?_eq_some_iff` — the three searches find three least places.
-/

namespace Pattern

/-- The pattern of a placeholder: `{{`, a gap, the symbol, a gap, `}}`. -/
def placeholder (symbol : List Char) : Pattern :=
  sequence (letters ['{', '{'] ++ (gap :: letters symbol ++ (gap :: letters ['}', '}']))).reverse

/-- The regular expression of a placeholder, cut into what is read in one go. -/
theorem placeholderSource_eq (symbol : List Char) :
    placeholderSource symbol =
      '(' :: '?' :: 's' :: ')' :: (escapePattern ['{', '{'] ++ '.' :: '*' :: '?' ::
        (escapePattern symbol ++ '.' :: '*' :: '?' :: (escapePattern ['}', '}'] ++ []))) := by
  have hfirst : "(?s)\\\x7b\\\x7b.*?".toList =
      ['(', '?', 's', ')', '\\', '{', '\\', '{', '.', '*', '?'] := rfl
  have hlast : ".*?\\\x7d\\\x7d".toList = ['.', '*', '?', '\\', '}', '\\', '}'] := rfl
  have hopen : escapePattern ['{', '{'] = ['\\', '{', '\\', '{'] := rfl
  have hclose : escapePattern ['}', '}'] = ['\\', '}', '\\', '}'] := rfl
  unfold placeholderSource
  rw [hfirst, hlast, hopen, hclose]
  rfl

/-- The regular expression of a placeholder denotes its pattern, for every symbol. -/
theorem read?_placeholderSource (symbol : List Char) :
    read? (placeholderSource symbol) = some (placeholder symbol) := by
  have hend : Unrepeated ('.' :: '*' :: '?' :: (escapePattern ['}', '}'] ++ [])) :=
    unrepeated_cons _ (by decide)
  have hmid : Unrepeated ('.' :: '*' :: '?' :: (escapePattern symbol ++ '.' :: '*' :: '?' ::
      (escapePattern ['}', '}'] ++ []))) := unrepeated_cons _ (by decide)
  -- One unit of room is used for each character, gap and flag that is read, and one at the end.
  have hroom : ∃ spare, (placeholderSource symbol).length + 1 =
      ['{', '{'].length + (symbol.length + (['}', '}'].length + (spare + 1) + 1) + 1) + 1 := by
    have hlen := length_le_escapePattern symbol
    have hbraces : (escapePattern ['{', '{']).length = 4 ∧ (escapePattern ['}', '}']).length = 4 := by
      decide
    refine ⟨(escapePattern symbol).length - symbol.length + 11, ?_⟩
    rw [placeholderSource_eq]
    simp only [List.length_append, List.length_cons, List.length_nil, hbraces.1, hbraces.2]
    omega
  obtain ⟨spare, hspare⟩ := hroom
  rw [read?, hspare, placeholderSource_eq, group?_dotAll, group?_escapePattern _ rfl _ _ _ hmid,
    group?_gap _ rfl _ _ (unrepeated_escapePattern hend), group?_escapePattern _ rfl _ _ _ hend,
    group?_gap _ rfl _ _ (unrepeated_escapePattern unrepeated_nil),
    group?_escapePattern _ rfl _ _ _ unrepeated_nil, group?_nil]
  simp [placeholder, alternatives]

/-- The ends of a placeholder from a place at which `{{` is written are those of the gap, the
    symbol, the gap and `}}` behind it. From other places there are none. -/
theorem head?_ends_placeholder (symbol : List Char) (cursor : Cursor) :
    ((placeholder symbol).ends cursor).head? =
      if ['{', '{'] <+: cursor.rest then
        (endsAll (gap :: letters symbol ++ (gap :: letters ['}', '}'] ++ []))
          (cursor.skip 2)).head?
      else none := by
  rw [placeholder, ends_sequence, List.reverse_reverse, endsAll_append, endsAll_letters,
    List.append_nil]
  by_cases h : ['{', '{'] <+: cursor.rest <;> simp [h]

/-- **The three searches.** The pattern of a placeholder finds what the searches for `{{`, for
    the symbol and for `}}` find. -/
theorem find_placeholder (symbol before rest : List Char) :
    (placeholder symbol).find before rest = placeholderSpan? symbol rest := by
  have hclose : Cursor.Settled fun cursor =>
      (endsAll (gap :: letters ['}', '}'] ++ []) cursor).head? := settled_gap _ _ settled_nil
  have hinner := (settled_gap symbol _ hclose).skip 2
  rw [find_of_head? (head?_ends_placeholder symbol) hinner]
  -- What is left is to count positions from the start of the text, not from each cursor.
  simp only [head?_endsAll_gap _ _ hclose, head?_endsAll_gap _ _ settled_nil]
  simp only [placeholderSpan?, endsAll, Cursor.skip_skip, Cursor.skip_rest,
    List.drop_drop, List.length_drop, List.length_cons, List.length_nil, List.head?_cons,
    Option.bind_eq_bind, Option.pure_def, Option.map_bind, Function.comp_def, Option.map_some,
    Nat.add_assoc]
  refine Option.bind_congr fun a ha => Option.bind_congr fun b hb =>
    Option.bind_congr fun c hc => ?_
  have ha := indexOf?_bound ha
  have hb := indexOf?_bound hb
  have hc := indexOf?_bound hc
  simp only [List.length_drop, List.length_cons, List.length_nil] at ha hb hc
  simp only [Option.some.injEq, Span.mk.injEq, true_and]
  omega

end Pattern

/-- The three searches find the first `{{`, the first symbol behind it and the first `}}` behind
    that. -/
theorem placeholderSpan?_eq_some_iff (symbol text : List Char) (start i e : Nat) :
    (placeholderSpan? symbol (text.drop start)).map (·.shift start) = some ⟨i, e⟩ ↔
      ∃ j k, IsLeast {p | start ≤ p ∧ OccursAt ['{', '{'] text p} i ∧
        IsLeast {p | i + 2 ≤ p ∧ OccursAt symbol text p} j ∧
        IsLeast {p | j + symbol.length ≤ p ∧ OccursAt ['}', '}'] text p} k ∧ e = k + 2 := by
  simp only [placeholderSpan?, Option.bind_eq_bind, Option.pure_def, Option.map_eq_some_iff,
    Option.bind_eq_some_iff, Option.some.injEq, List.drop_drop, Span.shift]
  constructor
  · rintro ⟨-, ⟨a, ha, b, hb, c, hc, rfl⟩, hspan⟩
    obtain ⟨rfl, rfl⟩ := Span.mk.inj hspan
    -- Each search starts inside the text, so its offset is a position of the text.
    have halen := indexOf?_bound ha
    have hblen := indexOf?_bound hb
    simp only [List.length_drop, List.length_cons, List.length_nil] at halen hblen
    have hi := (indexOf?_drop_eq_some_iff (by omega)).mp ha
    have hj := (indexOf?_drop_eq_some_iff (by omega)).mp hb
    have hk := (indexOf?_drop_eq_some_iff (by omega)).mp hc
    refine ⟨start + (a + 2) + b, start + (a + 2) + (b + symbol.length) + c, ?_, ?_, ?_, ?_⟩
    · rwa [Nat.add_comm a start]
    · rwa [show a + start + 2 = start + (a + 2) by omega]
    · rwa [show start + (a + 2) + b + symbol.length = start + (a + 2) + (b + symbol.length) by omega]
    · simp only
      omega
  · rintro ⟨j, k, hi, hj, hk, rfl⟩
    obtain ⟨a, rfl⟩ := Nat.exists_eq_add_of_le hi.1.1
    obtain ⟨b, rfl⟩ := Nat.exists_eq_add_of_le hj.1.1
    obtain ⟨c, rfl⟩ := Nat.exists_eq_add_of_le hk.1.1
    have hilen : start + a + 2 ≤ text.length := hi.1.2.add_length_le
    have hjlen : start + a + 2 + b + symbol.length ≤ text.length := hj.1.2.add_length_le
    have ha := (indexOf?_drop_eq_some_iff (by omega)).mpr hi
    have hb := (indexOf?_drop_eq_some_iff hilen).mpr hj
    have hc := (indexOf?_drop_eq_some_iff hjlen).mpr hk
    refine ⟨_, ⟨a, ha, b, ?_, c, ?_, rfl⟩, ?_⟩
    · rwa [show start + (a + 2) = start + a + 2 by omega]
    · rwa [show start + (a + 2) + (b + symbol.length) = start + a + 2 + b + symbol.length by omega]
    · simp only [Span.mk.injEq]
      omega

/-- **Placeholders.** The regular expression of a symbol that is not too long is one that can be
    read, and what it finds is what the library's needle finds: the first `{{` not before the
    start, up to the end of the first `}}` behind the first symbol behind it. If the first `{{`
    has no symbol and `}}` behind it, nothing is found, not from a later `{{` either. -/
theorem placeholder?_spec {symbol : List Char} {needle : Needle}
    (hneedle : Needle.placeholder? symbol = .ok needle) :
    (∃ pattern, Pattern.read? (placeholderSource symbol) = some pattern ∧
      ∀ text start, (Needle.pattern pattern).findAt text start = needle.findAt text start) ∧
    (∀ text start i e, needle.findAt text start = some ⟨i, e⟩ ↔
      ∃ j k, IsLeast {p | start ≤ p ∧ OccursAt ['{', '{'] text p} i ∧
        IsLeast {p | i + 2 ≤ p ∧ OccursAt symbol text p} j ∧
        IsLeast {p | j + symbol.length ≤ p ∧ OccursAt ['}', '}'] text p} k ∧ e = k + 2) ∧
    ∀ text start i, IsLeast {p | start ≤ p ∧ OccursAt ['{', '{'] text p} i →
      (¬ ∃ j k, i + 2 ≤ j ∧ OccursAt symbol text j ∧
        j + symbol.length ≤ k ∧ OccursAt ['}', '}'] text k) →
      needle.findAt text start = none := by
  have hdef : needle = Needle.placeholder symbol := by
    rw [Needle.placeholder?] at hneedle
    split at hneedle
    · exact (Except.ok.inj hneedle).symm
    · exact absurd hneedle (by simp)
  subst hdef
  refine ⟨⟨Pattern.placeholder symbol, Pattern.read?_placeholderSource symbol, ?_⟩,
    placeholderSpan?_eq_some_iff symbol, ?_⟩
  · exact fun text start => congrArg (Option.map _) (Pattern.find_placeholder ..)
  · intro text start i hi hopen
    refine Option.eq_none_iff_forall_ne_some.mpr fun span hspan => hopen ?_
    obtain ⟨j, k, hi', hj, hk, -⟩ :=
      (placeholderSpan?_eq_some_iff symbol text start span.start span.stop).mp hspan
    rw [hi'.unique hi] at hj
    exact ⟨j, k, hj.1.1, hj.1.2, hk.1.1, hk.1.2⟩

/-- The symbol `}}` is found in `{{}}}}`, although the first `}}` could be taken for the end. -/
theorem placeholder?_spec_braces :
    Needle.placeholder? ['}', '}'] = .ok (.placeholder ['}', '}']) ∧
      ∃ pattern, Pattern.read? (placeholderSource ['}', '}']) = some pattern ∧
        (Needle.pattern pattern).findAt ['a', '{', '{', '}', '}', '}', '}', 'b'] 0 =
          some ⟨1, 7⟩ := by
  have hneedle : Needle.placeholder? ['}', '}'] = .ok (.placeholder ['}', '}']) := rfl
  obtain ⟨⟨pattern, hread, hfind⟩, -⟩ := placeholder?_spec hneedle
  exact ⟨hneedle, pattern, hread, (hfind _ _).trans (by decide)⟩

end PageLoom
