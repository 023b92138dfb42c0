import Mathlib.Data.List.Infix
import PageLoom.Layout.Directive
import PageLoom.Proofs.Search
import PageLoom.Proofs.Splice.Matches

namespace PageLoom

/-!
# Directives in the order of placeholders

A directive replaces from the first `{{` that is left, whatever symbol it has. If the directives
are listed in the order of a template's placeholders, each one therefore meets its own placeholder
first, and a template is rendered without one placeholder reaching into the next.

* `Slot`, `slotsText` — the placeholders of a template, each with the text behind it;
* `InOrder` — directives that name the placeholders one after the other;
* `splice_first_placeholder` — what one directive does;
* `applyDirectives_inOrder` — what all of them do.
-/

/-! ### One directive -/

section Directive

variable {symbol first body tail value : List Char}

/-- The first placeholder is found with its own end, if its body has the symbol and no brace that
    closes. -/
theorem placeholderSpan?_first (hfirst : '{' ∉ first) (hbody : '}' ∉ body)
    (hsymbol : symbol <:+: body) :
    placeholderSpan? symbol (first ++ (['{', '{'] ++ (body ++ (['}', '}'] ++ tail)))) =
      some ⟨first.length, first.length + 2 + body.length + 2⟩ := by
  obtain ⟨i, hi, hle⟩ := indexOf?_append_of_infix hsymbol (['}', '}'] ++ tail)
  have hinner : (first ++ (['{', '{'] ++ (body ++ (['}', '}'] ++ tail)))).drop (first.length + 2) =
      body ++ (['}', '}'] ++ tail) := by
    rw [← List.append_assoc]
    exact List.drop_left' (by simp)
  have hclosing : indexOf? ['}', '}'] ((body ++ (['}', '}'] ++ tail)).drop (i + symbol.length)) =
      some (body.length - (i + symbol.length)) := by
    rw [List.drop_append_of_le_length hle, ← List.length_drop]
    exact indexOf?_append_of_not_mem (fun hmem => hbody (List.mem_of_mem_drop hmem)) tail
  have hopening : indexOf? ['{', '{']
      (first ++ (['{', '{'] ++ (body ++ (['}', '}'] ++ tail)))) = some first.length :=
    indexOf?_append_of_not_mem hfirst _
  simp only [placeholderSpan?, hopening, hinner, hi, hclosing, Option.bind_eq_bind,
    Option.bind_some, Option.pure_def, Option.some.injEq, Span.mk.injEq, true_and]
  omega

/-- Where the symbol is not written there is no placeholder of it. -/
theorem placeholderSpan?_eq_none (h : ¬ symbol <:+: tail) : placeholderSpan? symbol tail = none := by
  have hrest : ∀ n, indexOf? symbol (tail.drop n) = none := fun n =>
    indexOf?_eq_none_iff_not_infix.mpr fun hpart => h (hpart.trans (List.drop_suffix n tail).isInfix)
  simp [placeholderSpan?, hrest]

/-- **One directive.** The first placeholder of a text is replaced, and nothing else, if its body
    has the symbol and the text behind it has not. -/
theorem splice_first_placeholder (hfirst : '{' ∉ first) (hbody : '}' ∉ body)
    (hsymbol : symbol <:+: body) (htail : ¬ symbol <:+: tail) :
    splice (.placeholder symbol) value (first ++ (['{', '{'] ++ (body ++ (['}', '}'] ++ tail)))) =
      first ++ (value ++ tail) := by
  have hspan : (Needle.placeholder symbol).find []
      (first ++ (['{', '{'] ++ (body ++ (['}', '}'] ++ tail)))) =
      some ⟨first.length, first.length + 2 + body.length + 2⟩ :=
    placeholderSpan?_first hfirst hbody hsymbol
  have hdrop : (first ++ (['{', '{'] ++ (body ++ (['}', '}'] ++ tail)))).drop
      (first.length + 2 + body.length + 2) = tail := by
    have hsplit : first ++ (['{', '{'] ++ (body ++ (['}', '}'] ++ tail))) =
        (first ++ ['{', '{'] ++ body ++ ['}', '}']) ++ tail := by simp
    rw [hsplit]
    exact List.drop_left' (by simp; omega)
  have hnone : ∀ before, (Needle.placeholder symbol).find before tail = none :=
    fun _ => placeholderSpan?_eq_none htail
  rw [splice, Needle.pieces_of_full hspan (by simp only; omega), hdrop,
    Needle.pieces_of_none (hnone _)]
  simp [Pieces.cons, Pieces.fill]

end Directive

/-! ### Templates -/

/-- A placeholder of a template, and the text behind it up to the next one. -/
structure Slot where
  body : String
  gap : String

/-- The slots of a template as they are written. -/
def slotsText : List Slot → String
  | [] => ""
  | slot :: more => "\x7b\x7b" ++ slot.body ++ "\x7d\x7d" ++ slot.gap ++ slotsText more

/-- The slots with the values of the directives in the place of the placeholders. -/
def slotsRendered : List Slot → List Directive → String
  | slot :: more, directive :: others => directive.value ++ slot.gap ++ slotsRendered more others
  | _, _ => ""

/-- The directives name the placeholders one after the other: the symbol of each one is compiled,
    and written in the body of its placeholder, and nowhere behind it. -/
inductive InOrder : List Slot → List Directive → Prop
  | nil : InOrder [] []
  | cons {slot : Slot} {more : List Slot} {directive : Directive} {others : List Directive}
      {needle : Needle} :
      Needle.placeholder? directive.symbol.toList = .ok needle →
      directive.symbol.toList <:+: slot.body.toList →
      ¬ directive.symbol.toList <:+: (slot.gap ++ slotsText more).toList →
      InOrder more others → InOrder (slot :: more) (directive :: others)

/-- The needle of a symbol that is not too long is its placeholder. -/
theorem eq_placeholder_of_ok {symbol : List Char} {needle : Needle}
    (h : Needle.placeholder? symbol = .ok needle) : needle = .placeholder symbol := by
  rw [Needle.placeholder?] at h
  split at h
  · exact (Except.ok.inj h).symm
  · cases h

/-- The directive that comes first replaces the first placeholder of a template. -/
theorem apply_first {first : String} {slot : Slot} {more : List Slot} {directive : Directive}
    {needle : Needle} (hneedle : Needle.placeholder? directive.symbol.toList = .ok needle)
    (hfirst : '{' ∉ first.toList) (hbody : '}' ∉ slot.body.toList)
    (hsymbol : directive.symbol.toList <:+: slot.body.toList)
    (htail : ¬ directive.symbol.toList <:+: (slot.gap ++ slotsText more).toList) :
    directive.apply (first ++ slotsText (slot :: more)) =
      .ok (first ++ directive.value ++ slot.gap ++ slotsText more) := by
  have htext : (first ++ slotsText (slot :: more)).toList = first.toList ++ (['{', '{'] ++
      (slot.body.toList ++ (['}', '}'] ++ (slot.gap ++ slotsText more).toList))) := by
    simp [slotsText]
  rw [Directive.apply, hneedle, eq_placeholder_of_ok hneedle, htext]
  simp only [bind, Except.bind, pure, Except.pure, Except.ok.injEq]
  rw [splice_first_placeholder hfirst hbody hsymbol htail]
  apply String.toList_inj.mp
  simp

/-- **Templates.** A template is rendered exactly by directives in the order of its placeholders:
    every placeholder gives way to the value of its own directive, and every gap stays. -/
theorem applyDirectives_inOrder {first : String} {slots : List Slot} {directives : List Directive}
    (hfirst : '{' ∉ first.toList) (hgaps : ∀ slot ∈ slots, '{' ∉ slot.gap.toList)
    (hbodies : ∀ slot ∈ slots, '}' ∉ slot.body.toList)
    (hvalues : ∀ directive ∈ directives, '{' ∉ directive.value.toList)
    (horder : InOrder slots directives) :
    applyDirectives (first ++ slotsText slots) directives =
      .ok (first ++ slotsRendered slots directives) := by
  -- What is rendered has no `{{`, so it joins the text in front of the next placeholder.
  induction horder generalizing first with
  | nil => rfl
  | @cons slot more directive others needle hneedle hsymbol htail _ ih =>
    obtain ⟨hgap, hgaps⟩ := List.forall_mem_cons.mp hgaps
    obtain ⟨hbody, hbodies⟩ := List.forall_mem_cons.mp hbodies
    obtain ⟨hvalue, hvalues⟩ := List.forall_mem_cons.mp hvalues
    have hrendered : '{' ∉ (first ++ directive.value ++ slot.gap).toList := by
      simp [hfirst, hvalue, hgap]
    calc applyDirectives (first ++ slotsText (slot :: more)) (directive :: others)
        = applyDirectives (first ++ directive.value ++ slot.gap ++ slotsText more) others := by
          rw [applyDirectives, List.foldlM_cons, apply_first hneedle hfirst hbody hsymbol htail]
          rfl
      _ = .ok (first ++ slotsRendered (slot :: more) (directive :: others)) := by
          rw [ih hrendered hgaps hbodies hvalues]
          simp [slotsRendered, String.append_assoc]

/-- A title and a tagline, both written with blanks around their names, and the tagline's directive
    inserts nothing that could be read as a placeholder. -/
theorem applyDirectives_inOrder_heading :
    applyDirectives "<h1>\x7b\x7b title \x7d\x7d</h1><p>\x7b\x7b tagline \x7d\x7d</p>"
      [⟨"title", "Loom"⟩, ⟨"tagline", "Pages woven"⟩] =
      .ok "<h1>Loom</h1><p>Pages woven</p>" := by
  have horder : InOrder [⟨" title ", "</h1><p>"⟩, ⟨" tagline ", "</p>"⟩]
      [⟨"title", "Loom"⟩, ⟨"tagline", "Pages woven"⟩] :=
    .cons rfl (by decide) (by decide) (.cons rfl (by decide) (by decide) .nil)
  exact @applyDirectives_inOrder "<h1>" _ _ (by decide) (by decide) (by decide) (by decide) horder

end PageLoom
