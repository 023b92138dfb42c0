import PageLoom.Splice.Needle
import PageLoom.Text.Offset
import PageLoom.Text.Search

namespace PageLoom

/-!
# Placeholders as needles

A placeholder is `{{`, any text, a symbol, any text, `}}`. It is found by three searches, each
going on where the one before ended: the first `{{`, the first symbol after it and the first
`}}` after that. If one of them fails nothing matches, also from a later `{{`.

* `Needle.placeholder` — the needle of a symbol;
* `placeholderSource` — the same as a regular expression;
* `Symbol.fits` — the symbols short enough to be compiled.
-/

/-- The three searches for a placeholder. -/
def placeholderSpan? (symbol rest : List Char) : Option Span := do
  let opening ← indexOf? ['{', '{'] rest
  let inner := rest.drop (opening + 2)
  let found ← indexOf? symbol inner
  let closing ← indexOf? ['}', '}'] (inner.drop (found + symbol.length))
  return ⟨opening, opening + 2 + (found + symbol.length) + (closing + 2)⟩

/-- The placeholder of a symbol: the first `{{` that there is, up to the first `}}` after the
    first symbol after it. -/
def Needle.placeholder (symbol : List Char) : Needle where
  find _ rest := placeholderSpan? symbol rest
  inside {_ rest span} h := by
    simp only [placeholderSpan?, Option.bind_eq_bind, Option.bind_eq_some_iff, Option.pure_def,
      Option.some.injEq] at h
    obtain ⟨a, ha, b, hb, c, hc, rfl⟩ := h
    have hc := indexOf?_bound hc
    have ha := indexOf?_bound ha
    have hb := indexOf?_bound hb
    simp only [List.length_drop, List.length_cons, List.length_nil] at ha hb hc
    simp only
    omega

/-- The characters with a meaning of their own in a regular expression. -/
def patternSigns : List Char :=
  ['\\', '.', '+', '*', '?', '(', ')', '|', '[', ']', '{', '}', '^', '$', '#', '&', '-', '~']

/-- The text as a regular expression that matches exactly it. -/
def escapePattern (text : List Char) : List Char :=
  text.flatMap fun c => if patternSigns.contains c then ['\\', c] else [c]

/-- The placeholder of a symbol as a regular expression. -/
def placeholderSource (symbol : List Char) : List Char :=
  "(?s)\\\x7b\\\x7b.*?".toList ++ escapePattern symbol ++ ".*?\\\x7d\\\x7d".toList

/-- The room for a compiled pattern, in bytes. -/
def patternRoom : Nat := 10485760

/-- The room that one byte of a symbol takes in a compiled pattern. -/
def roomPerByte : Nat := 32

/-- The symbol is short enough for its pattern to be compiled. -/
def symbolFits (symbol : List Char) : Bool :=
  byteLength symbol * roomPerByte ≤ patternRoom

/-- A symbol was refused because its pattern needs more than the room there is. -/
inductive SymbolError where
  | tooLarge
  deriving DecidableEq, Repr

/-- The text of a refusal. -/
def SymbolError.message : SymbolError → String
  | .tooLarge => s!"Compiled regex exceeds size limit of {patternRoom} bytes."

/-- The needle of a symbol, unless the symbol is too long. -/
def Needle.placeholder? (symbol : List Char) : Except SymbolError Needle :=
  if symbolFits symbol then .ok (.placeholder symbol) else .error .tooLarge

end PageLoom
