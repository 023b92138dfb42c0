import PageLoom.Splice.Basic
import PageLoom.Splice.Placeholder

namespace PageLoom

/-!
# Replacement directives

A directive puts a value in the place of every placeholder of a symbol. Several directives
work one after the other, each on the result of the one before.

* `Directive.apply` — the text after one directive;
* `applyDirectives` — the text after all of them.
-/

/-- Replaces the placeholders of `symbol` by `value`. -/
structure Directive where
  symbol : String
  value : String
  deriving DecidableEq, Repr

/-- The text with the placeholders of the directive's symbol replaced. -/
def Directive.apply (directive : Directive) (text : String) : Except SymbolError String := do
  let needle ← Needle.placeholder? directive.symbol.toList
  return String.ofList (splice needle directive.value.toList text.toList)

/-- The text after the directives, each applied to the result of the one before. -/
def applyDirectives (text : String) (directives : List Directive) : Except SymbolError String :=
  directives.foldlM (fun text directive => directive.apply text) text

end PageLoom
