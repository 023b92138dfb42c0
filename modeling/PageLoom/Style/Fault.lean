import PageLoom.Style.Token

namespace PageLoom.Style

/-!
# What can be wrong in a stylesheet

* `Fault` — a fault in the text, and `Fault.message`;
* `Reading` — a result, or a fault with the place where it was met.
-/

/-- A fault in the text of a stylesheet. -/
inductive Fault where
  | unexpected (token : Token)
  | endOfInput
  | emptySelector
  | danglingCombinator
  | lateImport
  | unknownRule (name : String)
  deriving DecidableEq, Repr

namespace Fault

/-- The text of a fault. -/
def message : Fault → String
  | .unexpected token => "Unexpected token " ++ token.label
  | .endOfInput => "Unexpected end of input"
  | .emptySelector => "Invalid empty selector"
  | .danglingCombinator => "Invalid dangling combinator in selector"
  | .lateImport =>
    "@import rules must precede all rules aside from @charset and @layer statements"
  | .unknownRule name => "Unknown at rule: @" ++ name

end Fault

/-- The result of reading a part of a stylesheet, or the fault that was met first. -/
abbrev Reading := Except (Fault × Position)

/-- The fault of a token that does not belong where it stands. -/
def unexpected {α : Type} (here : Placed) : Reading α :=
  .error (.unexpected here.token, here.place)

/-- The tokens without the blanks in front. -/
def skipBlanks (tokens : List Placed) : List Placed :=
  tokens.dropWhile (·.token = .blank)

/-- The tokens without the blanks at either end. -/
def trimBlanks (tokens : List Placed) : List Placed :=
  (skipBlanks (skipBlanks tokens).reverse).reverse

/-- The pieces between marks of one kind, each with the place where it ends. -/
def splitAtMark (c : Char) (stop : Position) : List Placed → List (List Placed × Position)
  | [] => [([], stop)]
  | here :: rest =>
    if here.token = .mark c then ([], here.place) :: splitAtMark c stop rest
    else
      match splitAtMark c stop rest with
      | (first, last) :: more => (here :: first, last) :: more
      | [] => [([here], stop)]

end PageLoom.Style
