import PageLoom.Style.Fault

namespace PageLoom.Style

/-!
# Selectors

A selector is a row of simple selectors; where an element is left for another one, a
combinator says how the two are related.

* `SelectorPart` — a simple selector or a combinator;
* `readSelectors` — the selectors of a rule;
* `selectorText` — the text of a selector.
-/

/-- How two elements of a selector are related. -/
inductive Combinator where
  | descendant
  | child
  | next
  | later
  deriving DecidableEq, Repr

/-- A part of a selector. -/
inductive SelectorPart where
  | element (name : String)
  | any
  | classOf (name : String)
  | identity (name : String)
  | pseudoClass (name : String)
  | pseudoElement (name : String)
  | combinator (kind : Combinator)
  deriving DecidableEq, Repr

/-- A selector, part by part. -/
abbrev Selector := List SelectorPart

/-! ### Reading -/

/-- The combinator that a mark stands for. -/
private def combinatorOf? (c : Char) : Option Combinator :=
  match c with
  | '>' => some .child
  | '+' => some .next
  | '~' => some .later
  | _ => none

/-- What has been read of a selector: nothing, a combinator, a simple selector, or a simple
    selector with blanks after it. -/
private inductive Progress where
  | start
  | linked
  | inside
  | spaced
  deriving DecidableEq

/-- The fault of a selector in which no simple selector follows. -/
private def Progress.missing (progress : Progress) : Fault :=
  if progress = .start then .emptySelector else .danglingCombinator

/-- A simple selector put after what has been read. Blanks before it are a combinator. -/
private def Progress.put (progress : Progress) (part : SelectorPart) (rest : Selector) :
    Selector :=
  if progress = .spaced then .combinator .descendant :: part :: rest else part :: rest

/-- Reads a selector that ends at the place `stop`. -/
private def readSelector (stop : Position) : Progress → List Placed → Reading Selector
  | .start, [] => .error (.emptySelector, stop)
  | .linked, [] => .error (.danglingCombinator, stop)
  | .inside, [] => return []
  | .spaced, [] => return []
  | progress, ⟨.mark '.', _⟩ :: ⟨.word name, _⟩ :: rest =>
    return progress.put (.classOf name) (← readSelector stop .inside rest)
  | progress, ⟨.mark ':', _⟩ :: ⟨.mark ':', _⟩ :: ⟨.word name, _⟩ :: rest =>
    return progress.put (.pseudoElement name) (← readSelector stop .inside rest)
  | progress, ⟨.mark ':', _⟩ :: ⟨.word name, _⟩ :: rest =>
    return progress.put (.pseudoClass name) (← readSelector stop .inside rest)
  | progress, ⟨.hash name, _⟩ :: rest =>
    return progress.put (.identity name) (← readSelector stop .inside rest)
  | .inside, ⟨.blank, _⟩ :: rest => readSelector stop .spaced rest
  | progress, ⟨.blank, _⟩ :: rest => readSelector stop progress rest
  | .inside, ⟨.mark c, place⟩ :: rest =>
    match combinatorOf? c with
    | some kind => return .combinator kind :: (← readSelector stop .linked rest)
    | none => unexpected ⟨.mark c, place⟩
  | .inside, here :: _ => unexpected here
  | progress, ⟨.word name, _⟩ :: rest =>
    return progress.put (.element name) (← readSelector stop .inside rest)
  | progress, ⟨.mark c, place⟩ :: rest =>
    if c = '*' then return progress.put .any (← readSelector stop .inside rest)
    else
      match progress, combinatorOf? c with
      | .spaced, some kind => return .combinator kind :: (← readSelector stop .linked rest)
      | _, _ => .error (progress.missing, place)
  | progress, here :: _ => .error (progress.missing, here.place)

/-- The selectors between the commas of a rule's head. -/
def readSelectors (head : List Placed) (stop : Position) : Reading (List Selector) :=
  (splitAtMark ',' stop head).mapM fun (piece, stop) => readSelector stop .start piece

/-! ### Printing -/

/-- The text of a combinator. -/
def Combinator.text (minify : Bool) (kind : Combinator) : String :=
  let spaced (sign : String) := if minify then sign else " " ++ sign ++ " "
  match kind with
  | .descendant => " "
  | .child => spaced ">"
  | .next => spaced "+"
  | .later => spaced "~"

/-- The text of a part of a selector. -/
def SelectorPart.text (minify : Bool) : SelectorPart → String
  | .element name => name
  | .any => "*"
  | .classOf name => "." ++ name
  | .identity name => "#" ++ name
  | .pseudoClass name => ":" ++ name
  | .pseudoElement name => "::" ++ name
  | .combinator kind => kind.text minify

/-- The text of a selector. -/
def selectorText (minify : Bool) (selector : Selector) : String :=
  String.join (selector.map (·.text minify))

end PageLoom.Style
