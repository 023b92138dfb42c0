import PageLoom.Style.Colour
import PageLoom.Style.Fault

namespace PageLoom.Style

/-!
# Declarations

A declaration gives a property a value, a row of tokens. Values are shown in a short form that
means the same: colours as short as they can be, lengths of zero without a unit, and sides
that follow from the others left out.

* `Declaration` — a property with its value;
* `readDeclaration` — reads one declaration;
* `Declaration.text` — its short form.
-/

/-- A property with its value. -/
structure Declaration where
  property : String
  value : List Token
  important : Bool
  deriving DecidableEq, Repr

/-! ### Reading -/

/-- The value without the mark that makes it important, and whether it had one. -/
private def splitImportant (value : List Token) : List Token × Bool :=
  match value.reverse.filter (· ≠ .blank) with
  | .word name :: .mark '!' :: _ =>
    if name.toLower = "important" then
      ((((value.reverse.dropWhile (· ≠ .mark '!')).drop 1).dropWhile (· = .blank)).reverse, true)
    else (value, false)
  | _ => (value, false)

/-- Properties whose names begin with two hyphens keep their case. -/
private def propertyName (name : String) : String :=
  if name.startsWith "--" then name else name.toLower

/-- Reads a declaration that ends at the place `stop`. -/
def readDeclaration (tokens : List Placed) (stop : Position) : Reading Declaration :=
  match skipBlanks tokens with
  | [] => .error (.endOfInput, stop)
  | ⟨.word name, _⟩ :: rest =>
    match skipBlanks rest with
    | ⟨.mark ':', _⟩ :: rest =>
      let (value, important) := splitImportant ((trimBlanks rest).map (·.token))
      if value.isEmpty && !name.startsWith "--" then .error (.endOfInput, stop)
      else return ⟨propertyName name, value, important⟩
    | here :: _ => unexpected here
    | [] => .error (.endOfInput, stop)
  | here :: _ => unexpected here

/-! ### Short forms -/

/-- The units of length. -/
private def lengthUnits : List String :=
  ["px", "em", "rem", "ex", "ch", "vw", "vh", "vmin", "vmax", "cm", "mm", "in", "pt", "pc", "q"]

/-- Properties whose values show colours. -/
private def colourProperties : List String :=
  ["color", "background", "background-color", "border", "border-color", "border-top",
   "border-right", "border-bottom", "border-left", "border-top-color", "border-right-color",
   "border-bottom-color", "border-left-color", "outline", "outline-color", "text-decoration",
   "text-decoration-color", "caret-color", "accent-color", "column-rule", "fill", "stroke",
   "box-shadow", "text-shadow"]

/-- Properties whose values stand for the four sides of a box. -/
private def sideProperties : List String :=
  ["margin", "padding", "inset", "border-width", "border-style", "border-color",
   "scroll-margin", "scroll-padding"]

/-- The words for weights of a font and the numbers that mean the same. -/
private def weightNumbers : List (String × String) :=
  [("normal", "400"), ("bold", "700")]

/-- A string in double quotes. -/
private def quotedText (text : String) : String :=
  "\"" ++ String.join (text.toList.map fun c =>
    if c = '"' then "\\\"" else if c = '\\' then "\\\\" else c.toString) ++ "\""

/-- The text of a token of a value. -/
private def tokenText (minify : Bool) (property : String) (token : Token) : String :=
  let colour (read : Option Colour) (kept : String) :=
    match read with
    | some colour => if colourProperties.contains property then colour.text else kept
    | none => kept
  match token with
  | .blank => " "
  | .word name =>
    if minify && property = "font-weight" then (weightNumbers.lookup name.toLower).getD name
    else colour (Colour.ofName? name) name
  | .call name => name ++ "("
  | .atWord name => "@" ++ name
  | .hash name => colour (Colour.ofHex? name) ("#" ++ name)
  | .quoted text => quotedText text
  | .number value => value.text
  | .percentage value => value.text ++ "%"
  | .dimension value unit =>
    if value.isZero && lengthUnits.contains unit.toLower then "0" else value.text ++ unit
  | .mark c => c.toString

/-- Blanks next to commas dropped, and rows of blanks drawn together. -/
private def squeeze : List Token → List Token
  | [] => []
  | .blank :: rest =>
    match squeeze rest with
    | .blank :: more => .blank :: more
    | .mark ',' :: more => .mark ',' :: more
    | more => .blank :: more
  | .mark ',' :: rest =>
    match squeeze rest with
    | .blank :: more => .mark ',' :: more
    | more => .mark ',' :: more
  | token :: rest => token :: squeeze rest

/-- Sides that follow from the others left out: the left one equals the right one, the bottom
    the top, the right the top. -/
private def shortSides (sides : List String) : List String :=
  match sides with
  | [top, right, bottom, left] =>
    if left ≠ right then sides
    else if bottom ≠ top then [top, right, bottom]
    else if right ≠ top then [top, right]
    else [top]
  | [top, right, bottom] =>
    if bottom ≠ top then sides else if right ≠ top then [top, right] else [top]
  | [top, right] => if right ≠ top then sides else [top]
  | sides => sides

/-- The text of a value. -/
private def valueText (minify : Bool) (property : String) (value : List Token) : String :=
  let tokens := squeeze value
  let isSimple := tokens.all fun token =>
    match token with
    | .blank | .word _ | .hash _ | .number _ | .percentage _ | .dimension _ _ => true
    | _ => false
  if sideProperties.contains property && isSimple then
    " ".intercalate (shortSides ((tokens.filter (· ≠ .blank)).map (tokenText minify property)))
  else
    String.join (tokens.map fun token =>
      if token = .mark ',' && !minify then ", " else tokenText minify property token)

/-- The text of a declaration. -/
def Declaration.text (minify : Bool) (declaration : Declaration) : String :=
  declaration.property ++ (if minify then ":" else ": ") ++
    valueText minify declaration.property declaration.value ++
    (if !declaration.important then "" else if minify then "!important" else " !important")

end PageLoom.Style
