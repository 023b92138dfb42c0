import PageLoom.Style.Declaration
import PageLoom.Style.Selector

namespace PageLoom.Style

/-!
# Stylesheets

A stylesheet is a list of imports and then a list of rules. A rule gives the elements that
its selectors pick the declarations of its block.

* `Import`, `Rule`, `Sheet` — a stylesheet;
* `Sheet.read` — reads one;
* `rulesText` — the text of rules, with or without the blanks that make it readable.
-/

/-- A rule. -/
structure Rule where
  selectors : List Selector
  declarations : List Declaration
  deriving DecidableEq, Repr

/-- A stylesheet that is taken in, with the place where it is asked for. -/
structure Import where
  target : String
  place : Position
  deriving DecidableEq, Repr

/-- A stylesheet. -/
structure Sheet where
  imports : List Import
  rules : List Rule
  deriving DecidableEq, Repr

/-! ### Reading -/

/-- The tokens of a block up to its closing brace or the end of the text, the place where the
    block ends, and what follows it. The number counts the blocks that are open inside. -/
private def readBlock (stop : Position) :
    Nat → List Placed → List Placed × Position × List Placed
  | _, [] => ([], stop, [])
  | depth, here :: rest =>
    match depth, here.token with
    | 0, .mark '}' => ([], here.place, rest)
    | depth, token =>
      let inner := if token = .mark '{' then depth + 1
        else if token = .mark '}' then depth - 1 else depth
      let (block, last, rest) := readBlock stop inner rest
      (here :: block, last, rest)

/-- The declarations of a block. -/
private def readBody (body : List Placed) (stop : Position) : Reading (List Declaration) :=
  let pieces := (splitAtMark ';' stop body).filter fun (piece, _) => !(skipBlanks piece).isEmpty
  pieces.mapM fun (piece, stop) => readDeclaration piece stop

/-- The target of an import from the tokens after the word. -/
private def readTarget (stop : Position) (tokens : List Placed) : Reading String := do
  let (target, rest) ←
    match skipBlanks tokens with
    | ⟨.quoted text, _⟩ :: rest => pure (text, rest)
    | ⟨.call "url", _⟩ :: ⟨.quoted text, _⟩ :: ⟨.mark ')', _⟩ :: rest => pure (text, rest)
    | here :: _ => unexpected here
    | [] => .error (.endOfInput, stop)
  match skipBlanks rest with
  | [] => return target
  | here :: _ => unexpected here

/-- Reads imports and rules, as many as the first argument allows, in front of those that were
    read already. -/
private def readRules (stop : Position) : Nat → Sheet → List Placed → Reading Sheet
  | 0, sheet, _ => return sheet
  | fuel + 1, sheet, tokens =>
    match skipBlanks tokens with
    | [] => return sheet
    | ⟨.atWord name, place⟩ :: rest => do
      let head := rest.takeWhile (·.token ≠ .mark ';')
      let rest := rest.dropWhile (·.token ≠ .mark ';')
      if name.toLower ≠ "import" then throw (.unknownRule name, place)
      if !sheet.rules.isEmpty then throw (.lateImport, place)
      let target ← readTarget ((rest.head?.map (·.place)).getD stop) head
      let sheet := { sheet with imports := ⟨target, place⟩ :: sheet.imports }
      readRules stop fuel sheet (rest.drop 1)
    | tokens => do
      let head := tokens.takeWhile (·.token ≠ .mark '{')
      match tokens.dropWhile (·.token ≠ .mark '{') with
      | [] =>
        let _ ← readSelectors head stop
        throw (.endOfInput, stop)
      | brace :: rest =>
        let selectors ← readSelectors head brace.place
        let (body, last, rest) := readBlock stop 0 rest
        let declarations ← readBody body last
        let sheet := { sheet with rules := ⟨selectors, declarations⟩ :: sheet.rules }
        readRules stop fuel sheet rest

/-- Reads a stylesheet. -/
def Sheet.read (text : String) : Reading Sheet := do
  let tokens := tokenize text
  let sheet ← readRules (Position.start.after text.toList) tokens.length ⟨[], []⟩ tokens
  return ⟨sheet.imports.reverse, sheet.rules.reverse⟩

/-! ### Printing -/

/-- The declarations of a rule in the order in which they are shown: the important ones last. -/
def Rule.ordered (rule : Rule) : List Declaration :=
  rule.declarations.filter (!·.important) ++ rule.declarations.filter (·.important)

/-- The text of a rule. -/
def Rule.text (minify : Bool) (rule : Rule) : String :=
  let lines := rule.ordered.map (·.text minify)
  let heads := rule.selectors.map (selectorText minify)
  if minify then ",".intercalate heads ++ "\x7b" ++ ";".intercalate lines ++ "\x7d"
  else
    ", ".intercalate heads ++ " \x7b\n" ++
      String.join (lines.map fun line => "  " ++ line ++ ";\n") ++ "\x7d"

/-- The text of rules. -/
def rulesText (minify : Bool) (rules : List Rule) : String :=
  let texts := rules.map (·.text minify)
  if minify then String.join texts else "\n\n".intercalate texts ++ "\n"

end PageLoom.Style
