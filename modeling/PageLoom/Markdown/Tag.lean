import PageLoom.Markdown.Source
import PageLoom.Text.Search

namespace PageLoom.Markdown

/-!
# Tags of HTML in Markdown

* `afterTag?`, `afterInlineHtml?` — a tag, or another construct of HTML, within a text;
* `HtmlBlockEnd`, `htmlBlockEnd?`, `startsHtmlBlock` — the lines that start blocks of HTML.
-/

/-- The character may stand in a tag name after the first one. -/
private def isTagNameChar (c : Char) : Bool :=
  c.isAlphanum || c = '-'

/-- The character may start an attribute name. -/
private def isAttributeStart (c : Char) : Bool :=
  c.isAlpha || c = '_' || c = ':'

/-- The character may stand in an attribute name after the first one. -/
private def isAttributeChar (c : Char) : Bool :=
  isAttributeStart c || c.isDigit || c = '.' || c = '-'

/-- The character may stand in an attribute value without quotes. -/
private def isBareValueChar (c : Char) : Bool :=
  !(c = '\'' || c = '"' || c = ' ' || c = '=' || c = '>' || c = '<' || c = '\x60' || c = '\n')

/-- The text after blanks, which may end lines if `lines` is set. -/
private def skipBlanks (lines : Bool) (text : List Char) : List Char :=
  text.dropWhile fun c => isInlineBlank c || (lines && c = '\n')

/-- The text after an attribute value. -/
private def afterValue? (lines : Bool) : List Char → Option (List Char)
  | [] => none
  | c :: text =>
    if c = '"' || c = '\'' then
      let value := text.takeWhile (· ≠ c)
      if !lines && value.contains '\n' then none
      else
        match text.drop value.length with
        | _ :: rest => some rest
        | [] => none
    else if isBareValueChar c then some (text.dropWhile isBareValueChar)
    else none

/-- The text after an attribute, with or without a value. -/
private def afterAttribute? (lines : Bool) : List Char → Option (List Char)
  | [] => none
  | c :: text =>
    if !isAttributeStart c then none
    else
      let rest := text.dropWhile isAttributeChar
      match skipBlanks lines rest with
      | '=' :: value => afterValue? lines (skipBlanks lines value)
      | _ => some rest

/-- The text after the attributes and the end of an opening tag, of at most `room`
    attributes. -/
private def afterAttributes? (lines : Bool) : (room : Nat) → List Char → Option (List Char)
  | 0, _ => none
  | room + 1, text =>
    match skipBlanks lines text with
    | '>' :: rest => some rest
    | '/' :: '>' :: rest => some rest
    | start =>
      if start.length = text.length then none
      else (afterAttribute? lines start).bind (afterAttributes? lines room)

/-- The text after a tag whose `<` was read. With `lines` blanks in an opening tag may end
    lines. -/
def afterTag? (lines : Bool) (text : List Char) : Option (List Char) :=
  match text with
  | '/' :: c :: rest =>
    if !c.isAlpha then none
    else
      match skipBlanks false (rest.dropWhile isTagNameChar) with
      | '>' :: after => some after
      | _ => none
  | c :: rest =>
    if !c.isAlpha then none
    else afterAttributes? lines (rest.length + 1) (rest.dropWhile isTagNameChar)
  | [] => none

/-- The text after the first occurrence of a word. -/
private def afterWord? (word text : List Char) : Option (List Char) :=
  (indexOf? word text).map fun start => text.drop (start + word.length)

/-- The text after a tag, a comment, an instruction, a declaration or character data whose `<`
    was read. -/
def afterInlineHtml? (text : List Char) : Option (List Char) :=
  match text with
  | '?' :: rest => afterWord? "?>".toList rest
  | '!' :: '-' :: '-' :: rest =>
    match rest with
    | '>' :: after => some after
    | '-' :: '>' :: after => some after
    | _ => afterWord? "-->".toList rest
  | '!' :: rest =>
    if "[CDATA[".toList.isPrefixOf rest then afterWord? "]]>".toList rest
    else if rest.head?.any Char.isAlpha then afterWord? ['>'] rest
    else none
  | _ => afterTag? true text

/-! ### Blocks of HTML -/

/-- What ends a block of HTML: a line that holds a text, or the line before a blank one. -/
inductive HtmlBlockEnd where
  | at (text : List Char)
  | beforeBlank
  deriving DecidableEq, Repr

/-- The elements whose content is kept until their closing tag. -/
private def verbatimElements : List String :=
  ["pre", "style", "script", "textarea"]

/-- The elements whose tags start a block of HTML. -/
private def blockElements : List String :=
  ["address", "article", "aside", "base", "basefont", "blockquote", "body", "caption", "center",
   "col", "colgroup", "dd", "details", "dialog", "dir", "div", "dl", "dt", "fieldset",
   "figcaption", "figure", "footer", "form", "frame", "frameset", "h1", "h2", "h3", "h4", "h5",
   "h6", "head", "header", "hr", "html", "iframe", "legend", "li", "link", "main", "menu",
   "menuitem", "nav", "noframes", "ol", "optgroup", "option", "p", "param", "search", "section",
   "summary", "table", "tbody", "td", "tfoot", "th", "thead", "title", "tr", "track", "ul"]

/-- The text starts with a word, in capital or small letters, and a blank, `>` or its end
    follows. -/
private def startsWithElement (text : List Char) (name : String) : Bool :=
  (text.take name.length).map Char.toLower = name.toList &&
    (text.drop name.length).head?.all fun c => isInlineBlank c || c = '>'

/-- What ends the block of HTML with the content of one element, a comment, an instruction, a
    declaration or character data. The `<` was read. -/
def closedBlockEnd? (text : List Char) : Option (List Char) :=
  match verbatimElements.find? (startsWithElement text) with
  | some name => some ("</" ++ name ++ ">").toList
  | none =>
    if "!--".toList.isPrefixOf text then some "-->".toList
    else if text.head? = some '?' then some "?>".toList
    else if "![CDATA[".toList.isPrefixOf text then some "]]>".toList
    else
      match text with
      | '!' :: c :: _ => if c.isAlpha then some ['>'] else none
      | _ => none

/-- The line starts with the tag of a block element. The `<` was read. -/
def startsBlockElement (text : List Char) : Bool :=
  let tag := if text.head? = some '/' then text.drop 1 else text
  let name := tag.takeWhile Char.isAlphanum
  let after := tag.drop name.length
  blockElements.contains (String.ofList (name.map Char.toLower)) &&
    (after.head?.all (fun c => isSpaceOrTab c || c = '>') || ['/', '>'].isPrefixOf after)

/-- What ends the block of HTML that a line starts, if it starts one. Any tag that stands
    alone on its line starts one. -/
def htmlBlockEnd? : List Char → Option HtmlBlockEnd
  | '<' :: text =>
    match closedBlockEnd? text with
    | some ending => some (.at ending)
    | none =>
      if startsBlockElement text then some .beforeBlank
      else if (afterTag? false text).any isBlankLine then some .beforeBlank
      else none
  | _ => none

/-- The line starts a block of HTML even within a paragraph. -/
def startsHtmlBlock : List Char → Bool
  | '<' :: text => (closedBlockEnd? text).isSome || startsBlockElement text
  | _ => false

end PageLoom.Markdown
