import PageLoom.Markdown.Content
import PageLoom.Markdown.Escape
import PageLoom.Markdown.Reader

namespace PageLoom.Markdown

/-!
# Markdown as HTML

* `Output` — HTML written so far;
* `renderInlines`, `renderBlocks` — the HTML of content and of blocks;
* `toHtml` — the HTML of a text.
-/

/-- HTML written so far: the text, whether a new line starts at its end, and the footnotes in
    the order in which they were met, which gives them their numbers. -/
structure Output where
  text : String
  fresh : Bool
  footnotes : List (List Char)

namespace Output

/-- Nothing was written. -/
def empty : Output :=
  ⟨"", true, []⟩

/-- Writes characters. -/
def writeChars (page : Output) (characters : List Char) : Output :=
  match characters.getLast? with
  | none => page
  | some last =>
    { page with text := page.text ++ String.ofList characters, fresh := last = '\n' }

/-- Writes a text. -/
def write (page : Output) (text : String) : Output :=
  page.writeChars text.toList

/-- Characters are put behind what was written before. -/
theorem toList_writeChars (page : Output) (characters : List Char) :
    (page.writeChars characters).text.toList = page.text.toList ++ characters := by
  unfold writeChars
  split
  · rename_i hnone
    rw [List.getLast?_eq_none_iff.mp hnone, List.append_nil]
  · rw [String.toList_append, String.toList_ofList]

/-- A text is put behind what was written before. -/
theorem toList_write (page : Output) (text : String) :
    (page.write text).text.toList = page.text.toList ++ text.toList :=
  page.toList_writeChars text.toList

/-- Starts a new line unless one starts here. -/
def freshLine (page : Output) : Output :=
  if page.fresh then page else page.write "\n"

/-- The number of a footnote, which is the next one if it was not met before. -/
def number (page : Output) (label : List Char) : Nat × Output :=
  match page.footnotes.idxOf? label with
  | some index => (index + 1, page)
  | none =>
    (page.footnotes.length + 1, { page with footnotes := page.footnotes ++ [label] })

end Output

/-- The elements for a text that is set off. -/
private def Emphasis.element : Emphasis → String
  | .plain => "em"
  | .strong => "strong"
  | .struck => "del"

/-- Writes the address of a link and its title. -/
private def writeTarget (page : Output) (target : LinkTarget) : Output :=
  let page := page.writeChars (escapeHref target.destination)
  if target.title.isEmpty then page
  else (page.write "\" title=\"").writeChars (escapeAttribute target.title)

mutual

/-- Writes a piece of content as the text of an image. -/
private def renderPlain (page : Output) : Inline → Output
  | .text characters | .code characters | .html characters =>
    page.writeChars (escapeAttribute characters)
  | .softBreak | .hardBreak => page.write " "
  | .emphasis _ content | .link _ content | .image _ content => renderPlains page content
  | .mail address => page.writeChars (escapeAttribute address)
  | .footnote label =>
    let (number, page) := page.number label
    page.write ("[" ++ toString number ++ "]")

/-- Writes content as the text of an image. -/
private def renderPlains (page : Output) : List Inline → Output
  | [] => page
  | piece :: more => renderPlains (renderPlain page piece) more

end

mutual

/-- Writes a piece of content. -/
def renderInline (page : Output) : Inline → Output
  | .text characters => page.writeChars (escapeText characters)
  | .code characters =>
    ((page.write "<code>").writeChars (escapeText characters)).write "</code>"
  | .html characters => page.writeChars characters
  | .softBreak => page.write "\n"
  | .hardBreak => page.write "<br />\n"
  | .emphasis kind content =>
    let page := page.write ("<" ++ kind.element ++ ">")
    (renderInlines page content).write ("</" ++ kind.element ++ ">")
  | .link target content =>
    let page := (writeTarget (page.write "<a href=\"") target).write "\">"
    (renderInlines page content).write "</a>"
  | .mail address =>
    let page := ((page.write "<a href=\"mailto:").writeChars (escapeHref address)).write "\">"
    (page.writeChars (escapeText address)).write "</a>"
  | .image target content =>
    let page := (page.write "<img src=\"").writeChars (escapeHref target.destination)
    let page := renderPlains (page.write "\" alt=\"") content
    let page :=
      if target.title.isEmpty then page
      else (page.write "\" title=\"").writeChars (escapeAttribute target.title)
    page.write "\" />"
  | .footnote label =>
    let (number, page) := page.number label
    let page := page.write "<sup class=\"footnote-reference\"><a href=\"#"
    (page.writeChars (escapeAttribute label)).write
      ("\">" ++ toString number ++ "</a></sup>")

/-- Writes content. -/
def renderInlines (page : Output) : List Inline → Output
  | [] => page
  | piece :: more => renderInlines (renderInline page piece) more

end

/-! ### Blocks -/

/-- Writes the box of a task. -/
private def writeTask (page : Output) : Option Bool → Output
  | none => page
  | some true => page.write "<input disabled=\"\" type=\"checkbox\" checked=\"\"/>\n"
  | some false => page.write "<input disabled=\"\" type=\"checkbox\"/>\n"

/-- The start of a cell of a table. -/
private def cellStart (element : String) : Alignment → String
  | .unset => "<" ++ element ++ ">"
  | .left => "<" ++ element ++ " style=\"text-align: left\">"
  | .center => "<" ++ element ++ " style=\"text-align: center\">"
  | .right => "<" ++ element ++ " style=\"text-align: right\">"

/-- Writes the cells of a row. -/
private def writeCells (definitions : Definitions) (element : String) (page : Output)
    (row : List (Alignment × List Char)) : Output :=
  row.foldl (fun page (alignment, text) =>
    let page := page.write (cellStart element alignment)
    (renderInlines page (inlinesOf definitions text)).write ("</" ++ element ++ ">")) page

mutual

/-- Writes a block. The paragraphs right within the items of a `tight` list have no element of
    their own. -/
def renderBlock (definitions : Definitions) (tight : Bool) (page : Output) : Block → Output
  | .paragraph task content =>
    let inlines := inlinesOf definitions content
    if tight then renderInlines (writeTask page task) inlines
    else
      (renderInlines (writeTask (page.freshLine.write "<p>") task) inlines).write "</p>\n"
  | .heading level task content =>
    let element := "h" ++ toString level ++ ">"
    let page := writeTask (page.freshLine.write ("<" ++ element)) task
    (renderInlines page (inlinesOf definitions content)).write ("</" ++ element ++ "\n")
  | .rule => page.freshLine.write "<hr />\n"
  | .code info text =>
    let language := (info.getD []).takeWhile (· ≠ ' ')
    let page := page.freshLine.write "<pre><code"
    let page :=
      if language.isEmpty then page.write ">"
      else ((page.write " class=\"language-").writeChars (escapeAttribute language)).write "\">"
    (page.writeChars (escapeText text)).write "</code></pre>\n"
  | .html text => page.writeChars text
  | .quote blocks =>
    let page := page.freshLine.write "<blockquote>\n"
    (renderBlocks definitions false page blocks).write "</blockquote>\n"
  | .list start tight items =>
    let page := page.freshLine
    match start with
    | none => (renderItems definitions tight (page.write "<ul>\n") items).write "</ul>\n"
    | some number =>
      let page :=
        if number = 1 then page.write "<ol>\n"
        else page.write ("<ol start=\"" ++ toString number ++ "\">\n")
      (renderItems definitions tight page items).write "</ol>\n"
  | .footnote label blocks =>
    let page := page.freshLine.write "<div class=\"footnote-definition\" id=\""
    let page := page.writeChars (escapeAttribute label)
    let page := page.write "\"><sup class=\"footnote-definition-label\">"
    let (number, page) := page.number label
    let page := page.write (toString number ++ "</sup>")
    (renderBlocks definitions false page blocks).write "</div>\n"
  | .table alignments head rows =>
    let page := writeCells definitions "th" (page.write "<table><thead><tr>")
      (alignments.zip head)
    let page := page.write "</tr></thead><tbody>\n"
    let page := rows.foldl (fun page row =>
      (writeCells definitions "td" (page.write "<tr>") (alignments.zip row)).write "</tr>\n") page
    page.write "</tbody></table>\n"

/-- Writes blocks. -/
def renderBlocks (definitions : Definitions) (tight : Bool) (page : Output) : List Block → Output
  | [] => page
  | block :: more => renderBlocks definitions tight (renderBlock definitions tight page block) more

/-- Writes the items of a list. -/
def renderItems (definitions : Definitions) (tight : Bool) (page : Output) :
    List (List Block) → Output
  | [] => page
  | item :: more =>
    let page := renderBlocks definitions tight (page.freshLine.write "<li>") item
    renderItems definitions tight (page.write "</li>\n") more

end

/-- The HTML of a Markdown text. -/
def toHtml (text : String) : String :=
  let (blocks, definitions) := blocksOf text.toList
  (renderBlocks definitions false .empty blocks).text

end PageLoom.Markdown
