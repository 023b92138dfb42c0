namespace PageLoom.Markdown

/-!
# Blocks

A Markdown text is a list of blocks. Blocks hold other blocks or the text of their content,
which is taken apart later, when all link targets are known.

* `Alignment`, `Block` — the blocks;
* `LinkTarget` — where a link leads, and `Definitions`, what a text defines by name.
-/

/-- How the cells of a table column are aligned. -/
inductive Alignment where
  | unset
  | left
  | center
  | right
  deriving DecidableEq, Repr

/-- A block. A paragraph may start with a task marker, which is checked or not. A list has a
    number for its first item or none, and is tight unless its items are set apart. -/
inductive Block where
  | paragraph (task : Option Bool) (content : List Char)
  | heading (level : Nat) (task : Option Bool) (content : List Char)
  | rule
  | code (info : Option (List Char)) (text : List Char)
  | html (text : List Char)
  | quote (blocks : List Block)
  | list (start : Option Nat) (tight : Bool) (items : List (List Block))
  | footnote (label : List Char) (blocks : List Block)
  | table (alignments : List Alignment) (head : List (List Char)) (rows : List (List (List Char)))
  deriving Repr

/-- Where a link leads, and its title, which may be empty. -/
structure LinkTarget where
  destination : List Char
  title : List Char
  deriving DecidableEq, Repr

/-- What a text defines by name: link targets under the foldings of their labels, and
    footnotes. -/
structure Definitions where
  links : List (List Char × LinkTarget)
  footnotes : List (List Char)
  deriving DecidableEq, Repr

end PageLoom.Markdown
