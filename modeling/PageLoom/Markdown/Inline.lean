import PageLoom.Markdown.Block

namespace PageLoom.Markdown

/-!
# Inline content

* `Inline` — a piece of the content of a block;
* `Emphasis` — the three ways to set a text off, and the characters that mark them.
-/

/-- A way to set a text off. -/
inductive Emphasis where
  | plain
  | strong
  | struck
  deriving DecidableEq, Repr

/-- A piece of the content of a block. -/
inductive Inline where
  | text (characters : List Char)
  | code (characters : List Char)
  | html (characters : List Char)
  | softBreak
  | hardBreak
  | emphasis (kind : Emphasis) (content : List Inline)
  | link (target : LinkTarget) (content : List Inline)
  | mail (address : List Char)
  | image (target : LinkTarget) (content : List Inline)
  | footnote (label : List Char)
  deriving Repr

/-- A run of characters that may open or close emphasis. -/
structure DelimiterRun where
  symbol : Char
  length : Nat
  opens : Bool
  closes : Bool
  deriving DecidableEq, Repr

/-- Inline content in which emphasis was not looked for yet. -/
inductive Piece where
  | node (content : Inline)
  | run (run : DelimiterRun)
  deriving Repr

end PageLoom.Markdown
