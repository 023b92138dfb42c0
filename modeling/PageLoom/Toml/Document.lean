import PageLoom.Toml.Value

namespace PageLoom

/-!
# TOML documents

A document is a series of lines, each with a key and a value or with the header of a table.
The lines after a header belong to its table. A table may be defined only once.

* `Toml.Draft` — a document while it is read;
* `Toml.document?` — the tree of a whole text.
-/

namespace Toml

/-- A document while it is read: the tables finished so far, the table that the lines belong
    to, its path, and whether it is one of a list of tables. -/
structure Draft where
  root : Table
  current : Table
  path : List String
  isItem : Bool

namespace Draft

/-- The draft before the first line. -/
def start : Draft :=
  ⟨.empty, .empty, [], false⟩

/-- The document with the current table put in its place. -/
def finish? (draft : Draft) : Option Table :=
  match draft.path.getLast? with
  | none => some draft.current
  | some key =>
    draft.root.modify? false (fun parent =>
      match parent.find? key with
      | none =>
        if draft.isItem then some (parent.set key (.tables [draft.current]))
        else some (parent.set key (.table draft.current))
      | some (.tables tables) =>
        if draft.isItem then some (parent.set key (.tables (tables ++ [draft.current]))) else none
      | some _ => none) draft.path.dropLast

/-- The draft at the header of a table. An implicit table keeps what it has. -/
def openTable? (draft : Draft) (path : List String) (key : String) : Option Draft := do
  let root ← draft.finish?
  let parent ← root.modify? false some path
  let inner? := (← follow? parent path).find? key
  match inner? with
  | none => return ⟨parent, .empty, path ++ [key], false⟩
  | some (.table inner) =>
    if inner.implicit && !inner.dotted then
      let root ← parent.modify? false (fun table => some (table.erase key)) path
      return ⟨root, inner.define, path ++ [key], false⟩
    else none
  | some _ => none
where
  /-- The table at the end of a path. -/
  follow? (table : Table) : List String → Option Table
    | [] => some table
    | key :: path =>
      match table.find? key with
      | some (.table inner) => follow? inner path
      | some (.tables tables) => tables.getLast?.bind fun inner => follow? inner path
      | _ => none

/-- The draft at the header of one of a list of tables. -/
def openItem? (draft : Draft) (path : List String) (key : String) : Option Draft := do
  let root ← draft.finish?
  return ⟨root, .empty, path ++ [key], true⟩

/-- The draft after a key and its value. -/
def insert? (draft : Draft) (path : List String) (key : String) (datum : Datum) : Option Draft := do
  return { draft with current := ← draft.current.insert? path key datum }

end Draft

/-- Reads a header, from after its first bracket to its last one. -/
def header? (draft : Draft) (text : List Char) : Option (Draft × List Char) :=
  match text with
  | '[' :: rest => do
    let (path, key, rest) ← keyPath? rest
    match rest with
    | ']' :: ']' :: rest => return (← draft.openItem? path key, rest)
    | _ => none
  | text => do
    let (path, key, rest) ← keyPath? text
    match rest with
    | ']' :: rest => return (← draft.openTable? path key, rest)
    | _ => none

/-- Reads a key and its value. -/
def pair? (draft : Draft) (text : List Char) : Option (Draft × List Char) := do
  let (path, key, rest) ← keyPath? text
  match rest with
  | '=' :: rest =>
    let rest := skipBlanks rest
    let (datum, rest) ← value? (rest.length + 1) 0 rest
    return (← draft.insert? path key datum, rest)
  | _ => none

/-- Reads the lines of a document. -/
def lines? : (fuel : Nat) → Draft → List Char → Option Draft
  | 0, _, _ => none
  | fuel + 1, draft, text =>
    match skipBlanks text with
    | [] => some draft
    | c :: rest =>
      if c = '#' || c = '\n' || c = '\r' then do
        lines? fuel draft (← lineEnd? (c :: rest))
      else do
        let (draft, rest) ← if c = '[' then header? draft rest else pair? draft (c :: rest)
        lines? fuel draft (← lineEnd? rest)

/-- The tree of a whole text. One byte order mark in front of it is passed over. -/
def document? (text : List Char) : Option Datum := do
  let text :=
    match text with
    | c :: rest => if c = '\uFEFF' then rest else text
    | [] => []
  let draft ← lines? (text.length + 1) .start text
  return (← draft.finish?).datum

end Toml

end PageLoom
