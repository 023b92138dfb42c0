import PageLoom.Data.Datum

namespace PageLoom

/-!
# TOML tables

A table grows while its document is read. It remembers how it came about, since that decides
how it may grow further: a table that only stands on the way to another one is implicit and may
still be defined, once, and one that came from a dotted key may only grow by dotted keys.

* `Toml.Table`, `Toml.Entry` — tables and what their keys stand for;
* `Toml.Table.modify?` — changes the table at the end of a path;
* `Toml.Table.insert?` — a table with one more value;
* `Toml.Table.datum` — the finished tree.
-/

namespace Toml

mutual

/-- A table: whether it is implicit, whether it came from a dotted key, and its entries in
    order. -/
inductive Table where
  | mk (implicit dotted : Bool) (entries : List (String × Entry))

/-- What a key stands for: a value, a table, or a list of tables. -/
inductive Entry where
  | value (datum : Datum)
  | table (table : Table)
  | tables (tables : List Table)

end

namespace Table

/-- A table that has been defined and has no entries yet. -/
def empty : Table :=
  .mk false false []

/-- The table only stands on the way to another one. -/
def implicit : Table → Bool
  | .mk implicit _ _ => implicit

/-- The table came from a dotted key. -/
def dotted : Table → Bool
  | .mk _ dotted _ => dotted

/-- The entries of a table in order. -/
def entries : Table → List (String × Entry)
  | .mk _ _ entries => entries

/-- The table with other entries. -/
def withEntries (table : Table) (entries : List (String × Entry)) : Table :=
  .mk table.implicit table.dotted entries

/-- The table marked as defined. -/
def define (table : Table) : Table :=
  .mk false false table.entries

/-- What a key stands for in the table. -/
def find? (table : Table) (key : String) : Option Entry :=
  table.entries.lookup key

/-- The table without a key. -/
def erase (table : Table) (key : String) : Table :=
  table.withEntries (table.entries.filter (·.1 ≠ key))

/-- The table with a key set, in its place if it is there and at the end if not. -/
def set (table : Table) (key : String) (entry : Entry) : Table :=
  if table.entries.any (·.1 = key) then
    table.withEntries (table.entries.map fun e => if e.1 = key then (key, entry) else e)
  else table.withEntries (table.entries ++ [(key, entry)])

/-- The table with a change made to the table at the end of a path. Tables on the way are made
    as needed, and the last one counts where the path meets a list of them. A path of dotted
    keys must not enter a table that has been defined. -/
def modify? (table : Table) (dotted : Bool) (change : Table → Option Table) :
    List String → Option Table
  | [] => change table
  | key :: path =>
    match table.find? key with
    | none => do
      let inner ← (Table.mk true dotted []).modify? dotted change path
      return table.set key (.table inner)
    | some (.value _) => none
    | some (.table inner) =>
      if dotted && !inner.implicit then none
      else do
        let inner ← inner.modify? dotted change path
        return table.set key (.table inner)
    | some (.tables tables) =>
      match tables.getLast? with
      | none => none
      | some inner => do
        let inner ← inner.modify? dotted change path
        return table.set key (.tables (tables.dropLast ++ [inner]))

/-- The table with a value at a dotted key. The key must be new, and must not mix with a table
    that came about in another way. -/
def insert? (table : Table) (path : List String) (key : String) (datum : Datum) : Option Table :=
  table.modify? true (fun inner =>
    if inner.dotted == path.isEmpty then none
    else if (inner.find? key).isSome then none
    else some (inner.set key (.value datum))) path

end Table

mutual

/-- The finished tree of a table. -/
def Table.datum : Table → Datum
  | .mk _ _ entries => .map (entryData entries) none

/-- The finished tree of an entry. -/
def Entry.datum : Entry → Datum
  | .value datum => datum
  | .table table => table.datum
  | .tables tables => .list (tableData tables) none

/-- The finished members of a table. -/
def entryData : List (String × Entry) → List (Option String × Datum)
  | [] => []
  | (key, entry) :: rest => (some key, entry.datum) :: entryData rest

/-- The finished items of a list of tables. -/
def tableData : List Table → List Datum
  | [] => []
  | table :: rest => table.datum :: tableData rest

end

end Toml

end PageLoom
