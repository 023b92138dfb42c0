import PageLoom.Data.Datum
import PageLoom.Data.Quoted

namespace PageLoom

/-!
# Shapes of data

A shape says what a tree has to look like to be read as a value. A record may be written as a
map of its fields, in any order and with further members that are passed over, or as a list of
its fields in their declared order.

* `ShapeError`, `Refusal` — why a tree was refused;
* `readText`, `readBool`, `readOptionalBool`, `readList`, `readMap` — simple shapes;
* `Field`, `RecordShape` — the shape of a record;
* `RecordShape.read` — a record read from a tree.
-/

/-- How a well-formed text fails to have the shape that was asked for. -/
inductive ShapeError where
  | wrongType (found expected : String)
  | missing (field : String)
  | duplicate (field : String)
  | wrongLength (length : Nat) (expected : String)
  deriving DecidableEq, Repr

/-- The text of an error. -/
def ShapeError.message : ShapeError → String
  | .wrongType found expected => "invalid type: " ++ found ++ ", expected " ++ expected
  | .missing field => "missing field `" ++ field ++ "`"
  | .duplicate field => "duplicate field `" ++ field ++ "`"
  | .wrongLength length expected =>
    "invalid length " ++ toString length ++ ", expected " ++ expected

/-- Why a tree was refused: the text has a fault, or the tree has another shape. -/
inductive Refusal where
  | fault (fault : Fault)
  | shape (error : ShapeError)
  deriving DecidableEq, Repr

/-- The result of reading a value from a tree. -/
abbrev Reading := Except Refusal

/-- What a tree is called in a message. -/
def Datum.describe : Datum → String
  | .null => "null"
  | .bool value => "boolean `" ++ (if value then "true" else "false") ++ "`"
  | .int value => "integer `" ++ toString value ++ "`"
  | .float shown => "floating point `" ++ shown ++ "`"
  | .text value => "string " ++ quoted value
  | .list _ _ => "sequence"
  | .map _ _ => "map"
  | .broken _ _ => ""

/-- Refuses a tree that is not what was expected. A fault in the text comes first. -/
def refuse {α : Type} (expected : String) : Datum → Reading α
  | .broken fault _ => .error (.fault fault)
  | datum => .error (.shape (.wrongType datum.describe expected))

/-- Succeeds unless there is a fault. -/
def checkFault : Option Fault → Reading Unit
  | none => .ok ()
  | some fault => .error (.fault fault)

/-- Reads a text, called `expected` in messages. -/
def readText (expected : String) : Datum → Reading String
  | .text value => .ok value
  | datum => refuse expected datum

/-- Reads a truth value. -/
def readBool : Datum → Reading Bool
  | .bool value => .ok value
  | datum => refuse "a boolean" datum

/-- Reads a truth value or its explicit absence. -/
def readOptionalBool : Datum → Reading (Option Bool)
  | .null => .ok none
  | datum => some <$> readBool datum

/-- Reads a list of values. -/
def readList {α : Type} (item : Datum → Reading α) : Datum → Reading (List α)
  | .list items fault => do
    let values ← items.mapM item
    checkFault fault
    return values
  | datum => refuse "a sequence" datum

/-- The pairs with the value of a key set. A key that is there keeps its place. -/
def setKey {α : Type} (pairs : List (String × α)) (key : String) (value : α) :
    List (String × α) :=
  if pairs.any (·.1 = key) then
    pairs.map fun pair => if pair.1 = key then (key, value) else pair
  else pairs ++ [(key, value)]

/-- Reads a map with arbitrary keys. Of several members with one key the last one counts. -/
def readMap {α : Type} (item : Datum → Reading α) : Datum → Reading (List (String × α))
  | .map members fault => do
    let pairs ← members.foldlM (fun pairs member => do
      match member.1 with
      | none => throw (.fault .syntaxError)
      | some key => return setKey pairs key (← item member.2)) []
    checkFault fault
    return pairs
  | datum => refuse "a map" datum

/-- A field of a record of type `σ`: its name, whether it must be there, and how a tree sets
    it. -/
structure Field (σ : Type) where
  name : String
  required : Bool
  set : Datum → σ → Reading σ

/-- The shape of a record: its name and its fields in their declared order. -/
structure RecordShape (σ : Type) where
  name : String
  fields : List (Field σ)

namespace RecordShape

variable {σ : Type}

/-- What a list that is too short should have been. -/
def expectedLength (shape : RecordShape σ) : String :=
  let count := shape.fields.length
  shape.name ++ " with " ++ toString count ++ (if count = 1 then " element" else " elements")

/-- Sets the fields named by members, and lists the fields that were set. Members without a
    field are passed over. -/
def setMembers (shape : RecordShape σ) (set : List String) (record : σ) :
    List (Option String × Datum) → Reading (List String × σ)
  | [] => .ok (set, record)
  | (none, _) :: _ => .error (.fault .syntaxError)
  | (some key, datum) :: rest =>
    match shape.fields.find? (·.name = key) with
    | none =>
      match datum.skip? with
      | some fault => .error (.fault fault)
      | none => shape.setMembers set record rest
    | some field =>
      if set.contains key then .error (.shape (.duplicate key))
      else do
        let record ← field.set datum record
        shape.setMembers (key :: set) record rest

/-- Sets fields in order from the items of a list, the first of which has the number `index`,
    and gives back the items that are left. -/
def setItems (shape : RecordShape σ) (fault : Option Fault) (index : Nat) (record : σ) :
    List (Field σ) → List Datum → Reading (σ × List Datum)
  | [], items => .ok (record, items)
  | field :: fields, [] => do
    checkFault fault
    if field.required then throw (.shape (.wrongLength index shape.expectedLength))
    shape.setItems fault (index + 1) record fields []
  | field :: fields, item :: items => do
    let record ← field.set item record
    shape.setItems fault (index + 1) record fields items

/-- Reads a record, starting from one with the defaults of its fields. With `exact` a list must
    not be longer than the record. -/
def read (shape : RecordShape σ) (exact : Bool) (defaults : σ) : Datum → Reading σ
  | .map members fault => do
    let (set, record) ← shape.setMembers [] defaults members
    checkFault fault
    match shape.fields.find? fun field => field.required && !set.contains field.name with
    | some field => throw (.shape (.missing field.name))
    | none => return record
  | .list items fault => do
    let (record, rest) ← shape.setItems fault 0 defaults shape.fields items
    if exact && !rest.isEmpty then throw (.fault .syntaxError)
    checkFault fault
    return record
  | datum => refuse shape.name datum

end RecordShape

end PageLoom
