import PageLoom.Disk.Files
import PageLoom.Style.Sheet

namespace PageLoom.Style

/-!
# Bundles

A bundle is one stylesheet made of an entry and all that it takes in, at any depth. A sheet
that is taken in more than once stands where the last import puts it, because later rules win.

* `StyleError` — why a bundle cannot be made;
* `loadMembers` — the sheets of a bundle;
* `lastRequests`, `placeRules` — where the rules of each sheet stand;
* `compileStylesheet` — the text of a bundle.
-/

/-- Why a bundle cannot be made: a sheet cannot be read, which is told of the import that asks
    for it, or has a fault. -/
inductive StyleError where
  | read (cause : IoError) (asker : Option (Path × Position))
  | faulty (fault : Fault) (path : Path) (place : Position)
  deriving DecidableEq, Repr

/-- The text of an error. -/
def StyleError.message (error : StyleError) : String :=
  let located (path : Path) (place : Position) :=
    " at " ++ path.text ++ ":" ++ toString place.line ++ ":" ++ toString place.column
  "CSS parse error: " ++
    match error with
    | .read cause none => cause.message
    | .read cause (some (path, place)) => cause.message ++ located path place
    | .faulty fault path place => fault.message ++ located path place

/-! ### Members -/

/-- What two paths of one sheet share: the way that they take, but for steps that stay. -/
abbrev Key := Bool × List Step

/-- The key of a path. -/
def keyOf (path : Path) : Key :=
  (path.isAbsolute, path.steps.filter (· ≠ .stay))

/-- The path of a sheet that is asked for by the sheet at another path. -/
def siblingOf (path : Path) (target : String) : Path :=
  (path.parent?.getD ⟨""⟩).join target

/-- A sheet of a bundle with the path that it was read from. -/
structure Member where
  path : Path
  sheet : Sheet
  deriving DecidableEq, Repr

/-- The keys of the sheets that a member takes in, in their order. -/
def Member.requests (member : Member) : List Key :=
  member.sheet.imports.map fun request => keyOf (siblingOf member.path request.target)

/-- The member with a key. -/
def member? (members : List Member) (key : Key) : Option Member :=
  members.find? fun member => keyOf member.path = key

/-- Adds the sheet at a path and all that it takes in, down to a depth. -/
private def addMembers (disk : Disk) : Nat → List Member → Path → Option (Path × Position) →
    Except StyleError (List Member)
  | 0, members, _, _ => return members
  | depth + 1, members, path, asker => do
    if (member? members (keyOf path)).isSome then return members
    let text ← (disk.readText path).mapError (.read · asker)
    let sheet ← (Sheet.read text).mapError fun (fault, place) => .faulty fault path place
    sheet.imports.foldlM
      (fun members request =>
        addMembers disk depth members (siblingOf path request.target)
          (some (path, request.place)))
      (members ++ [⟨path, sheet⟩])

/-- The longest text of a path that leads anywhere. -/
private def longestPath : Nat := 4096

/-- The entry and all that it takes in. Along a chain of imports the directory part of the
    paths grows or stays, so no chain of sheets that can be read is longer than the number of
    files times the length of a path. -/
def loadMembers (disk : Disk) (entry : Path) : Except StyleError (List Member) :=
  addMembers disk ((disk.nodes.length + 1) * longestPath) [] entry none

/-- A sheet that takes in nothing is the whole bundle. -/
theorem loadMembers_of_noImports {disk : Disk} {entry : Path} {text : String} {sheet : Sheet}
    (hread : disk.readText entry = .ok text) (hsheet : Sheet.read text = .ok sheet)
    (himports : sheet.imports = []) : loadMembers disk entry = .ok [⟨entry, sheet⟩] := by
  obtain ⟨depth, hdepth⟩ : ∃ depth, (disk.nodes.length + 1) * longestPath = depth + 1 :=
    Nat.exists_eq_add_one.mpr (Nat.mul_pos (Nat.succ_pos _) (by decide))
  rw [loadMembers, hdepth, addMembers, hread]
  show Except.bind ((Sheet.read text).mapError
    fun (fault, place) => StyleError.faulty fault entry place) _ = _
  rw [hsheet]
  show sheet.imports.foldlM _ _ = _
  rw [himports]
  rfl

/-! ### Order -/

/-- An import: the key of the sheet that asks, and the number of the import in it. -/
abbrev Request := Key × Nat

/-- Walks through the imports of a sheet and of all that it takes in, each sheet once, and
    puts the imports met in front of those met before. -/
private def walkRequests (members : List Member) :
    Nat → List Key × List (Key × Request) → Key → List Key × List (Key × Request)
  | 0, state, _ => state
  | depth + 1, (seen, met), key =>
    if seen.contains key then (seen, met)
    else
      match member? members key with
      | none => (seen, met)
      | some member =>
        member.requests.zipIdx.foldl
          (fun (seen, met) (target, number) =>
            walkRequests members depth (seen, (target, key, number) :: met) target)
          (key :: seen, met)

/-- The last import of each sheet, in front of the others. -/
def lastRequests (members : List Member) (entry : Key) : List (Key × Request) :=
  (walkRequests members (members.length + 1) ([], []) entry).2

/-- Puts the rules of a sheet after those of the sheets that it takes in with their last
    import. The first part of the state names the sheets whose rules have been used. -/
private def addRules (members : List Member) (last : List (Key × Request)) :
    Nat → List Key × List Rule → Key → List Key × List Rule
  | 0, state, _ => state
  | depth + 1, (used, rules), key =>
    if used.contains key then (used, rules)
    else
      match member? members key with
      | none => (used, rules)
      | some member =>
        let (used, rules) := member.requests.zipIdx.foldl
          (fun state (target, number) =>
            if last.lookup target = some (key, number) then
              addRules members last depth state target
            else state)
          (key :: used, rules)
        (used, rules ++ member.sheet.rules)

/-- The rules of a bundle in their order. -/
def placeRules (members : List Member) (entry : Key) : List Rule :=
  (addRules members (lastRequests members entry) (members.length + 1) ([], []) entry).2

/-- The text of the bundle of an entry. -/
def compileStylesheet (minify : Bool) (disk : Disk) (entry : Path) : Except StyleError String := do
  let members ← loadMembers disk entry
  return rulesText minify (placeRules members (keyOf entry))

end PageLoom.Style
