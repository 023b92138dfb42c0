namespace PageLoom

/-!
# Paths

A path is kept as it was written, and shown so. What it names is read off its segments, the
pieces between slashes: an empty segment or a `.` inside a path says nothing, a first empty
segment means the root, and a first `.` stands for the directory that the path starts in.

* `Path` — a written path;
* `Path.join` — a path continued by another one;
* `Path.fileName?`, `Path.parent?`, `Path.extension?` — parts of a path;
* `Step`, `Path.steps` — the way that a path takes through a tree of directories.
-/

/-- A path as it is written. -/
structure Path where
  text : String
  deriving DecidableEq, Repr, Inhabited

/-- The pieces of a text between slashes. -/
def segments : List Char → List (List Char)
  | [] => [[]]
  | c :: rest =>
    if c = '/' then [] :: segments rest
    else
      match segments rest with
      | [] => [[c]]
      | first :: more => (c :: first) :: more

/-- One step of a way through directories. -/
inductive Step where
  | stay
  | up
  | down (name : String)
  deriving DecidableEq, Repr

namespace Path

/-- The path starts at the root. -/
def isAbsolute (path : Path) : Bool :=
  path.text.toList.head? = some '/'

/-- The path continued by another one. An absolute path stands for itself. -/
def join (path : Path) (tail : String) : Path :=
  if tail.toList.head? = some '/' then ⟨tail⟩
  else if path.text.isEmpty || path.text.toList.getLast? = some '/' then ⟨path.text ++ tail⟩
  else ⟨path.text ++ "/" ++ tail⟩

/-- A segment that names nothing. -/
def isSilent (segment : List Char) : Bool :=
  segment = [] || segment = ['.']

/-- The segments without the silent ones at the end. The first segment is never dropped. -/
def trimSegments : List (List Char) → List (List Char)
  | [] => []
  | first :: more => first :: (more.reverse.dropWhile isSilent).reverse

/-- The segments put together with slashes. -/
def ofSegments (parts : List (List Char)) : Path :=
  ⟨String.ofList (['/'].intercalate parts)⟩

/-- The last segment that names something, unless that is the root, `.` or `..`. -/
def fileName? (path : Path) : Option String :=
  match (trimSegments (segments path.text.toList)).getLast? with
  | some name => if isSilent name || name = ['.', '.'] then none else some (String.ofList name)
  | none => none

/-- The path without its last segment. The root and the empty path have no parent. -/
def parent? (path : Path) : Option Path :=
  let parts := trimSegments (segments path.text.toList)
  if parts = [[]] then none
  else
    match trimSegments parts.dropLast with
    | [[]] => some ⟨"/"⟩
    | parts => some (ofSegments parts)

/-- What follows the last dot of the file name, unless the name's only dot is its first
    character. -/
def extension? (path : Path) : Option String := do
  let name ← path.fileName?
  let reversed := name.toList.reverse
  let tail := reversed.takeWhile (· ≠ '.')
  match reversed.dropWhile (· ≠ '.') with
  | '.' :: _ :: _ => some (String.ofList tail.reverse)
  | _ => none

/-- The steps that the segments after the start of a path take. A slash at the end asks to
    stay, which only a directory allows. -/
def stepsOf : List (List Char) → List Step
  | [] => []
  | [[]] => [.stay]
  | part :: more =>
    if part = [] then stepsOf more
    else if part = ['.'] then .stay :: stepsOf more
    else if part = ['.', '.'] then .up :: stepsOf more
    else .down (String.ofList part) :: stepsOf more

/-- The way of a path, from the root if the path is absolute. -/
def steps (path : Path) : List Step :=
  stepsOf (segments path.text.toList)

/-- The path ends with a slash. -/
def endsInSlash (path : Path) : Bool :=
  path.text.toList.getLast? = some '/'

/-- The path without the slashes at its end. Of a path of slashes one stays. -/
def withoutSlashes (path : Path) : Path :=
  match path.text.toList.reverse.dropWhile (· = '/') with
  | [] => if path.isAbsolute then ⟨"/"⟩ else path
  | kept => ⟨String.ofList kept.reverse⟩

end Path

end PageLoom
