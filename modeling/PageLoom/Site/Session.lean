import PageLoom.Disk.Files
import PageLoom.Site.Event

namespace PageLoom

/-!
# Sessions

A session is a disk that is being worked on, with the log of what was done. An action works on
a session and may fail. What it did before it failed stays done.

* `Session`, `Action` — sessions, and what works on them;
* `Action.tell` — an entry in the log;
* `Action.look`, `Action.change`, `Action.makeDirs` — operations on the disk.
-/

/-- A disk that is being worked on, and the events so far, the first one first. -/
structure Session where
  disk : Disk
  log : List Event

/-- Work on a session that fails with an error of type `ε`. -/
abbrev Action (ε : Type) : Type → Type :=
  EStateM ε Session

namespace Action

variable {ε : Type}

/-- Adds an event to the log. -/
def tell (event : Event) : Action ε Unit :=
  modify fun session => { session with log := session.log ++ [event] }

/-- Reads something off the disk. -/
def look {δ α : Type} (onError : δ → ε) (read : Disk → Except δ α) : Action ε α := do
  match read (← get).disk with
  | .ok value => return value
  | .error e => throw (onError e)

/-- Changes the disk, unless that fails. -/
def change (onError : IoError → ε) (step : Disk → Except IoError Disk) : Action ε Unit := do
  let disk ← look onError step
  modify fun session => { session with disk }

/-- Makes a directory and the missing ones that lead to it. -/
def makeDirs (onError : IoError → ε) (path : Path) : Action ε Unit := do
  let (result, disk) := (← get).disk.makeDirs path
  modify fun session => { session with disk }
  match result with
  | .ok () => return ()
  | .error e => throw (onError e)

/-- Writes a file after making the directories that lead to it. -/
def writeFile (onError : IoError → ε) (path : Path) (text : String) : Action ε Unit := do
  if let some parent := path.parent? then
    makeDirs onError parent
  change onError (·.write path text.toUTF8)

end Action

end PageLoom
