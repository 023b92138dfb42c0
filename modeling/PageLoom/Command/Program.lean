import PageLoom.Command.Arguments

namespace PageLoom

/-!
# The program

* `CommandCall.action` — what a call does;
* `Outcome`, `runProgram` — what the program leaves behind and prints.
-/

/-- What a call of a command does. -/
def CommandCall.action (tools : BuildSettings → Toolchain) (configPath : Path) :
    CommandCall → Action CommandError Unit
  | .init overwrite => runInit configPath overwrite
  | .build overrides => runBuild tools configPath overrides

/-- What the program leaves behind: the disk, its exit code, the events that it tells or the
    text that it prints, and the report of a failure. -/
structure Outcome where
  disk : Disk
  exitCode : Nat
  events : List Event
  printed : String
  report : String

/-- Runs the program on a disk. -/
def runProgram (tools : BuildSettings → Toolchain) (disk : Disk) (args : List String) : Outcome :=
  match readArguments args with
  | .refused =>
    { disk, exitCode := 2, events := [], printed := "", report := Scope.top.helpText }
  | .print text => { disk, exitCode := 0, events := [], printed := text, report := "" }
  | .run call configPath verbose =>
    let told (session : Session) := session.log.filter (·.isShown verbose)
    match (call.action tools configPath).run ⟨disk, []⟩ with
    | .ok () session =>
      { disk := session.disk, exitCode := 0, events := told session, printed := "", report := "" }
    | .error e session =>
      { disk := session.disk, exitCode := 1, events := told session, printed := ""
        report := e.report }

end PageLoom
