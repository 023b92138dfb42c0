import PageLoom.Command.Options
import PageLoom.Command.Run

namespace PageLoom

/-!
# Reading the command line

Arguments are read from left to right. An option that takes a value takes it from its own
argument or from the next one; in the latter case the value is looked at when the next option
is met, or at the end.

* `Given` — the options that were given in one place;
* `readOptions` — the options in one place, up to a command or to the end;
* `Invocation`, `readArguments` — what the command line asks for.
-/

/-- The options that were given in one place, and the option that waits for its value or whose
    value was not looked at yet. -/
structure Given where
  settled : List (Opt × String)
  pending : Option (Opt × Option String)
  deriving Repr

/-- Why reading the options ended early: help or the version was asked for, or the options were
    wrong. -/
inductive Halt where
  | help
  | version
  | refused
  deriving DecidableEq, Repr

namespace Given

/-- Nothing was given. -/
def none : Given :=
  ⟨[], Option.none⟩

/-- Adds an option. No option may be given twice, and no value may be empty. -/
def add (given : Given) (opt : Opt) (value : String) : Except Halt Given :=
  if given.settled.any (·.1 = opt) then .error .refused
  else if opt.value?.isSome && value.isEmpty then .error .refused
  else .ok { given with settled := given.settled ++ [(opt, value)] }

/-- Looks at the value of the option that is pending. -/
def settle (given : Given) : Except Halt Given :=
  match given.pending with
  | .none => .ok given
  | some (_, .none) => .error .refused
  | some (opt, some value) => { given with pending := .none }.add opt value

/-- An option waits for its value. -/
def isWaiting (given : Given) : Bool :=
  match given.pending with
  | some (_, .none) => true
  | _ => false

/-- Meets an option that takes no value. -/
def meetSwitch (given : Given) (opt : Opt) : Except Halt Given := do
  let given ← given.settle
  match opt with
  | .help => .error .help
  | .version => .error .version
  | _ => given.add opt ""

/-- Meets an option that takes a value, which may stand in the same argument. -/
def meetSetting (given : Given) (opt : Opt) (value : Option String) : Except Halt Given := do
  let given ← given.settle
  match value with
  | some value => given.add opt value
  | .none => return { given with pending := some (opt, .none) }

/-- The value of an option, if it was given. -/
def value? (given : Given) (opt : Opt) : Option String :=
  given.settled.lookup opt

/-- The option was given. -/
def has (given : Given) (opt : Opt) : Bool :=
  (given.value? opt).isSome

end Given

/-- Meets an argument with two hyphens, `name` or `name=value`. -/
def meetLong (scope : Scope) (given : Given) (text : List Char) : Except Halt Given :=
  let name := String.ofList (text.takeWhile (· ≠ '='))
  let value := match text.dropWhile (· ≠ '=') with
    | [] => none
    | _ :: rest => some (String.ofList rest)
  match scope.options.find? (·.long = name) with
  | none => .error .refused
  | some opt =>
    if opt.value?.isSome then given.meetSetting opt value
    else if value.isSome then .error .refused
    else given.meetSwitch opt

/-- Meets an argument with one hyphen, which holds the letters of options. What follows the
    letter of an option with a value is that value. -/
def meetShort (scope : Scope) (given : Given) : List Char → Except Halt Given
  | [] => .ok given
  | letter :: rest =>
    match scope.options.find? (·.short? = some letter) with
    | none => .error .refused
    | some opt =>
      if opt.value?.isSome then
        given.meetSetting opt
          (match rest with
            | [] => none
            | '=' :: value => some (String.ofList value)
            | value => some (String.ofList value))
      else
        match given.meetSwitch opt with
        | .ok given => meetShort scope given rest
        | .error halt => .error halt

/-- Reads the options in one place up to a command's name, which is possible at the top only,
    or to the end. Gives back the name and what follows it. -/
def readOptions (scope : Scope) (given : Given) :
    List String → Except Halt (Given × Option (String × List String))
  | [] => .ok (given, none)
  | token :: rest =>
    if scope = .top && !given.isWaiting && (token = "help" || (Subcommand.ofName? token).isSome)
    then .ok (given, some (token, rest))
    else
      match token.toList with
      | ['-', '-'] => if rest.isEmpty then .ok (given, none) else .error .refused
      | '-' :: '-' :: text => do readOptions scope (← meetLong scope given text) rest
      | '-' :: letter :: letters => do
        readOptions scope (← meetShort scope given (letter :: letters)) rest
      | _ =>
        match given.pending with
        | some (opt, none) => readOptions scope { given with pending := some (opt, some token) } rest
        | _ => .error .refused

/-- A command with its options. -/
inductive CommandCall where
  | init (overwrite : Bool)
  | build (overrides : BuildOverrides)
  deriving DecidableEq, Repr

/-- What the command line asks for. -/
inductive Invocation where
  | run (call : CommandCall) (configPath : Path) (verbose : Bool)
  | print (text : String)
  | refused
  deriving DecidableEq, Repr

namespace Invocation

/-- What is asked for by ending early. -/
def ofHalt (scope : Scope) : Halt → Invocation
  | .help => .print scope.helpText
  | .version => .print versionText
  | .refused => .refused

/-- The help on a command. -/
def helpOn : List String → Invocation
  | [] => .print Scope.top.helpText
  | ["help"] => .print helpOfHelp
  | [name] =>
    match Subcommand.ofName? name with
    | some command => .print (Scope.within command).helpText
    | none => .refused
  | _ => .refused

/-- The call of a command. An option that may stand before and after the command counts after
    it. -/
def ofCommand (top : Given) (command : Subcommand) (args : List String) : Invocation :=
  let scope := Scope.within command
  match (do (← readOptions scope .none args).1.settle : Except Halt Given) with
  | .error halt => ofHalt scope halt
  | .ok inner =>
    match top.settle with
    | .error halt => ofHalt .top halt
    | .ok top =>
      let config := ((inner.value? .config) <|> (top.value? .config)).getD "stitch.toml"
      let call := match command with
        | .init => CommandCall.init (inner.has .yes)
        | .build => .build ⟨(inner.value? .output).map Path.mk, inner.has .minify⟩
      .run call ⟨config⟩ (inner.has .verbose || top.has .verbose)

end Invocation

/-- What the command line asks for. A command is required. -/
def readArguments (args : List String) : Invocation :=
  match readOptions .top .none args with
  | .error halt => .ofHalt .top halt
  | .ok (_, none) => .refused
  | .ok (_, some ("help", rest)) => .helpOn rest
  | .ok (given, some (name, rest)) =>
    match Subcommand.ofName? name with
    | some command => .ofCommand given command rest
    | none => .refused

end PageLoom
