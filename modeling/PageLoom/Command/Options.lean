namespace PageLoom

/-!
# Options of the command line

* `Opt`, `Opt.short?`, `Opt.long`, `Opt.value?`, `Opt.help` — the options;
* `Subcommand` — the commands, and `Scope`, the places where options stand;
* `Scope.options` — the options of a place;
* `Scope.helpText` — what a place's help says.
-/

/-- An option of the command line. -/
inductive Opt where
  | yes
  | output
  | minify
  | config
  | verbose
  | help
  | version
  deriving DecidableEq, Repr

namespace Opt

/-- The letter of an option, which follows one hyphen. -/
def short? : Opt → Option Char
  | .yes => some 'y'
  | .output => some 'o'
  | .minify => none
  | .config => some 'c'
  | .verbose => some 'v'
  | .help => some 'h'
  | .version => some 'V'

/-- The name of an option, which follows two hyphens. -/
def long : Opt → String
  | .yes => "yes"
  | .output => "output"
  | .minify => "minify"
  | .config => "config"
  | .verbose => "verbose"
  | .help => "help"
  | .version => "version"

/-- What the value of an option is called, if the option has one. -/
def value? : Opt → Option String
  | .output => some "OUTPUT"
  | .config => some "CONFIG"
  | _ => none

/-- What an option does. -/
def about : Opt → String
  | .yes => "Overwrite existing files"
  | .output => "Output directory (defaults to config or \"dest\")"
  | .minify => "Minify the compiled stylesheet"
  | .config => "Path to the config file (TOML, or JSON by extension) [default: stitch.toml]"
  | .verbose => "Enable verbose output"
  | .help => "Print help"
  | .version => "Print version"

/-- How an option is shown in the help. -/
def usage (opt : Opt) : String :=
  let short := match opt.short? with
    | some letter => "-" ++ letter.toString ++ ", "
    | none => "    "
  let value := match opt.value? with
    | some name => " <" ++ name ++ ">"
    | none => ""
  short ++ "--" ++ opt.long ++ value

end Opt

/-- A command. -/
inductive Subcommand where
  | init
  | build
  deriving DecidableEq, Repr

namespace Subcommand

/-- The name of a command. -/
def name : Subcommand → String
  | .init => "init"
  | .build => "build"

/-- What a command does. -/
def about : Subcommand → String
  | .init => "Scaffold a source tree and config in the current directory"
  | .build => "Build the whole site"

/-- The commands in the order of the help. -/
def all : List Subcommand :=
  [.init, .build]

/-- The command with a name. -/
def ofName? (name : String) : Option Subcommand :=
  all.find? (·.name = name)

end Subcommand

/-- A place on the command line: before the command, or after it. -/
inductive Scope where
  | top
  | within (command : Subcommand)
  deriving DecidableEq, Repr

/-- A table with two columns, each row set in by two spaces. -/
private def twoColumns (rows : List (String × String)) : List String :=
  let width := (rows.map (·.1.length)).foldl max 0
  rows.map fun row =>
    "  " ++ row.1 ++ String.ofList (List.replicate (width - row.1.length + 2) ' ') ++ row.2

/-- What the command `help` does. -/
private def helpAbout : String :=
  "Print this message or the help of the given subcommand(s)"

/-- The help of the command `help`. -/
def helpOfHelp : String :=
  "\n".intercalate
    ([helpAbout, "", "Usage: stitch help [COMMAND]...", "", "Arguments:"] ++
      twoColumns [("[COMMAND]...", "Print help for the subcommand(s)")]) ++ "\n"

namespace Scope

/-- The options that may stand in a place, in the order of the help. -/
def options : Scope → List Opt
  | .top => [.config, .verbose, .help, .version]
  | .within .init => [.yes, .config, .verbose, .help]
  | .within .build => [.output, .minify, .config, .verbose, .help]

/-- The help of a place. -/
def helpText (scope : Scope) : String :=
  let opening := match scope with
    | .top =>
      ["Build a static site from pages and shared layout fragments", "",
       "Usage: stitch [OPTIONS] <COMMAND>", "", "Commands:"] ++
        twoColumns
          (Subcommand.all.map (fun command => (command.name, command.about)) ++
            [("help", helpAbout)])
    | .within command => [command.about, "", "Usage: stitch " ++ command.name ++ " [OPTIONS]"]
  let options := twoColumns (scope.options.map fun opt => (opt.usage, opt.about))
  "\n".intercalate (opening ++ ["", "Options:"] ++ options) ++ "\n"

end Scope

/-- The name and the version of the program. -/
def versionText : String :=
  "stitch 0.1.0\n"

end PageLoom
