import Switchboard.Console.Command
import Switchboard.Text.Blank

/-!
# Help

Help explains the program as a whole, or one command. A page says what it is
about, how the command line is written, and then explains commands, operands
and options in columns.
-/

namespace Switchboard.Console

/-- The name of the program. -/
def programName : String := "relayhubd"

/-- The name and version of the program. -/
def versionText : String := programName ++ " 0.1.0"

/-- What the program is for. -/
def purpose : String := "Run timed relay programs on a four-output controller"

namespace Verb

/-- What a command does. -/
def about : Verb → String
  | importFile => "Import a program document, replacing any program with the same id"
  | exportProgram => "Print a stored program as JSON"
  | list => "List stored programs"
  | delete => "Delete a stored program"
  | run => "Run a program in the foreground; Ctrl-C stops it and switches every relay off"
  | history => "Show the most recent relay transitions, newest first"
  | stop => "Switch every relay off"
  | state => "Show the current state of the four relays"

/-- What a command applies to, with an explanation. -/
def operand? : Verb → Option (String × String)
  | importFile => some ("<FILE>", "Path to the JSON document")
  | exportProgram | delete | run => some ("<PROGRAM>", "Program id or name")
  | list | history | stop | state => none

end Verb

/-! ## Pages -/

/-- The longest of some first columns. -/
def widest (rows : List (String × String)) : Nat :=
  rows.foldl (fun w row => max w row.1.length) 0

/-- **A section of a page**: a heading, and rows of two columns. -/
def helpSection (heading : String) (rows : List (String × String)) : List String :=
  "" :: heading :: rows.map fun (name, what) =>
    "  " ++ Text.padRight (widest rows) name ++ "  " ++ what

/-- The row for the option that says where the configuration is. -/
def configRow (fromEnv : Option String) : String × String :=
  ("    --config <CONFIG>", "Configuration file [env: RELAYHUB_CONFIG=" ++ fromEnv.getD "" ++
    "] [default: " ++ usualConfig ++ "]")

/-- The row for the option that says how many entries to show. -/
def limitRow : String × String :=
  ("    --limit <LIMIT>", "Maximum number of entries to show [default: " ++
    Nat.repr usualLimit ++ "]")

/-- The row for the option that asks for help. -/
def helpRow : String × String := ("-h, --help", "Print help")

/-- The row for the option that asks for the version. -/
def versionRow : String × String := ("-V, --version", "Print version")

/-- What asking for help as a command does. -/
def helpAbout : String := "Print this message or the help of the given subcommand(s)"

/-- The section on commands. -/
def commandSection : List String :=
  helpSection "Commands:" (Verb.all.map (fun v => (v.label, v.about)) ++ [("help", helpAbout)])

/-- The line that shows how a command line is written. -/
def usage (words : String) : String := "Usage: " ++ programName ++ " " ++ words

/-- **The page about the program.** -/
def generalHelp (fromEnv : Option String) : List String :=
  [purpose, "", usage "[OPTIONS] <COMMAND>"] ++ commandSection ++
    helpSection "Options:" [configRow fromEnv, helpRow, versionRow]

/-- **The page about help.** -/
def helpOnHelp : List String := [helpAbout, "", usage "help [COMMAND]"] ++ commandSection

/-- **The page about a command.** -/
def Verb.help (fromEnv : Option String) (v : Verb) : List String :=
  let operand := v.operand?.toList
  [v.about, "", usage (" ".intercalate ([v.label, "[OPTIONS]"] ++ operand.map (·.1)))] ++
    (if operand.isEmpty then [] else helpSection "Arguments:" operand) ++
    helpSection "Options:"
      ([configRow fromEnv] ++ (if v = .history then [limitRow] else []) ++ [helpRow])

/-- **What is shown instead of carrying out a command line.** -/
def Stop.page (fromEnv : Option String) : Stop → List String
  | help none => generalHelp fromEnv
  | help (some v) => v.help fromEnv
  | helpOnHelp => Console.helpOnHelp
  | version => [versionText]
  | misuse => ["error: the command line makes no sense", "", usage "[OPTIONS] <COMMAND>", "",
      "For more information, try '--help'."]

end Switchboard.Console
