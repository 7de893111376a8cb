import Switchboard.Size
import Switchboard.Text.Digit

/-!
# Commands and how they are written

A command line names a command and what it applies to. Options start with two
dashes and have a value, which is the next word or follows after `=`. They may
come before and after the name of the command, and before and after what it
applies to; after a `--` no word is an option. Every word is looked at in turn,
so that the first one to ask for help, or to make no sense, decides.
-/

namespace Switchboard.Console

/-- **What the program can be told to do.** -/
inductive Command where
  /-- Add the program that a file describes. -/
  | importFile (path : String)
  /-- Show a program as a document. -/
  | exportProgram (key : String)
  /-- List the programs. -/
  | list
  /-- Forget a program. -/
  | delete (key : String)
  /-- Run a program. -/
  | run (key : String)
  /-- Show what was switched lately. -/
  | history (limit : Nat)
  /-- Switch every output off. -/
  | stop
  /-- Show the state of the outputs. -/
  | state
deriving Repr, DecidableEq

/-- **The commands, by their names.** -/
inductive Verb where
  | importFile | exportProgram | list | delete | run | history | stop | state
deriving Repr, DecidableEq

namespace Verb

/-- The commands in the order in which they are explained. -/
def all : List Verb :=
  [.importFile, .exportProgram, .list, .delete, .run, .history, .stop, .state]

/-- The name of a command. -/
def label : Verb → String
  | importFile => "import"
  | exportProgram => "export"
  | list => "list"
  | delete => "delete"
  | run => "run"
  | history => "history"
  | stop => "stop"
  | state => "state"

/-- The command of a name. -/
def ofLabel? (s : String) : Option Verb := all.find? (·.label = s)

/-- Whether a command applies to something. -/
def takesOperand : Verb → Bool
  | importFile | exportProgram | delete | run => true
  | list | history | stop | state => false

end Verb

/-! ## Words -/

/-- **A word of a command line**, by how it is written. -/
inductive Word where
  /-- Two dashes. -/
  | separator
  /-- The name of an option, with the value after `=`. -/
  | option (name : String) (value : Option String)
  /-- Letters after a dash. -/
  | letters (cs : List Char)
  /-- Anything else. -/
  | plain (s : String)
deriving Repr, DecidableEq

/-- How a word is written. -/
def Word.ofText (s : String) : Word :=
  match s.toList with
  | ['-', '-'] => .separator
  | '-' :: '-' :: cs =>
    let name := cs.takeWhile (· ≠ '=')
    .option (String.ofList name) <| match cs.drop name.length with
      | _ :: value => some (String.ofList value)
      | [] => none
  | '-' :: c :: cs => .letters (c :: cs)
  | _ => .plain s

/-- A natural number of 64 bits, which may have a plus sign. -/
def natural? (s : String) : Option Nat :=
  let cs := match s.toList with
    | '+' :: cs => cs
    | cs => cs
  if cs.isEmpty || !cs.all Char.isDigit then none
  else
    let n := Text.decimalValue cs
    if n ≤ Size.greatest64 then some n else none

/-! ## What is found on a part of a command line -/

/-- **Why a command line is not carried out.** -/
inductive Stop where
  /-- It asks for help about a command, or in general. -/
  | help (verb : Option Verb)
  /-- It asks for help about help. -/
  | helpOnHelp
  /-- It asks for the version. -/
  | version
  /-- It makes no sense. -/
  | misuse
deriving Repr, DecidableEq

/-- **What is found on a part of a command line**: before the name of the
command, or after it. -/
structure Found where
  /-- Where the configuration is said to be. -/
  config : Option String := none
  /-- How many entries are asked for. -/
  limit : Option Nat := none
  /-- What the command applies to. -/
  operand : Option String := none
deriving Repr, DecidableEq

/-- **Takes an option**, unless its value makes no sense or it was given before.
Only one command has a limit. -/
def Found.option (verb : Option Verb) (f : Found) (name value : String) : Except Stop Found :=
  match name with
  | "config" =>
    if f.config.isSome || value.isEmpty then .error .misuse
    else .ok { f with config := some value }
  | "limit" =>
    match natural? value with
    | some n =>
      if verb = some .history ∧ f.limit.isNone then .ok { f with limit := some n }
      else .error .misuse
    | none => .error .misuse
  | _ => .error .misuse

/-- **Takes what a command applies to.** A file has to have a name. -/
def Found.take (verb : Verb) (f : Found) (word : String) : Except Stop Found :=
  if verb.takesOperand && f.operand.isNone && !(verb = .importFile && word.isEmpty) then
    .ok { f with operand := some word }
  else .error .misuse

/-- What a single letter after a dash asks for. -/
def letterStop (verb : Option Verb) : List Char → Stop
  | 'h' :: _ => .help verb
  | 'V' :: _ => if verb.isNone then .version else .misuse
  | _ => .misuse

/-- **What the words after the name of a command say.** -/
def Found.scan (verb : Verb) (f : Found) : List String → Except Stop Found
  | [] => .ok f
  | word :: rest =>
    match Word.ofText word with
    | .separator => rest.foldlM (Found.take verb) f
    | .letters cs => .error (letterStop (some verb) cs)
    | .option "help" none => .error (.help (some verb))
    | .option name (some value) =>
      match f.option (some verb) name value with
      | .ok f => scan verb f rest
      | .error stop => .error stop
    | .option name none =>
      match rest with
      | value :: rest =>
        match Word.ofText value with
        | .plain value =>
          match f.option (some verb) name value with
          | .ok f => scan verb f rest
          | .error stop => .error stop
        | _ => .error .misuse
      | [] => .error .misuse
    | .plain s =>
      match f.take verb s with
      | .ok f => scan verb f rest
      | .error stop => .error stop

/-- What a request for help, which names commands, is about. -/
def helpTopic : List String → Stop
  | [] => .help none
  | ["help"] => .helpOnHelp
  | [word] =>
    match Verb.ofLabel? word with
    | some verb => .help (some verb)
    | none => .misuse
  | _ => .misuse

/-- **What the words before the name of a command say**, together with the
command and the words after it. -/
def Found.scanFront (f : Found) : List String → Except Stop (Found × Verb × List String)
  | [] => .error .misuse
  | word :: rest =>
    match Word.ofText word with
    | .separator => .error .misuse
    | .letters cs => .error (letterStop none cs)
    | .option "help" none => .error (.help none)
    | .option "version" none => .error .version
    | .option name (some value) =>
      match f.option none name value with
      | .ok f => scanFront f rest
      | .error stop => .error stop
    | .option name none =>
      match rest with
      | value :: rest =>
        match Word.ofText value with
        | .plain value =>
          match f.option none name value with
          | .ok f => scanFront f rest
          | .error stop => .error stop
        | _ => .error .misuse
      | [] => .error .misuse
    | .plain "help" => .error (helpTopic rest)
    | .plain s =>
      match Verb.ofLabel? s with
      | some verb => .ok (f, verb, rest)
      | none => .error .misuse

/-! ## Whole command lines -/

/-- How many entries are shown unless a number is given. -/
def usualLimit : Nat := 20

/-- The command of a name with what was found after it. -/
def Command.ofFound (verb : Verb) (f : Found) : Except Stop Command :=
  match verb, f.operand with
  | .importFile, some path => .ok (.importFile path)
  | .exportProgram, some key => .ok (.exportProgram key)
  | .delete, some key => .ok (.delete key)
  | .run, some key => .ok (.run key)
  | .list, none => .ok .list
  | .history, none => .ok (.history (f.limit.getD usualLimit))
  | .stop, none => .ok .stop
  | .state, none => .ok .state
  | _, _ => .error .misuse

/-- **A command line that can be carried out.** -/
structure CommandLine where
  /-- Where the configuration is. -/
  config : String
  /-- What to do. -/
  command : Command
deriving Repr, DecidableEq

/-- Where the configuration is unless something else is said. -/
def usualConfig : String := "relayhub.toml"

/-- **The place of the configuration**: the option closest to the end wins, then
the variable of the environment, which must not be empty where it would count. -/
def configPlace (fromEnv : Option String) (front back : Option String) : Except Stop String :=
  if fromEnv = some "" ∧ (front.isNone ∨ back.isNone) then .error .misuse
  else .ok ((back.or (front.or fromEnv)).getD usualConfig)

/-- **What a command line asks for**, given the variable that says where the
configuration is. -/
def CommandLine.ofWords (fromEnv : Option String) (words : List String) :
    Except Stop CommandLine := do
  let (front, verb, rest) ← Found.scanFront {} words
  let back ← Found.scan verb {} rest
  let command ← Command.ofFound verb back
  let config ← configPlace fromEnv front.config back.config
  .ok ⟨config, command⟩

end Switchboard.Console
