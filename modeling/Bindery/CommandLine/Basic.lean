import Bindery.CommandLine.Switch
import Bindery.Console
import Bindery.Project
import Bindery.Text.Word

/-!
# Commands

The program has five commands. The switches for more and for less output may stand
before the command or after it; they exclude each other only on the same side.
-/

namespace Bindery

/-- What generation is told besides the description. -/
structure GenerateOptions where
  output : String := "./generated"
  /-- The schema compiler, if one is named. -/
  compiler : Option String := none
  overrides : Overrides := {}
  dryRun : Bool := false
  clean : Bool := false
  skipCompiler : Bool := false
deriving DecidableEq, Repr

/-- A command. -/
inductive Command where
  | validate (file : String)
  | generate (file : String) (options : GenerateOptions)
  /-- Starts a project in a directory. -/
  | init (name : String) (language : Language) (dir : String)
  /-- Shows the schema document or writes it to a file. -/
  | dumpSchema (output : Option String)
  | version
deriving DecidableEq, Repr

/-- A command and how much to say about it. -/
structure Request where
  verbosity : Verbosity
  command : Command
deriving DecidableEq, Repr

namespace CommandLine

/-! ### Switches -/

/-- What has been given, over all commands. -/
structure Given where
  verbosity : Verbosity := {}
  file : Option String := none
  output : Option String := none
  compiler : Option String := none
  language : Option Language := none
  targets : List Target := []
  name : Option String := none
  dryRun : Bool := false
  clean : Bool := false
  skipCompiler : Bool := false
deriving DecidableEq, Repr

/-- A switch without a value, given at most once. -/
def flag (name : String) (letter : Option Char) (get : Given → Bool) (set : Given → Given) :
    Switch Given where
  name
  letter
  accept _ g := if get g then .error .conflict else .ok (set g)

/-- A switch with a value, given at most once. A repetition is found before the value
is looked at. -/
def setting {β : Type} (name : String) (letter : Option Char) (get : Given → Option β)
    (read : String → Except Usage β) (set : Given → β → Given) : Switch Given where
  name
  letter
  takesValue := true
  accept value g :=
    match value with
    | none => .error .emptyValue
    | some text => if (get g).isSome then .error .conflict else (read text).map (set g)

/-- A path is not empty. -/
def readPath (s : String) : Except Usage String :=
  if s = "" then .error .emptyValue else .ok s

/-- A language by one of its spellings. -/
def readLanguage (s : String) : Except Usage Language :=
  match Language.ofName? s with
  | some l => .ok l
  | none => .error (.badValue ("unknown implementation language '" ++ s ++ "' (expected one of: "
      ++ Text.commaSep Language.spellings ++ ")"))

/-- A target by its name. -/
def readTarget (s : String) : Except Usage Target :=
  match Target.ofName? (Text.trim s) with
  | some t => .ok t
  | none => .error (.badValue ("unknown target '" ++ s ++ "' (expected one of: "
      ++ Text.commaSep (Target.all.map Target.name) ++ ")"))

/-- The switch that asks for help. -/
def helpSwitch : Switch Given where
  name := "help"
  letter := some 'h'
  accept _ _ := .error .help

/-- The switch that asks for the version. -/
def versionSwitch : Switch Given where
  name := "version"
  letter := some 'V'
  accept _ _ := .error .version

/-- The switches that stand before or after a command. -/
def sharedSwitches : List (Switch Given) :=
  [ flag "verbose" (some 'v') (·.verbosity.verbose)
      (fun g => { g with verbosity := { g.verbosity with verbose := true } }),
    flag "quiet" (some 'q') (·.verbosity.quiet)
      (fun g => { g with verbosity := { g.verbosity with quiet := true } }),
    helpSwitch ]

/-- The output switch. -/
def outputSwitch : Switch Given :=
  setting "output" (some 'o') (·.output) readPath fun g s => { g with output := some s }

/-- The language switch. -/
def languageSwitch : Switch Given :=
  setting "impl-lang" none (·.language) readLanguage fun g l => { g with language := some l }

/-- The switch for targets between commas, which may be repeated. -/
def targetsSwitch : Switch Given where
  name := "targets"
  takesValue := true
  accept value g :=
    match value with
    | none => .error .emptyValue
    | some text => do
      return { g with targets := g.targets ++ (← (Text.cut ',' text).mapM readTarget) }

/-- The place for a description. -/
def filePlace : Switch Given :=
  setting "FILE" none (·.file) readPath fun g s => { g with file := some s }

/-! ### The commands -/

/-- The commands by name. -/
inductive CommandName where
  | validate | generate | init | dumpSchema | version
deriving DecidableEq, Repr

namespace CommandName

/-- The command of a name. -/
def ofString? : String → Option CommandName
  | "validate" => some validate
  | "generate" => some generate
  | "init" => some init
  | "dump_schema" | "dump-schema" => some dumpSchema
  | "version" => some version
  | _ => none

/-- What a command may be given. -/
def grammar : CommandName → Grammar Given
  | validate => { switches := sharedSwitches, place := some filePlace }
  | generate => {
      switches := [
        outputSwitch,
        setting "flatc" (some 'f') (·.compiler) readPath fun g s => { g with compiler := some s },
        languageSwitch, targetsSwitch,
        flag "dry-run" none (·.dryRun) fun g => { g with dryRun := true },
        flag "clean" none (·.clean) fun g => { g with clean := true },
        flag "skip-flatc" none (·.skipCompiler) fun g => { g with skipCompiler := true } ]
        ++ sharedSwitches
      place := some filePlace }
  | init => {
      switches := [
        setting "name" (some 'n') (·.name) Except.ok fun g s => { g with name := some s },
        languageSwitch, outputSwitch ] ++ sharedSwitches }
  | dumpSchema => { switches := outputSwitch :: sharedSwitches }
  | version => { switches := sharedSwitches }

/-- The file that a command needs. -/
def needFile (g : Given) : Except Usage String :=
  match g.file with
  | some file => .ok file
  | none => .error .missingArgument

/-- The command with what it was given. -/
def complete (name : CommandName) (g : Given) : Except Usage Command :=
  match name with
  | validate => do return .validate (← needFile g)
  | generate => do
    let defaults : GenerateOptions := {}
    return .generate (← needFile g) {
      output := g.output.getD defaults.output
      compiler := g.compiler
      overrides := { language := g.language, targets := g.targets }
      dryRun := g.dryRun
      clean := g.clean
      skipCompiler := g.skipCompiler }
  | init => .ok (.init (g.name.getD "my_api") (g.language.getD .cpp) (g.output.getD "."))
  | dumpSchema => .ok (.dumpSchema g.output)
  | version => .ok .version

end CommandName

/-- Switches for more and for less output exclude each other. -/
def checkVerbosity (v : Verbosity) : Except Usage Unit :=
  if v.verbose && v.quiet then .error .conflict else .ok ()

/-- Reads what follows the name of a command. -/
def readCommand (name : CommandName) (args : List String) : Except Usage Request := do
  let g ← name.grammar.read {} args
  checkVerbosity g.verbosity
  return { verbosity := g.verbosity, command := ← name.complete g }

/-- What the help command answers: it explains at most one command. -/
def helpOn : List String → Usage
  | [] => .help
  | [name] => if name = "help" || (CommandName.ofString? name).isSome then .help else .unknownCommand
  | _ => .unknownCommand

/-- What may stand before a command. -/
def topGrammar : Grammar Given where
  switches := versionSwitch :: sharedSwitches

/-- The answer to arguments without a command. -/
def withoutCommand (g : Given) : Usage :=
  if g.verbosity = {} then .nothing else .noCommand

/-- The answer to a word that is no command. One that is a command must not stand
behind a bare `--`. -/
def noSuchCommand (escaped : Bool) (word : String) : Usage :=
  if escaped && (word = "help" || (CommandName.ofString? word).isSome) then .unknownArgument
  else .unknownCommand

/-- Reads arguments up to a command, and the command. -/
def readFrom (r : Reading Given) : List String → Except Usage Request
  | [] => .error (withoutCommand r.given)
  | arg :: rest =>
    match r.escaped, Word.ofString arg with
    | false, .plain "help" => .error (helpOn rest)
    | false, .plain text =>
      match CommandName.ofString? text with
      | none => .error (noSuchCommand false text)
      | some name => do
        let request ← readCommand name rest
        let outer := r.given.verbosity
        checkVerbosity outer
        return { request with verbosity :=
          { quiet := request.verbosity.quiet || outer.quiet
            verbose := request.verbosity.verbose || outer.verbose } }
    | true, _ => .error (noSuchCommand true arg)
    | false, _ => do readFrom (← r.step topGrammar arg) rest

end CommandLine

/-- The request that arguments make. -/
def Request.ofArgs (args : List String) : Except CommandLine.Usage Request :=
  CommandLine.readFrom { given := {} } args

end Bindery
