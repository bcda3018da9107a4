import Extraction.Command.Arguments
import Extraction.Config
import Extraction.Files.Load
import Extraction.Log.Filter
import Extraction.Transition.Apply

/-!
# Extraction.Command.Run

What the command does, as a function of its arguments, the files it can see and its
standard input: collect the transitions, load the document, apply them, and print the
collected values.  Each stage is reached only if the one before it succeeded, and
nothing is printed before all of them have.
-/

namespace Extraction.Command

open Document (Value)
open Files (View)

/-- What the command can see. -/
structure Surroundings where
  view : View
  /-- The directory of the user. -/
  home : String
  /-- Standard input, unless it is a terminal. -/
  input : Option ByteArray

/-! ## errors -/

/-- Why a run failed. -/
inductive Error where
  | files (e : Files.Error)
  | noTransitions
  | noSource
  | transitions (f : Transition.Failure)

namespace Error

def message : Error → String
  | files e => e.message
  | noTransitions => "No transitions given; use -t EXPR or --transitions-file PATH"
  | noSource => "No source document given and stdin is a terminal"
  | transitions _ => "Failed to apply transitions"

/-- What lies behind an error, if it is known; `text` tells it below the message. -/
def cause? : Error → Option String
  | files e => e.reason?.map Files.Unreadable.message
  | transitions f => some f.message
  | _ => none

/-- A text with its lines indented. -/
def indented (s : String) : String :=
  String.ofList ("    ".toList ++ s.toList.flatMap Log.Entry.indented)

/-- The text that tells an error: its `message`, and its `cause?` if there is one. -/
def text (e : Error) : String :=
  "Error: " ++ e.message ++ (match e.cause? with
    | some c => "\n\nCaused by:\n" ++ indented c
    | none => "") ++ "\n"

end Error

/-! ## the log -/

/-- The name of the command. -/
def name : String := "datatransit"

/-- The text for `Log.Filter.read`: the settings give it, unless messages were asked for. -/
def filterText (verbosity : Nat) (config : Config) : String :=
  match verbosity with
  | 0 => config.logLevel
  | 1 => "info"
  | 2 => "debug"
  | _ => "trace"

def ofRecord (r : Transition.Record) : Log.Entry := ⟨r.level, r.target, r.text⟩

/-- The entry that tells that `Config.load` failed. -/
def ignored (e : Config.Error) : Log.Entry :=
  ⟨.warn, name, "ignoring config, using defaults: " ++ e.message⟩

/-! ## stages -/

/-- The settings, or `Config.default` with the entry of the log that tells why they were
`ignored`. -/
def settings (s : Surroundings) : Config × List Log.Entry :=
  match Config.load s.view (Config.pathIn s.home) with
  | .ok c => (c, [])
  | .error e => (.default, [ignored e])

/-- The transitions: those of the file, then those of the arguments. -/
def transitions (view : View) (o : Options) : Except Error (List Value) := do
  let first ← match o.transitionsFile with
    | some path => (Files.loadTransitions view path).mapError .files
    | none => pure []
  match first ++ o.transitions.map .string with
  | [] => throw .noTransitions
  | ts => return ts

/-- The document: that of the file, else that of standard input. -/
def source (s : Surroundings) (o : Options) : Except Error Value :=
  match o.file, s.input with
  | some path, _ => (Files.loadSource s.view path).mapError .files
  | none, some bytes => (Files.loadInput bytes).mapError .files
  | none, none => .error .noSource

/-- The collected values, with what the log is told on the way: `transitions` come first, then the
`source`, and last they are applied. -/
def collect (s : Surroundings) (o : Options) :
    List Transition.Record × Except Error Transition.Results :=
  match transitions s.view o with
  | .error e => ([], .error e)
  | .ok ts =>
    match source s o with
    | .error e => ([], .error e)
    | .ok v =>
      let (log, result) := Transition.applyValues ts v
      (log, (result.mapError .transitions).map Transition.Applied.results)

/-- The text that `render` makes of collected values, by the arguments and else by the settings.
-/
def output (o : Options) (config : Config) (r : Transition.Results) : String :=
  render (o.format.getD config.outputFormat) (config.pretty && !o.compact) r

/-! ## the command -/

/-- What a run of the command comes to. -/
structure Report where
  /-- The entries of the log that its filter admits. -/
  log : List Log.Entry
  /-- The text that is printed, or why there is none. -/
  result : Except Error String

/-- Runs the command with the options that were read: what `collect` answers, printed by the
settings. -/
def run (s : Surroundings) (o : Options) : Report :=
  let (config, warnings) := settings s
  let (records, result) := collect s o
  let filter := Log.Filter.read (filterText o.verbosity config)
  ⟨(warnings ++ records.map ofRecord).filter filter.admits, result.map (output o config)⟩

/-- The exit code of a run. -/
def Report.code (r : Report) : UInt32 :=
  match r.result with
  | .ok _ => 0
  | .error _ => 1

/-- The exit code for arguments that `Request.of` does not take for a command line. -/
def misuseCode : UInt32 := 2

/-! ## texts -/

def versionText : String := name ++ " 0.1.0\n"

def usageText : String := "Usage: " ++ name ++ " [OPTIONS] [FILE]\n"

def helpText : String :=
  "Extract, validate and rename values from a nested JSON/YAML document\n\n" ++ usageText ++
  "\nArguments:\n" ++
  "  [FILE]  Source document (JSON or YAML, optionally .gz); read from stdin if omitted\n" ++
  "\nOptions:\n" ++
  "  -t, --transition <EXPR>        Transition expression (repeatable)\n" ++
  "  -T, --transitions-file <PATH>  File holding a JSON or YAML list of transitions\n" ++
  "  -f, --format <FORMAT>          Output format (default from config, else json) " ++
    "[possible values: json, yaml]\n" ++
  "      --compact                  Print JSON on a single line\n" ++
  "  -v, --verbose...               Increase log verbosity (-v info, -vv debug, -vvv trace)\n" ++
  "  -h, --help                     Print help\n" ++
  "  -V, --version                  Print version\n"

end Extraction.Command
