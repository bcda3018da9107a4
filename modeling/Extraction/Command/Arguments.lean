import Extraction.Output

/-!
# Extraction.Command.Arguments

The arguments of the command.  Options are read from left to right; the first fault, or
the first request for help or for the version, decides.
-/

namespace Extraction.Command

/-- What the arguments ask for. -/
structure Options where
  /-- The file with the document. -/
  file : Option String
  /-- The expressions, in order. -/
  transitions : List String
  transitionsFile : Option String
  format : Option OutputFormat
  compact : Bool
  /-- How often more messages were asked for. -/
  verbosity : Nat

namespace Options

/-- The `Options` before any argument: nothing was asked for yet. -/
def initial : Options := ⟨none, [], none, none, false, 0⟩

end Options

/-- What a command line amounts to. -/
inductive Request where
  | run (options : Options)
  | help
  | version
  /-- The arguments are no command line. -/
  | misuse

/-! ## options -/

/-- The options that take a value, see `Options.setValue?`. -/
inductive Valued where
  | transition
  | transitionsFile
  | format
deriving DecidableEq

/-- The options that take none, see `Options.setFlag`. -/
inductive Flag where
  | compact
  | verbose
  | help
  | version
deriving DecidableEq

/-- An option of either kind. -/
inductive Choice where
  | valued (v : Valued)
  | flag (f : Flag)

def ofLong? (name : String) : Option Choice :=
  if name = "transition" then some (.valued .transition)
  else if name = "transitions-file" then some (.valued .transitionsFile)
  else if name = "format" then some (.valued .format)
  else if name = "compact" then some (.flag .compact)
  else if name = "verbose" then some (.flag .verbose)
  else if name = "help" then some (.flag .help)
  else if name = "version" then some (.flag .version)
  else none

def ofShort? (c : Char) : Option Choice :=
  if c = 't' then some (.valued .transition)
  else if c = 'T' then some (.valued .transitionsFile)
  else if c = 'f' then some (.valued .format)
  else if c = 'v' then some (.flag .verbose)
  else if c = 'h' then some (.flag .help)
  else if c = 'V' then some (.flag .version)
  else none

namespace Options

/-- A value of an option.  Only expressions may be given more than once, and the path of
a file is not empty. -/
def setValue? (o : Options) : Valued → String → Option Options
  | .transition, s => some { o with transitions := o.transitions ++ [s] }
  | .transitionsFile, s =>
    if o.transitionsFile.isSome || s = "" then none else some { o with transitionsFile := some s }
  | .format, s =>
    if o.format.isSome then none
    else (OutputFormat.ofName? s).map fun f => { o with format := some f }

/-- The file with the document, which is given once. -/
def setFile? (o : Options) (path : String) : Option Options :=
  if o.file.isSome || path = "" then none else some { o with file := some path }

/-- `setFile?` for each argument that is no option. -/
def setFiles? (o : Options) : List String → Option Options
  | [] => some o
  | path :: paths => do setFiles? (← o.setFile? path) paths

/-- A flag, or the request that it makes. -/
def setFlag (o : Options) : Flag → Except Request Options
  | .compact => if o.compact then .error .misuse else .ok { o with compact := true }
  | .verbose => .ok { o with verbosity := o.verbosity + 1 }
  | .help => .error .help
  | .version => .error .version

/-- Counts what `setValue?` and `setFile?` refuse as a misuse. -/
def orMisuse (o : Option Options) : Except Request Options :=
  match o with
  | some o => .ok o
  | none => .error .misuse

end Options

/-! ## arguments -/

/-- An argument that may be the value of the option before it. -/
def isValue (argument : String) : Bool := argument = "-" || argument.toList.head? ≠ some '-'

/-- A value that is written behind its option. -/
def attached (cs : List Char) : String :=
  match cs with
  | '=' :: cs => String.ofList cs
  | cs => String.ofList cs

/-- Reads the letters of an argument.  Answers the option at its end whose value is the
next argument, if there is one. -/
def readLetters (o : Options) : List Char → Except Request (Options × Option Valued)
  | [] => .ok (o, none)
  | c :: cs =>
    match ofShort? c with
    | none => .error .misuse
    | some (.flag f) => do readLetters (← o.setFlag f) cs
    | some (.valued v) =>
      if cs.isEmpty then .ok (o, some v)
      else (Options.orMisuse (o.setValue? v (attached cs))).map fun o => (o, none)

/-- Reads a long option, which may have its value `attached` behind an equals sign. -/
def readLong (o : Options) (cs : List Char) : Except Request (Options × Option Valued) :=
  let name := String.ofList (cs.takeWhile (· ≠ '='))
  match ofLong? name, cs.dropWhile (· ≠ '=') with
  | none, _ => .error .misuse
  | some (.flag f), [] => (o.setFlag f).map fun o => (o, none)
  | some (.flag _), _ :: _ => .error .misuse
  | some (.valued v), [] => .ok (o, some v)
  | some (.valued v), _ :: value =>
    (Options.orMisuse (o.setValue? v (String.ofList value))).map fun o => (o, none)

/-- Reads one argument before any that ends the options: by `readLong`, by `readLetters`, or as
the file. -/
def readArgument (o : Options) (argument : String) : Except Request (Options × Option Valued) :=
  match argument.toList with
  | '-' :: '-' :: cs => readLong o cs
  | '-' :: c :: cs => readLetters o (c :: cs)
  | _ => (Options.orMisuse (o.setFile? argument)).map fun o => (o, none)

/-- Reads arguments; `pending` is an option that waits for its value. -/
def readArguments (o : Options) : Option Valued → List String → Except Request Options
  | none, [] => .ok o
  | some _, [] => .error .misuse
  | some v, a :: as =>
    if isValue a then do readArguments (← Options.orMisuse (o.setValue? v a)) none as
    else .error .misuse
  | none, a :: as =>
    if a = "--" then Options.orMisuse (o.setFiles? as)
    else do
      let (o, pending) ← readArgument o a
      readArguments o pending as

/-- What a command line amounts to. -/
def Request.of (arguments : List String) : Request :=
  match readArguments .initial none arguments with
  | .ok o => .run o
  | .error r => r

end Extraction.Command
