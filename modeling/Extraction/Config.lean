import Extraction.Files.Tree
import Extraction.Output
import Extraction.Toml.Reader

/-!
# Extraction.Config

The settings of the command, and the file that they are kept in.  A setting that the
file does not give has its default; entries that are no settings do not matter.
-/

namespace Extraction

open Document (Entries)
open Files (Found Tree View)

/-- The settings of the command. -/
structure Config where
  outputFormat : OutputFormat
  pretty : Bool
  logLevel : String
deriving DecidableEq, Repr

namespace Config

def default : Config := ⟨.json, true, "warn"⟩

/-! ## the file's text -/

/-- A table or a list without anything in it, as `formatOf?` asks for. -/
def isEmptyValue : Toml.Value → Bool
  | .table [] | .array [] => true
  | _ => false

/-- The format that a value names, by a text or as the only key of a table that has
nothing under it. -/
def formatOf? : Toml.Value → Option OutputFormat
  | .string s => OutputFormat.ofName? s
  | .table [(k, v)] => if isEmptyValue v then OutputFormat.ofName? k else none
  | _ => none

def booleanOf? : Toml.Value → Option Bool
  | .boolean b => some b
  | _ => none

def stringOf? : Toml.Value → Option String
  | .string s => some s
  | _ => none

/-- The value of a setting, or its default if the table does not give it. -/
def setting? {α : Type} (read : Toml.Value → Option α) (key : String) (fallback : α)
    (t : List (String × Toml.Value)) : Option α :=
  match Entries.get? key t with
  | none => some fallback
  | some v => read v

/-- The settings that a table gives, each by `setting?`. -/
def ofTable? (t : List (String × Toml.Value)) : Option Config := do
  return ⟨← setting? formatOf? "output_format" default.outputFormat t,
    ← setting? booleanOf? "pretty" default.pretty t,
    ← setting? stringOf? "log_level" default.logLevel t⟩

/-- The settings of a text that `Toml.read?` takes for a table. -/
def read? (text : String) : Option Config := (Toml.read? text).bind ofTable?

/-- A line of the file that `write` makes. -/
def line (key : String) (value : List Char) : List Char :=
  key.toList ++ " = ".toList ++ value ++ ['\n']

/-- The text of settings, which `read?` takes back. -/
def write (c : Config) : String := String.ofList <|
  line "output_format" (Toml.writeString c.outputFormat.name.toList) ++
  line "pretty" (if c.pretty then "true".toList else "false".toList) ++
  line "log_level" (Toml.writeString c.logLevel.toList)

/-! ## the file -/

/-- Where the settings of a user are kept. -/
def pathIn (home : String) : String :=
  (if home.toList.getLast? = some '/' then home else home ++ "/") ++
    ".config/datatransit/config.toml"

/-- Why settings were not loaded. -/
inductive Error where
  | unread (path : String)
  | invalid (path : String)
deriving DecidableEq, Repr

def Error.message : Error → String
  | unread path => "Failed to read config " ++ path
  | invalid path => "Invalid config " ++ path

/-- The settings in what was found at a path; where there is no file they are the `default` ones.
-/
def ofFound (path : String) : Found → Except Error Config
  | .absent => .ok default
  | .directory => .error (.unread path)
  | .file bytes =>
    match String.fromUTF8? bytes with
    | none => .error (.unread path)
    | some text =>
      match read? text with
      | some c => .ok c
      | none => .error (.invalid path)

/-- The settings in what the `View` finds at a path. -/
def load (view : View) (path : String) : Except Error Config := ofFound path (view path)

/-- Writes settings to the file at a path, and makes the directories above it (`Tree.save?`). -/
def save? (c : Config) (path : String) (root : Tree) : Option Tree :=
  root.save? path c.write.toUTF8

end Config

end Extraction
