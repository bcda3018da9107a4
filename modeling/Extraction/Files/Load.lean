import Extraction.Files.Tree
import Extraction.Gzip.Member
import Extraction.Json.Reader
import Extraction.Yaml.Reader

/-!
# Extraction.Files.Load

Loading documents and lists of transitions from files, and documents from standard
input.
-/

namespace Extraction.Files

open Document (Value)

/-! ## errors -/

/-- The format that a text does not have. -/
inductive Unreadable where
  | json
  | yaml
deriving DecidableEq, Repr

def Unreadable.message : Unreadable → String
  | json => "Failed to parse JSON"
  | yaml => "Failed to parse YAML"

/-- Why nothing was loaded. -/
inductive Error where
  | unread (path : String)
  | compressedUnopened
  | compressedUnread
  | source (path : String) (reason : Unreadable)
  | transitions (path : String) (reason : Unreadable)
  | notAList (path : String) (typeName : String)
  | inputCompressed
  | inputEncoding
  | input (reason : Unreadable)
deriving DecidableEq, Repr

namespace Error

def message : Error → String
  | unread path => "Failed to read " ++ path
  | compressedUnopened => "Failed to open gzipped file"
  | compressedUnread => "Failed to decompress gzipped file"
  | source path _ => "Failed to load " ++ path
  | transitions path _ => "Failed to load transitions from " ++ path
  | notAList path typeName =>
    "Transitions file " ++ path ++ " must contain a list, found " ++ typeName
  | inputCompressed => "Failed to decompress gzip data"
  | inputEncoding => "Invalid UTF-8 in input"
  | input _ => "Failed to parse stdin: input is neither valid JSON nor valid YAML"

/-- What lies behind an error, if it is known. -/
def reason? : Error → Option Unreadable
  | source _ r | transitions _ r | input r => some r
  | _ => none

/-- The `message`, and the `reason?` behind it. -/
def fullMessage (e : Error) : String :=
  match e.reason? with
  | some r => e.message ++ ": " ++ r.message
  | none => e.message

end Error

/-! ## texts -/

/-- The document of a text in a format. -/
def Format.read (f : Format) (text : String) : Except Unreadable Value :=
  match f with
  | json => (Json.read text).mapError fun _ => .json
  | yaml => (Yaml.read text).mapError fun _ => .yaml
  | detect =>
    match Json.read text with
    | .ok v => .ok v
    | .error _ => (Yaml.read text).mapError fun _ => .yaml

/-- The text of a compressed file. -/
def compressedText : Found → Except Error String
  | .absent => .error .compressedUnopened
  | .directory => .error .compressedUnread
  | .file bytes =>
    match Gzip.text? bytes with
    | some text => .ok text
    | none => .error .compressedUnread

/-- The text of a file that is not compressed. -/
def plainText? : Found → Option String
  | .file bytes => String.fromUTF8? bytes
  | _ => none

/-- The text of the file at a path, by `compressedText` or `plainText?` as `isCompressed` says. -/
def readText (view : View) (path : String) : Except Error String :=
  if isCompressed path then compressedText (view path)
  else
    match plainText? (view path) with
    | some text => .ok text
    | none => .error (.unread path)

/-! ## documents -/

/-- The document in the file at a path, in the format of `Format.ofPath`. -/
def loadSource (view : View) (path : String) : Except Error Value := do
  let text ← readText view path
  ((Format.ofPath path).read text).mapError (.source path)

/-- The entries of the list in the file at a path, which is read as `loadSource` reads a document.
-/
def loadTransitions (view : View) (path : String) : Except Error (List Value) := do
  let text ← readText view path
  match ← ((Format.ofPath path).read text).mapError (.transitions path) with
  | .array items => return items
  | v => throw (.notAList path v.typeName)

/-- The text of standard input, which is compressed if it begins like a compressed file. -/
def inputText (bytes : ByteArray) : Except Error String :=
  if Gzip.magic.isPrefixOf bytes.toList then
    match Gzip.text? bytes with
    | some text => .ok text
    | none => .error .inputCompressed
  else
    match String.fromUTF8? bytes with
    | some text => .ok text
    | none => .error .inputEncoding

/-- The document on standard input, JSON or else YAML, from its `inputText`. -/
def loadInput (bytes : ByteArray) : Except Error Value := do
  let text ← inputText bytes
  (Format.detect.read text).mapError .input

end Extraction.Files
