import Extraction.Text.Letter
import Extraction.Text.Split

/-!
# Extraction.Files.Path

Paths of files, and what their names tell about the content: the format that a name
asks for, and whether the file is compressed.
-/

namespace Extraction.Files

/-- The ending of compressed files, which `isCompressed` asks for as it stands. -/
def compressedEnding : List Char := ".gz".toList

/-- The names that a path is made of, in order.  Empty names stand where separators
follow each other, and at the ends. -/
def names (path : String) : List (List Char) := Text.split '/' path.toList

/-- The last name of a path, unless it is the name of the parent directory. -/
def lastName? (path : String) : Option (List Char) :=
  match ((names path).filter fun n => n ≠ [] && n ≠ ['.']).getLast? with
  | some n => if n = ['.', '.'] then none else some n
  | none => none

/-- A path whose last name has an ending that tells a compressed file; a name that is
nothing but the ending has none. -/
def isCompressed (path : String) : Bool :=
  match lastName? path with
  | some n => compressedEnding.isSuffixOf n && n ≠ compressedEnding
  | none => false

/-- The formats of documents in files. -/
inductive Format where
  | json
  | yaml
  /-- JSON if the text is JSON, else YAML. -/
  | detect
deriving DecidableEq, Repr

namespace Format

def name : Format → String
  | json => "json"
  | yaml => "yaml"
  | detect => "detect"

/-- A path without `compressedEnding`, as `ofPath` looks at it. -/
def uncompressed (path : List Char) : List Char :=
  if compressedEnding.isSuffixOf path then path.take (path.length - compressedEnding.length)
  else path

/-- The format that the ending of an `uncompressed` path asks for, whatever the case of its
letters. -/
def ofPath (path : String) : Format :=
  let base := uncompressed (path.toList.map Text.lower)
  if ".json".toList.isSuffixOf base then json
  else if ".yaml".toList.isSuffixOf base || ".yml".toList.isSuffixOf base then yaml
  else detect

end Format

end Extraction.Files
