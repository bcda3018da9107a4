/-!
# Extraction.Yaml.Token

The tokens of a YAML text.  Nesting by indentation shows in them as start and end
tokens, like nesting by brackets.
-/

namespace Extraction.Yaml

/-- Why a text is not one YAML document. -/
inductive Error where
  | characterNotAllowed
  | badDirective
  | badAnchor
  | badTag
  | badEscape
  | badBlockHeader
  | tabInIndentation
  | unexpectedColon
  | unexpectedMarker
  | unclosedScalar
  | keyWithoutValue
  | misplacedEntry
  | misplacedKey
  | misplacedValue
  | unexpectedCharacter
  | unexpectedToken
  | unknownVersion
  | repeatedDirective
  | unknownHandle
  | unknownAnchor
  | moreThanOneDocument
  | nestedTooDeeply
  | tooManyReferences
  | notOfItsTag
  | numberOutOfRange
  | repeatedKey
deriving Repr, DecidableEq

/-- A token. -/
inductive Token where
  | version (major minor : Nat)
  /-- The meaning of a tag handle. -/
  | handle (name meaning : String)
  | documentStart
  | documentEnd
  | sequenceStart
  | mappingStart
  /-- The end of a sequence or a mapping by indentation. -/
  | blockEnd
  | flowSequenceStart
  | flowSequenceEnd
  | flowMappingStart
  | flowMappingEnd
  /-- The dash before an item. -/
  | item
  /-- The comma between two items in brackets. -/
  | comma
  /-- The beginning of a key, written or not. -/
  | key
  /-- The colon before a value. -/
  | value
  | reference (anchor : String)
  | anchor (name : String)
  | tag (handle suffix : String)
  | scalar (plain : Bool) (text : String)
deriving Repr, DecidableEq

end Extraction.Yaml
