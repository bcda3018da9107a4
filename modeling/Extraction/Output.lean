import Extraction.Json.Writer
import Extraction.Transition.Results
import Extraction.Yaml.Document

/-!
# Extraction.Output

The text of collected values, as JSON or as YAML.  It always ends with a line feed.
-/

namespace Extraction

/-- The formats that values are written in. -/
inductive OutputFormat where
  | json
  | yaml
deriving DecidableEq, Repr

namespace OutputFormat

def name : OutputFormat → String
  | json => "json"
  | yaml => "yaml"

def ofName? (s : String) : Option OutputFormat :=
  if s = "json" then some json
  else if s = "yaml" then some yaml
  else none

theorem ofName?_name (f : OutputFormat) : ofName? f.name = some f := by
  cases f <;> rfl

end OutputFormat

/-- A text with a line feed at its end, if it has none there. -/
def endWithLineFeed (s : String) : String :=
  if s.toList.getLast? = some '\n' then s else s ++ "\n"

/-- The text of collected values, by `Json.write` or `Yaml.write`; YAML has one layout only. -/
def render (format : OutputFormat) (pretty : Bool) (results : Transition.Results) : String :=
  endWithLineFeed <|
    match format with
    | .json => Json.write (if pretty then .pretty else .compact) results.toValue
    | .yaml => Yaml.write results.toValue

end Extraction
