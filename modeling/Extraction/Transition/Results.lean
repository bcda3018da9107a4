import Extraction.Transition.Error

/-!
# Extraction.Transition.Results

The values that were extracted, under their output names.  A result never gains a
key: values can be replaced and keys removed, and access to a missing key is an
error.
-/

namespace Extraction.Transition

open Document

/-- Output names with their values, in the order of their first value. -/
structure Results where
  entries : Entries Value
  nodup : (Entries.keys entries).Nodup

namespace Results

/-- The result of storing values one after the other, as `Entries.ofList` does. -/
def ofList (ps : List (String × Value)) : Results :=
  ⟨Entries.ofList ps, Entries.nodup_keys_ofList ps⟩

def size (r : Results) : Nat := r.entries.length

def isEmpty (r : Results) : Bool := r.entries.isEmpty

def contains (r : Results) (key : String) : Bool := (Entries.get? key r.entries).isSome

def keys (r : Results) : List String := Entries.keys r.entries

def values (r : Results) : List Value := Entries.values r.entries

/-- The value under a key. -/
def get (r : Results) (key : String) : Except AccessError Value :=
  match Entries.get? key r.entries with
  | some v => .ok v
  | none => .error (.notFound key)

/-- Replaces the value under a key that is present; answers the old value, and refuses where `get`
does. -/
def set (r : Results) (key : String) (value : Value) : Except AccessError (Value × Results) :=
  match Entries.get? key r.entries with
  | some old =>
    .ok (old, ⟨Entries.insert key value r.entries, Entries.nodup_keys_insert r.nodup key value⟩)
  | none => .error (.outOfRange key)

/-- Removes a key; answers the value it had, if it was present. -/
def unset (r : Results) (key : String) : Option Value × Results :=
  (Entries.get? key r.entries, ⟨Entries.erase key r.entries, Entries.nodup_keys_erase r.nodup key⟩)

/-- The result as a document. -/
def toValue (r : Results) : Value := .object r.entries

end Results

end Extraction.Transition
