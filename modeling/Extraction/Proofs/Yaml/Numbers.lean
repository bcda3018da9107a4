import Extraction.Proofs.Document.Integer
import Extraction.Proofs.Postcondition
import Extraction.Yaml.Reader

/-!
# Extraction.Proofs.Yaml.Numbers

The numbers of a YAML document are reduced.

A number stands only in a scalar, plain or with a tag, and there it is the form that is
chosen for an integer, or a floating-point number.  Collections, copies of anchored nodes and
tags bring in no others:

* `reduced_under`, `reduced_sequence`, `reduced_mapping` — the document of a value has the
  numbers of the values inside it;
* `ensures_scalarValue` — the value of a scalar;
* `yields_value` — the value of a node, by induction on how deep collections may still nest;
* `reduced_of_read` — the document of a text.
-/

namespace Extraction.Yaml

open Document (Number)

/-! ## the documents of values -/

/-- The document of the value has reduced numbers only. -/
def Value.Reduced (v : Value) : Prop := v.toDocument.AllNumbers Number.Reduced

/-- `itemsToDocument` goes through the items one by one. -/
theorem itemsToDocument_eq_map (vs : List Value) :
    Value.itemsToDocument vs = vs.map Value.toDocument := by
  induction vs with
  | nil => rfl
  | cons v vs ih => rw [Value.itemsToDocument, ih, List.map_cons]

/-- `entriesToDocument` goes through the entries one by one. -/
theorem entriesToDocument_eq_map (es : List (Value × Value)) :
    Value.entriesToDocument es = es.map fun e => (e.1.keyText, e.2.toDocument) := by
  induction es with
  | nil => rfl
  | cons e es ih => rw [Value.entriesToDocument, ih, List.map_cons]

theorem reduced_string (s : String) : (Value.string s).Reduced := trivial

/-- A tag leaves the numbers as they are. -/
theorem reduced_under {v : Value} (h : v.Reduced) (tag : Option String) :
    (Value.under tag v).Reduced := by
  rw [Value.under]
  split
  · rwa [Value.Reduced, Value.toDocument]
  · exact h

theorem reduced_sequence {vs : List Value} (h : ∀ v ∈ vs, v.Reduced) :
    (Value.sequence vs).Reduced := by
  rw [Value.Reduced, Value.toDocument, itemsToDocument_eq_map]
  exact Document.Value.allNumbersItems_iff.2 (List.forall_mem_map.2 h)

theorem reduced_mapping {es : List (Value × Value)} (h : ∀ e ∈ es, e.2.Reduced) :
    (Value.mapping es).Reduced := by
  rw [Value.Reduced, Value.toDocument, entriesToDocument_eq_map]
  exact Document.Value.allNumbers_ofPairs (List.forall_mem_map.2 h)

/-! ## scalars -/

/-- `integerValue` chooses a `Reduced` form. -/
theorem ensures_integerValue (n : Int) : Ensures (integerValue n) Value.Reduced := by
  rw [integerValue]
  split
  · next h => exact ensures_ok (Number.reduced_of_ofInt? h)
  · exact ensures_error _

/-- Whatever its text stands for, the value of a plain scalar is `Reduced`. -/
theorem ensures_plainValue (s : String) : Ensures (plainValue s) Value.Reduced := by
  rw [plainValue]
  split
  · exact ensures_ok trivial
  · exact ensures_ok trivial
  · exact ensures_integerValue _
  · exact ensures_ok (Number.reduced_float _)
  · exact ensures_ok trivial

/-- The value of a scalar under a tag of the core schema is `Reduced`. -/
theorem ensures_coreValue (s : String) (t : CoreTag) : Ensures (coreValue s t) Value.Reduced := by
  cases t with
  | null =>
      rw [coreValue]
      split
      · exact ensures_ok trivial
      · exact ensures_error _
  | boolean =>
      rw [coreValue]
      split
      · exact ensures_ok trivial
      · exact ensures_error _
  | integer =>
      rw [coreValue]
      split
      · exact ensures_integerValue _
      · exact ensures_error _
  | float =>
      rw [coreValue]
      split
      · exact ensures_ok (Number.reduced_float _)
      · exact ensures_error _

/-- The value of a scalar is `Reduced`, whether it is plain or in quotes, with a tag or without.
-/
theorem ensures_scalarValue (tag : Option String) (plain : Bool) (s : String) :
    Ensures (scalarValue tag plain s) Value.Reduced := by
  rw [scalarValue]
  split
  · exact ensures_coreValue s _
  · split
    · exact ensures_map fun v hv => reduced_under (ensures_plainValue s v hv) tag
    · exact ensures_ok (reduced_under (reduced_string s) tag)

/-! ## nodes -/

/-- A mapping is `Reduced` if its entries are, and else refused. -/
theorem ensures_mappingValue {es : List (Value × Value)} (h : ∀ e ∈ es, e.2.Reduced) :
    Ensures (mappingValue es) Value.Reduced := by
  rw [mappingValue]
  split
  · exact ensures_error _
  · exact ensures_ok (reduced_mapping h)

/-- By induction on nodes and depth, links that are followed included, a value is `Reduced`. -/
theorem yields_value (l : Links) (depth : Nat) (n : Node Nat) :
    Yields (l.value depth n) Value.Reduced := by
  induction depth generalizing n with
  | zero =>
      rw [Links.value]
      refine yields_bind_of_forall fun target => ?_
      split
      · exact yields_lift (ensures_scalarValue _ _ _)
      · exact yields_throw _
  | succ depth ih =>
      rw [Links.value]
      refine yields_bind_of_forall fun target => ?_
      cases target with
      | scalar slot tag plain s => exact yields_lift (ensures_scalarValue _ _ _)
      | sequence slot tag items =>
          refine yields_bind (yields_mapM fun item _ => ih item) fun vs hvs => ?_
          exact yields_pure (reduced_under (reduced_sequence hvs) tag)
      | mapping slot tag entries =>
          -- keys become texts, and so only the values have to be reduced
          have hentry : ∀ e ∈ entries, Yields
              (do return (← l.value depth e.1, ← l.value depth e.2)) fun r => r.2.Reduced :=
            fun e _ => yields_bind_of_forall fun k => yields_bind (ih e.2) fun v hv =>
              yields_pure hv
          refine yields_bind (yields_mapM hentry) fun es hes => ?_
          refine yields_bind (yields_lift (ensures_mappingValue hes)) fun v hv => ?_
          exact yields_pure (reduced_under hv tag)
      | reference slot => exact yields_throw _

/-- `Value.ofNode` answers `Reduced` values: it follows the links of a whole tree. -/
theorem ensures_ofNode (n : Node String) : Ensures (Value.ofNode n) Value.Reduced :=
  ensures_bind_of_forall fun _ => ensures_bind (yields_value _ _ _ 0) fun _ hr => ensures_ok hr

/-- `readValue` answers `Reduced` values: its tokens make a tree, and the tree a value. -/
theorem ensures_readValue (cs : List Char) : Ensures (readValue cs) Value.Reduced := by
  rw [readValue]
  dsimp only
  split
  · exact ensures_error _
  · exact ensures_bind_of_forall fun _ => ensures_bind_of_forall fun n => ensures_ofNode n

/-- The numbers of a document that was read are reduced. -/
theorem reduced_of_read {text : String} {v : Document.Value} (h : read text = .ok v) :
    ∀ x ∈ v.numbers, x.Reduced := by
  have hread : Ensures (read text) fun v => v.AllNumbers Number.Reduced :=
    ensures_map (ensures_readValue text.toList)
  exact (Document.Value.allNumbers_iff v).1 (hread v h)

end Extraction.Yaml
