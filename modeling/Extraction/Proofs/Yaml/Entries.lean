import Extraction.Proofs.Document.Entries
import Extraction.Proofs.Transition.Descent
import Extraction.Proofs.Yaml.Numbers

/-!
# Extraction.Proofs.Yaml.Entries

Which entries of a YAML document are kept.

The keys of a mapping are values and those of an object are texts.  Distinct keys may have
one text, as `1` and `"1"` have, and of the entries whose keys have one text only the last
one keeps its value, at the place of the first one.  Nothing else is lost, however deep a
mapping stands in items, entries and tags:

* `isLast_entriesToDocument_iff` — the pairs that are stored for good are those of the
  entries that are kept;
* `descends_of_shown`, `exists_shown_of_child` — what a value shows stands in its document,
  and each child in its document is shown;
* `descends_toDocument_iff` — so the parts of the document are the documents of the parts that
  the value shows;
* `object_of_shown` — the object of a mapping that is shown, entry by entry, and that there are
  no other objects.
-/

namespace Extraction.Yaml

open Document (Entries)
open Transition (Child Descends)

/-! ## the entries of one mapping -/

/-- The texts of the keys of a mapping. -/
def keyTexts (es : List (Value × Value)) : List String := es.map fun e => e.1.keyText

/-- `(k, v)` is an entry, and no entry behind it has a key with the same text. -/
def IsKept (es : List (Value × Value)) (k v : Value) : Prop :=
  ∃ before after, es = before ++ (k, v) :: after ∧ ∀ e ∈ after, e.1.keyText ≠ k.keyText

/-- The keys of the entries of a document are `keyTexts`. -/
theorem map_fst_entriesToDocument (es : List (Value × Value)) :
    (Value.entriesToDocument es).map Prod.fst = keyTexts es := by
  rw [entriesToDocument_eq_map, List.map_map]
  rfl

/-- The last pair of a text is the entry that `IsKept` for it. -/
theorem isLast_entriesToDocument_iff {es : List (Value × Value)} {s : String}
    {d : Document.Value} :
    Entries.IsLast (Value.entriesToDocument es) s d ↔
      ∃ k v, IsKept es k v ∧ k.keyText = s ∧ v.toDocument = d := by
  rw [entriesToDocument_eq_map]
  constructor
  · rintro ⟨before, after, hes, hafter⟩
    obtain ⟨before, rest, rfl, -, hrest⟩ := List.map_eq_append_iff.1 hes
    obtain ⟨⟨k, v⟩, after, rfl, hkv, rfl⟩ := List.map_eq_cons_iff.1 hrest
    obtain ⟨rfl, rfl⟩ := Prod.mk.inj hkv
    refine ⟨k, v, ⟨before, after, rfl, fun e he => ?_⟩, rfl, rfl⟩
    exact hafter _ (List.mem_map_of_mem he)
  · rintro ⟨k, v, ⟨before, after, rfl, hafter⟩, rfl, rfl⟩
    rw [List.map_append, List.map_cons]
    exact ⟨_, _, rfl, List.forall_mem_map.2 hafter⟩

/-- The object has for a key the value of the entry that `IsKept`. -/
theorem get?_of_isKept {es : List (Value × Value)} {k v : Value} (h : IsKept es k v) :
    Entries.get? k.keyText (Entries.ofList (Value.entriesToDocument es)) = some v.toDocument :=
  Entries.get?_ofList_eq_some_iff.2 (isLast_entriesToDocument_iff.2 ⟨k, v, h, rfl, rfl⟩)

/-! ## the parts of a value -/

/-- `Shown v path w`: the part `w` of `v` is reached through tags, and for each segment of
the path through the item with that index or the entry that is kept for that text. -/
inductive Shown : Value → List String → Value → Prop
  | here {v : Value} : Shown v [] v
  | under {t : String} {v w : Value} {path : List String} :
      Shown v path w → Shown (.tagged t v) path w
  | item {vs : List Value} {i : Nat} {v w : Value} {path : List String} :
      vs[i]? = some v → Shown v path w → Shown (.sequence vs) (Decimal.text i :: path) w
  | entry {es : List (Value × Value)} {k v w : Value} {path : List String} :
      IsKept es k v → Shown v path w → Shown (.mapping es) (k.keyText :: path) w

/-- A way to a part goes on with a way inside that part. -/
theorem Shown.trans {u v w : Value} {path rest : List String} (h : Shown u path v)
    (hw : Shown v rest w) : Shown u (path ++ rest) w := by
  induction h with
  | here => exact hw
  | under _ ih => exact .under (ih hw)
  | item hv _ ih => exact .item hv (ih hw)
  | entry hv _ ih => exact .entry hv (ih hw)

/-- A part that is `Shown` stands in the document where the same segments lead. -/
theorem descends_of_shown {v w : Value} {path : List String} (h : Shown v path w) :
    Descends v.toDocument path w.toDocument := by
  induction h with
  | here => exact .here
  | under _ ih => exact ih
  | @item vs i v w path hv _ ih =>
      refine .step (.item ?_) ih
      rw [itemsToDocument_eq_map, List.getElem?_map, hv, Option.map_some]
  | @entry es k v w path hv _ ih =>
      exact .step (.entry (Entries.mem_of_get?_eq_some (get?_of_isKept hv))) ih

/-- Each child of the document of a value is the document of a part of it. -/
theorem exists_shown_of_child {s : String} {d : Document.Value} :
    (v : Value) → Child v.toDocument s d → ∃ w, Shown v [s] w ∧ w.toDocument = d
  | .tagged _ v, h => by
      obtain ⟨w, hw, hd⟩ := exists_shown_of_child v h
      exact ⟨w, .under hw, hd⟩
  | .sequence vs, h => by
      rw [Value.toDocument, itemsToDocument_eq_map] at h
      obtain ⟨⟩ | @⟨_, i, _, hi⟩ := h
      rw [List.getElem?_map, Option.map_eq_some_iff] at hi
      obtain ⟨w, hw, hd⟩ := hi
      exact ⟨w, .item hw .here, hd⟩
  | .mapping es, h => by
      have hmem := Transition.child_object_iff.1 h
      have hget := Entries.get?_of_mem (Entries.nodup_keys_ofList _) hmem
      obtain ⟨k, w, hw, rfl, hd⟩ :=
        isLast_entriesToDocument_iff.1 (Entries.get?_ofList_eq_some_iff.1 hget)
      exact ⟨w, .entry hw .here, hd⟩
  | .null, h | .boolean _, h | .number _, h | .string _, h => by cases h

/-- The parts of the document of a value are the documents of the parts that it shows. -/
theorem descends_toDocument_iff {v : Value} {path : List String} {d : Document.Value} :
    Descends v.toDocument path d ↔ ∃ w, Shown v path w ∧ w.toDocument = d := by
  refine ⟨fun h => ?_, fun ⟨w, hw, hd⟩ => hd ▸ descends_of_shown hw⟩
  induction path generalizing v with
  | nil =>
      cases h
      exact ⟨v, .here, rfl⟩
  | cons s path ih =>
      obtain ⟨c, hc, hd⟩ := Transition.descends_cons_iff.1 h
      obtain ⟨u, hu, rfl⟩ := exists_shown_of_child v hc
      obtain ⟨w, hw, hwd⟩ := ih hd
      exact ⟨w, hu.trans hw, hwd⟩

/-- A value whose document is an object is a mapping, perhaps under tags. -/
theorem exists_mapping_of_toDocument_eq {ds : List (String × Document.Value)} :
    (v : Value) → v.toDocument = .object ds →
      ∃ es, Shown v [] (.mapping es) ∧ (Value.mapping es).toDocument = .object ds
  | .tagged _ v, h => by
      obtain ⟨es, hes, hds⟩ := exists_mapping_of_toDocument_eq v h
      exact ⟨es, .under hes, hds⟩
  | .mapping es, h => ⟨es, .here, h⟩
  | .null, h | .boolean _, h | .number _, h | .string _, h | .sequence _, h => by cases h

/-- **What becomes of a mapping**: its object has the texts of its keys in the order in which
they first occur, each with the value of the last entry whose key has that text; it has one
entry for each entry of the mapping, in the same order, just if no two keys have one text.
There are no other objects in the document: each is that of a mapping that is shown. -/
theorem object_of_shown {v : Value} {path : List String} {es : List (Value × Value)}
    (h : Shown v path (.mapping es)) :
    (∃ ds, Descends v.toDocument path (.object ds) ∧
      Entries.keys ds = (keyTexts es).eraseDups ∧
      (∀ k w, IsKept es k w → Entries.get? k.keyText ds = some w.toDocument) ∧
      (ds.length = es.length ↔ (keyTexts es).Nodup) ∧
      ((keyTexts es).Nodup → ds = es.map fun e => (e.1.keyText, e.2.toDocument))) ∧
    ∀ path' ds, Descends v.toDocument path' (.object ds) →
      ∃ es', Shown v path' (.mapping es') ∧ (Value.mapping es').toDocument = .object ds := by
  refine ⟨⟨Entries.ofList (Value.entriesToDocument es), descends_of_shown h, ?_,
    fun k w => get?_of_isKept, ?_, fun hnodup => ?_⟩, fun path' ds hds => ?_⟩
  · rw [Entries.keys_ofList, map_fst_entriesToDocument]
  · have hlength : (Value.entriesToDocument es).length = es.length := by
      rw [entriesToDocument_eq_map, List.length_map]
    rw [← hlength, Entries.length_ofList_eq_iff, map_fst_entriesToDocument]
  · rw [← map_fst_entriesToDocument] at hnodup
    rw [Entries.ofList_of_nodup hnodup, entriesToDocument_eq_map]
  · obtain ⟨w, hw, hwd⟩ := descends_toDocument_iff.1 hds
    obtain ⟨es', hes', hobject⟩ := exists_mapping_of_toDocument_eq w hwd
    have hshown : Shown v (path' ++ []) (.mapping es') := hw.trans hes'
    rw [List.append_nil] at hshown
    exact ⟨es', hshown, hobject⟩

/-- Three entries under two key texts, in a tagged item of a sequence. -/
def crowded : Value :=
  .mapping [(.string "rows", .sequence [.null, .tagged "!row" (.mapping
    [(.number (.int 1), .string "a"), (.boolean true, .string "b"), (.string "1", .null)])])]

theorem shown_crowded :
    Shown crowded ["rows", Decimal.text 1] (.mapping
      [(.number (.int 1), .string "a"), (.boolean true, .string "b"), (.string "1", .null)]) :=
  .entry ⟨[], [], rfl, by simp⟩ (.item rfl (.under .here))

theorem keyText_one : (Value.number (.int 1)).keyText = "1" := by decide +kernel

/-- In `crowded` three keys have two texts, and the last entry of a text wins. -/
theorem object_of_shown_crowded :
    Shown crowded ["rows", Decimal.text 1] (.mapping
      [(.number (.int 1), .string "a"), (.boolean true, .string "b"), (.string "1", .null)]) ∧
      ∃ ds, Descends crowded.toDocument ["rows", Decimal.text 1] (.object ds) ∧
        Entries.keys ds = ["1", "true"] ∧ Entries.get? "1" ds = some .null ∧ ds.length ≠ 3 := by
  refine ⟨shown_crowded, ?_⟩
  obtain ⟨⟨ds, hds, hkeys, hget, hlength, -⟩, -⟩ := object_of_shown shown_crowded
  have htexts : keyTexts [(.number (.int 1), .string "a"), (.boolean true, .string "b"),
      (.string "1", .null)] = ["1", "true", "1"] := by
    simp only [keyTexts, List.map_cons, List.map_nil, keyText_one]
    rfl
  rw [htexts] at hkeys hlength
  refine ⟨ds, hds, hkeys.trans (by decide), ?_, fun hthree => ?_⟩
  · exact hget (.string "1") .null ⟨[(.number (.int 1), .string "a"), (.boolean true, .string "b")],
      [], rfl, by simp⟩
  · exact absurd (hlength.1 hthree) (by decide)

/-- Two entries that a document cannot keep apart. -/
def ambiguous : List (Value × Value) :=
  [(.number (.int 1), .string "a"), (.string "1", .string "b")]

/-- Distinct keys with one text: a mapping of two entries, which a text can have, becomes an
object with one. -/
theorem entries_merged :
    Value.hasRepeat (ambiguous.map Prod.fst) = false ∧ ambiguous.length = 2 ∧
      (Value.mapping ambiguous).toDocument = .object [("1", .string "b")] ∧
      (readValue "1: a\n\"1\": b\n".toList).map (Value.mapping ambiguous).same = .ok true := by
  have hentries : Value.entriesToDocument ambiguous =
      [("1", .string "a"), ("1", .string "b")] := by
    rw [entriesToDocument_eq_map, ambiguous, List.map_cons, keyText_one]
    rfl
  have hdocument : (Value.mapping ambiguous).toDocument = .object [("1", .string "b")] := by
    rw [Value.toDocument, hentries]
    rfl
  exact ⟨rfl, rfl, hdocument, by decide +kernel⟩

end Extraction.Yaml
