import Extraction.Proofs.Json.Integer
import Extraction.Proofs.Yaml.Integer
import Extraction.Proofs.Yaml.Numbers

/-!
# Extraction.Proofs.Document.Exact

Integers stay exact on every way into a document and out of it.

Both readers and the conversion of an unsigned word choose the form of an integer by its
size, and its text is written from that form.  Since no reader chooses the unsigned form for
an integer that has a signed one, two numbers that denote the same integer are the same:

* `reduced_of_isRead` — the numbers of a document that was read;
* `integers_exact` — the ways in, the ways out, and the equality of forms.
-/

namespace Extraction

open Document

/-- The document is what reading some JSON or YAML text answers. -/
def IsRead (v : Value) : Prop := ∃ text, Json.read text = .ok v ∨ Yaml.read text = .ok v

/-- Whichever reader a document comes from, its numbers are `Reduced`. -/
theorem reduced_of_isRead {v : Value} (h : IsRead v) : ∀ x ∈ v.numbers, x.Reduced := by
  obtain ⟨text, h | h⟩ := h
  · exact Json.reduced_of_read h
  · exact Yaml.reduced_of_read h

/-- **Exact integers**: the decimal text of an integer from the least signed word to the
greatest unsigned one is read by both readers as the same number, signed if it has a signed
form and unsigned otherwise, and so is the unsigned word; the number denotes the integer, and
its plain text and its JSON text are the decimal text again.  In a document that was read,
unsigned numbers are above the signed range wherever they stand, so numbers of such documents
that denote the same integer are equal. -/
theorem integers_exact :
    (∀ n : Int, -0x8000000000000000 ≤ n → n < 0x10000000000000000 →
      let x : Number :=
        if n < 0x8000000000000000 then .int (Int64.ofInt n) else .nat (UInt64.ofNat n.toNat)
      x.integer? = some n ∧
      Json.read (toString n) = .ok (.number x) ∧ Yaml.read (toString n) = .ok (.number x) ∧
      (∀ m : UInt64, (m.toNat : Int) = n → Number.ofUInt64 m = x) ∧
      (Value.number x).display = toString n ∧ ∀ s, Json.write s (.number x) = toString n) ∧
    (∀ v, IsRead v → ∀ m, Number.nat m ∈ v.numbers → 0x7FFFFFFFFFFFFFFF < m.toNat) ∧
    (∀ v w, IsRead v → IsRead w → ∀ x ∈ v.numbers, ∀ y ∈ w.numbers, ∀ n : Int,
      x.integer? = some n → y.integer? = some n → x = y) := by
  refine ⟨fun n hge hlt => ?_, fun v hv m hm => ?_, fun v w hv hw x hx y hy n hxn hyn => ?_⟩
  · have hinteger := Number.integer?_ofInt hge hlt
    refine ⟨hinteger, Json.read_toString hge hlt, Yaml.read_toString hge hlt, ?_,
      Number.display_of_integer? hinteger, Json.write_ofInt hge hlt⟩
    rintro m rfl
    exact Number.ofUInt64_eq_ofInt m
  · exact reduced_of_isRead hv _ hm m rfl
  · rw [Number.eq_ofInt_of_integer? (reduced_of_isRead hv x hx) hxn,
      Number.eq_ofInt_of_integer? (reduced_of_isRead hw y hy) hyn]

/-- A document that holds an integer of either form. -/
def bothForms : Value :=
  .array [.null, .object [("a", .number (.nat 0x8000000000000000))], .number (.int (-1))]

theorem isRead_bothForms : IsRead bothForms := by
  have hreads : Json.ReadsBack Json.maxNesting bothForms := by
    refine ⟨?_, ?_, by decide⟩
    · simp [bothForms, Value.DistinctKeys, Value.DistinctEntries, Value.DistinctItems, Entries.keys]
    · simp [bothForms, Value.AllNumbers, Value.AllNumbersEntries, Value.AllNumbersItems,
        Number.Canonical]
  exact ⟨_, .inl (Json.read_write hreads .compact)⟩

/-- The ends of the signed and of the unsigned range, and an integer that two documents hold. -/
theorem integers_exact_ends :
    Json.read (toString (-0x8000000000000000 : Int)) = .ok (.number (.int Int64.minValue)) ∧
    Yaml.read (toString (0x7FFFFFFFFFFFFFFF : Int)) = .ok (.number (.int Int64.maxValue)) ∧
    Number.ofUInt64 0x8000000000000000 = .nat 0x8000000000000000 ∧
    Yaml.read (toString (0xFFFFFFFFFFFFFFFF : Int)) = .ok (.number (.nat 0xFFFFFFFFFFFFFFFF)) ∧
    IsRead bothForms ∧ IsRead (.number (.nat 0x8000000000000000)) ∧
    (∀ m, Number.nat m ∈ bothForms.numbers → 0x7FFFFFFFFFFFFFFF < m.toNat) ∧
    ∀ x ∈ bothForms.numbers, x.integer? = some 0x8000000000000000 → x = .nat 0x8000000000000000 := by
  have hmin := integers_exact.1 (-0x8000000000000000) (by decide) (by decide)
  have hmax := integers_exact.1 0x7FFFFFFFFFFFFFFF (by decide) (by decide)
  have hnext := integers_exact.1 0x8000000000000000 (by decide) (by decide)
  have hlast := integers_exact.1 0xFFFFFFFFFFFFFFFF (by decide) (by decide)
  have hread : IsRead (.number (.nat 0x8000000000000000)) := ⟨_, .inr hnext.2.2.1⟩
  refine ⟨hmin.2.1, hmax.2.2.1, hnext.2.2.2.1 _ rfl, hlast.2.2.1, isRead_bothForms, hread,
    integers_exact.2.1 bothForms isRead_bothForms, fun x hx hxn => ?_⟩
  exact integers_exact.2.2 _ _ isRead_bothForms hread x hx _ List.mem_cons_self _ hxn hnext.1

end Extraction
