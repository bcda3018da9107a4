import Mathlib.Order.Basic

/-!
# Extraction.Proofs.Text.Bytes

Texts compare like their bytes.

The order of texts is that of their characters, one after the other.  The bytes of a text
have the same order: the first byte of a character tells how many bytes it has, more bytes
stand for larger characters, and among characters of one length the bytes are digits to the
base 64, the highest first.

* `encode_append_lt` — bytes that begin with a smaller character are smaller;
* `bytes_lt_bytes_iff` — one text is smaller than another just if its bytes are.
-/

namespace Extraction.Text

open String (utf8EncodeChar)

/-- The bytes of a text. -/
def bytes (s : String) : List UInt8 := s.toUTF8.data.toList

/-! ## one character -/

/-- Bytes compare as the numbers that they hold, first byte first. -/
theorem ofNat_cons_lt_iff {m n : Nat} (hm : m < 256) (hn : n < 256) {xs ys : List UInt8} :
    UInt8.ofNat m :: xs < UInt8.ofNat n :: ys ↔ m < n ∨ m = n ∧ xs < ys := by
  rw [List.cons_lt_cons_iff, UInt8.lt_iff_toNat_lt, ← UInt8.toNat_inj, UInt8.toNat_ofNat',
    UInt8.toNat_ofNat', Nat.mod_eq_of_lt hm, Nat.mod_eq_of_lt hn]

/-- A smaller number has smaller leading digits, or the same ones and a smaller last one. -/
theorem div_lt_or_mod_lt {m n : Nat} (h : m < n) (base : Nat) :
    m / base < n / base ∨ m / base = n / base ∧ m % base < n % base := by
  rcases Nat.lt_or_ge (m / base) (n / base) with hlt | hge
  · exact .inl hlt
  · have heq : m / base = n / base :=
      Nat.le_antisymm (Nat.div_le_div_right (Nat.le_of_lt h)) hge
    have hm := Nat.div_add_mod m base
    have hn := Nat.div_add_mod n base
    rw [heq] at hm
    exact .inr ⟨heq, by omega⟩

/-- The bytes of a smaller character are smaller, whatever follows on either side. -/
theorem encode_append_lt {c d : Char} (h : c < d) (xs ys : List UInt8) :
    utf8EncodeChar c ++ xs < utf8EncodeChar d ++ ys := by
  have hcd : c.val.toNat < d.val.toNat := h
  have hd : d.val.toNat < 0x110000 := by
    rcases d.valid with hvalid | hvalid <;> omega
  -- the digits to the base 64: all but the last one, all but the last two, the first one
  have hlast := div_lt_or_mod_lt hcd 64
  have hthird : c.val.toNat / 64 < d.val.toNat / 64 → _ := fun h => div_lt_or_mod_lt h 64
  have hsecond : c.val.toNat / 4096 < d.val.toNat / 4096 → _ := fun h => div_lt_or_mod_lt h 64
  have hfirst : ∀ n < 0x110000, n / 262144 % 8 = n / 262144 :=
    fun n hn => Nat.mod_eq_of_lt (by omega)
  simp only [Nat.div_div_eq_div_mul, Nat.reduceMul] at hthird hsecond
  simp only [utf8EncodeChar, hfirst _ hd, hfirst _ (Nat.lt_trans hcd hd)]
  -- both characters may have any of the four lengths
  split_ifs <;>
    simp (disch := omega) only [List.cons_append, List.nil_append, ofNat_cons_lt_iff] <;>
    omega

theorem encode_ne_nil (c : Char) : utf8EncodeChar c ≠ [] := by
  rw [utf8EncodeChar]
  split_ifs <;> exact List.cons_ne_nil _ _

/-! ## texts -/

/-- Smaller characters have smaller bytes, by the first place where they differ. -/
theorem flatMap_encode_lt {cs ds : List Char} (h : cs < ds) :
    cs.flatMap utf8EncodeChar < ds.flatMap utf8EncodeChar := by
  induction h with
  | @nil d ds =>
      obtain ⟨b, bs, hb⟩ := List.exists_cons_of_ne_nil (encode_ne_nil d)
      rw [List.flatMap_nil, List.flatMap_cons, hb]
      exact List.nil_lt_cons _ _
  | @rel c cs d ds h => exact encode_append_lt h _ _
  | @cons c cs ds _ ih => exact List.append_left_lt ih

/-- The `bytes` of a text are those of its characters, one after the other. -/
theorem bytes_eq (s : String) : bytes s = s.toList.flatMap utf8EncodeChar := by
  have hbytes : s.toUTF8 = (s.toList.flatMap utf8EncodeChar).toByteArray :=
    String.utf8Encode_toList.symm
  rw [bytes, hbytes, List.data_toByteArray]

/-- A smaller text has smaller `bytes`. -/
theorem bytes_lt_of_lt {s t : String} (h : s < t) : bytes s < bytes t := by
  rw [bytes_eq, bytes_eq]
  exact flatMap_encode_lt h

/-- Texts compare like their bytes. -/
theorem bytes_lt_bytes_iff {s t : String} : bytes s < bytes t ↔ s < t := by
  refine ⟨fun h => ?_, bytes_lt_of_lt⟩
  by_contra hst
  rcases Std.le_iff_lt_or_eq.1 (String.not_lt.1 hst) with hts | rfl
  · exact List.lt_asymm h (bytes_lt_of_lt hts)
  · exact List.lt_irrefl _ h

end Extraction.Text
