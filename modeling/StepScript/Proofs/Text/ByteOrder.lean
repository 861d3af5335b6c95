import Mathlib.Data.List.Sort

/-! Texts in the order of their bytes. The number of bytes of a character in UTF-8 grows with the character, and so
    does the first byte that differs. So texts are in the order of their bytes if they are in the order of
    their characters. -/

namespace StepScript.Text
open String

/-- The bytes of a text in UTF-8. -/
def bytes (s : String) : List UInt8 := s.toUTF8.data.toList

theorem bytes_eq (s : String) : bytes s = s.toList.flatMap utf8EncodeChar := by
  have hencoded : s.toByteArray = s.toList.utf8Encode := utf8Encode_toList.symm
  rw [bytes, toUTF8_eq_toByteArray, hencoded]
  simp [List.utf8Encode]

/-- The bytes of a greater character are greater, whatever follows. -/
theorem utf8EncodeChar_append_lt {c d : Char} (h : c < d) (bs ds : List UInt8) :
    utf8EncodeChar c ++ bs < utf8EncodeChar d ++ ds := by
  have hval : c.val.toNat < d.val.toNat := h
  have hmax : d.val.toNat < 0x110000 := by
    have hvalid := d.valid
    simp only [UInt32.isValidChar, Nat.isValidChar] at hvalid
    omega
  unfold utf8EncodeChar
  dsimp only
  generalize c.val.toNat = m at hval
  generalize d.val.toNat = n at hval hmax
  -- A case for each pair of lengths; the first byte tells the length.
  split_ifs <;>
    simp (disch := omega) only [List.cons_append, List.nil_append, List.cons_lt_cons_iff, UInt8.lt_iff_toNat_lt,
      ← UInt8.toNat_inj, UInt8.toNat_ofNat', Nat.mod_eq_of_lt] <;>
    omega

theorem flatMap_utf8EncodeChar_lt {cs ds : List Char} (h : cs < ds) :
    cs.flatMap utf8EncodeChar < ds.flatMap utf8EncodeChar := by
  induction h with
  | nil =>
    obtain ⟨b, bs, hbytes⟩ := List.exists_cons_of_ne_nil utf8EncodeChar_ne_nil
    rw [List.flatMap_nil, List.flatMap_cons, hbytes]
    exact List.nil_lt_cons _ _
  | rel h =>
    rw [List.flatMap_cons, List.flatMap_cons]
    exact utf8EncodeChar_append_lt h _ _
  | cons _ ih =>
    rw [List.flatMap_cons, List.flatMap_cons]
    exact List.append_left_lt ih

/-- The order of bytes is that of characters. -/
theorem bytes_lt_iff {s t : String} : bytes s < bytes t ↔ s < t := by
  have hlt : ∀ {s t : String}, s < t → bytes s < bytes t := fun {s t} h => by
    rw [bytes_eq, bytes_eq]
    exact flatMap_utf8EncodeChar_lt h
  refine ⟨fun h => ?_, hlt⟩
  by_contra hnot
  rcases Std.le_iff_lt_or_eq.mp (String.not_lt.mp hnot) with hgt | rfl
  · exact List.lt_asymm h (hlt hgt)
  · exact List.lt_irrefl _ h

end StepScript.Text
