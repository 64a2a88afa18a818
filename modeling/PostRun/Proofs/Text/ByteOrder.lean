import Mathlib.Tactic.ByContra
import Mathlib.Tactic.SplitIfs

/-!
# The order of names is that of their bytes

Names are kept in the order of their characters, while a file lists them in the order of
their bytes.  In UTF-8 the two are the same (`lt_iff_bytes_lt`): of two characters the
smaller one has the smaller bytes, because the first byte tells how many follow and longer
runs of bytes begin with larger ones, and no character begins with all the bytes of
another.
-/

namespace PostRun
namespace Text

/-- The bytes of a text in UTF-8. -/
def bytes (s : String) : List UInt8 := s.toUTF8.data.toList

theorem bytes_eq_flatMap (s : String) : bytes s = s.toList.flatMap String.utf8EncodeChar := by
  rw [bytes, String.toUTF8_eq_toByteArray, ← String.utf8Encode_toList, List.utf8Encode,
    List.toList_data_toByteArray]

theorem ofNat_cons_lt_ofNat_cons {m n : Nat} (hm : m < 256) (hn : n < 256) (hle : m ≤ n)
    {as bs : List UInt8} (h : m = n → as < bs) : UInt8.ofNat m :: as < UInt8.ofNat n :: bs := by
  rw [List.cons_lt_cons_iff]
  rcases Nat.lt_or_eq_of_le hle with hlt | heq
  · exact .inl ((UInt8.ofNat_lt_iff_lt hm hn).2 hlt)
  · exact .inr ⟨by rw [heq], h heq⟩

/-- The smaller one of two characters has the smaller bytes, whatever follows them. -/
theorem utf8EncodeChar_append_lt {c d : Char} (h : c < d) (x y : List UInt8) :
    String.utf8EncodeChar c ++ x < String.utf8EncodeChar d ++ y := by
  have hlt : c.val.toNat < d.val.toNat := h
  have hd : d.val.toNat < 0x110000 := by
    have hvalid : d.val.toNat.isValidChar := d.valid
    unfold Nat.isValidChar at hvalid
    omega
  unfold String.utf8EncodeChar
  generalize c.val.toNat = v at hlt
  generalize d.val.toNat = w at hlt hd
  dsimp only
  -- one case for each two lengths; the bytes are compared until they differ
  split_ifs <;>
    repeat' first
      | omega
      | refine ofNat_cons_lt_ofNat_cons ?_ ?_ ?_ fun _ => ?_

theorem flatMap_utf8EncodeChar_lt {a b : List Char} (h : a < b) :
    a.flatMap String.utf8EncodeChar < b.flatMap String.utf8EncodeChar := by
  induction h with
  | nil =>
    next d b =>
      obtain ⟨byte, more, hbytes⟩ := List.exists_cons_of_ne_nil (@String.utf8EncodeChar_ne_nil d)
      rw [List.flatMap_nil, List.flatMap_cons, hbytes]
      exact .nil
  | cons h ih =>
    rw [List.flatMap_cons, List.flatMap_cons]
    exact List.append_left_lt ih
  | rel h =>
    rw [List.flatMap_cons, List.flatMap_cons]
    exact utf8EncodeChar_append_lt h _ _

/-- **Names are in the order of their bytes.** -/
theorem lt_iff_bytes_lt {a b : String} : a < b ↔ bytes a < bytes b := by
  have hmono : ∀ {s t : String}, s < t → bytes s < bytes t := fun {s t} h => by
    rw [bytes_eq_flatMap, bytes_eq_flatMap]
    exact flatMap_utf8EncodeChar_lt h
  refine ⟨hmono, fun h => ?_⟩
  by_contra hlt
  by_cases heq : a = b
  · rw [heq] at h
    exact List.lt_irrefl _ h
  · have hgt : b < a := Std.lt_of_le_of_ne (String.not_lt.1 hlt) (Ne.symm heq)
    exact List.lt_asymm (hmono hgt) h

end Text
end PostRun
