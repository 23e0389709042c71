import Mathlib.Data.String.Basic

/-! Strings in the order of their UTF-8 bytes. A later code point has a later encoding,
whatever follows the two, so that comparing texts byte by byte is comparing them character
by character. -/
namespace Utf8Order

def bytes (s : String) : List UInt8 := s.toUTF8.data.toList

theorem bytes_eq (s : String) : bytes s = s.toList.flatMap String.utf8EncodeChar := by
  rw [bytes, String.toUTF8, ← String.ofList_toList (s := s), String.toByteArray_ofList,
    List.utf8Encode, List.toList_data_toByteArray, String.toList_ofList]

theorem ofNat_cons_lt {a b : Nat} {rest tail : List UInt8} (hA : a < 256) (hB : b < 256)
    (hLe : a ≤ b) (hRest : a = b → rest < tail) :
    UInt8.ofNat a :: rest < UInt8.ofNat b :: tail := by
  rw [List.cons_lt_cons_iff, UInt8.ofNat_lt_iff_lt hA hB]
  rcases hLe.lt_or_eq with hLt | hEq
  · exact .inl hLt
  · exact .inr ⟨congrArg UInt8.ofNat hEq, hRest hEq⟩

/-- An earlier code point's encoding comes first, and is no prefix. -/
theorem encodeChar_lt {c d : Char} (h : c < d) (rest tail : List UInt8) :
    String.utf8EncodeChar c ++ rest < String.utf8EncodeChar d ++ tail := by
  have hVal : c.val.toNat < d.val.toNat := h
  have hMax : d.val.toNat < 1114112 := by
    rcases d.valid with hLow | ⟨-, hHigh⟩
    · exact hLow.trans (by decide)
    · exact hHigh
  unfold String.utf8EncodeChar
  simp only
  generalize c.val.toNat = v at *
  generalize d.val.toNat = w at *
  -- With lengths that differ the first bytes decide; with equal ones the first that differ.
  split_ifs <;> simp only [List.cons_append, List.nil_append]
  all_goals
    repeat refine ofNat_cons_lt (by omega) (by omega) (by omega) fun _ => ?_
    omega

theorem encode_lt {first second : List Char} (h : first < second) :
    first.flatMap String.utf8EncodeChar < second.flatMap String.utf8EncodeChar := by
  induction h with
  | nil =>
    rw [List.flatMap_nil, List.flatMap_cons, String.utf8EncodeChar]
    split_ifs <;> exact List.nil_lt_cons _ _
  | rel hLt => exact encodeChar_lt hLt _ _
  | cons _ ih => exact List.append_left_lt ih

/-- The order of strings is the order of their bytes. -/
theorem bytes_lt_bytes {s t : String} (h : s < t) : bytes s < bytes t := by
  rw [bytes_eq, bytes_eq]
  exact encode_lt (String.lt_iff.mp h)

end Utf8Order
