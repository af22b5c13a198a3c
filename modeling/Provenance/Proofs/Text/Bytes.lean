import Mathlib

/-!
The UTF-8 bytes of a text. They are the bytes of its characters, one after another. An ASCII character
is its own byte, and no byte of another character looks like one.
-/

namespace Provenance.Text

theorem toList_loop (b : ByteArray) (i : Nat) (r : List UInt8) :
    ByteArray.toList.loop b i r = r.reverse ++ b.data.toList.drop i := by
  fun_induction ByteArray.toList.loop b i r with
  | case1 i r hlt ih =>
    have hlt' : i < b.data.size := hlt
    have hget : b.get! i = b.data[i] := getElem!_pos b.data i hlt'
    have hdrop : b.data.toList.drop i = b.data[i] :: b.data.toList.drop (i + 1) :=
      List.drop_eq_getElem_cons (by simpa using hlt')
    rw [ih, List.reverse_cons, List.append_assoc, List.singleton_append, hget, hdrop]
  | case2 i r hge =>
    have hge' : b.data.toList.length ≤ i := by simpa using hge
    rw [List.drop_eq_nil_of_le hge', List.append_nil]

/-- The bytes of an array, in order. -/
theorem toList_eq_toList_data (b : ByteArray) : b.toList = b.data.toList := toList_loop b 0 []

theorem toUTF8_toList (s : String) : s.toUTF8.toList = s.toList.flatMap String.utf8EncodeChar := by
  rw [String.toUTF8, ← String.utf8Encode_toList, toList_eq_toList_data, List.utf8Encode,
    List.data_toByteArray]

/-- A byte of a character is the character itself, unless neither of them is ASCII. -/
theorem toNat_of_mem_utf8EncodeChar {c : Char} {b : UInt8} (hb : b ∈ String.utf8EncodeChar c) :
    b.toNat = c.toNat ∨ 128 ≤ b.toNat ∧ 128 ≤ c.toNat := by
  have hval : c.val.toNat = c.toNat := rfl
  simp only [String.utf8EncodeChar, hval] at hb
  split at hb
  · refine .inl ?_
    rw [List.mem_singleton.1 hb, UInt8.toNat_ofNat']
    omega
  · refine .inr ⟨?_, by omega⟩
    -- what every byte adds to its part of the code point keeps it above the ASCII range
    split at hb
    · simp only [List.mem_cons, List.not_mem_nil, or_false] at hb
      rcases hb with rfl | rfl <;> rw [UInt8.toNat_ofNat'] <;> omega
    · split at hb
      · simp only [List.mem_cons, List.not_mem_nil, or_false] at hb
        rcases hb with rfl | rfl | rfl <;> rw [UInt8.toNat_ofNat'] <;> omega
      · simp only [List.mem_cons, List.not_mem_nil, or_false] at hb
        rcases hb with rfl | rfl | rfl | rfl <;> rw [UInt8.toNat_ofNat'] <;> omega

end Provenance.Text
