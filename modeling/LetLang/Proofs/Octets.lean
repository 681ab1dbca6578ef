import Mathlib

/-! Texts as octets. The octet of a newline stands for a newline and for nothing else, so a text may
be cut into lines before it is decoded. -/

namespace LetLang.Text

theorem toList_loop (b : ByteArray) (i : Nat) (read : List UInt8) :
    ByteArray.toList.loop b i read = read.reverse ++ b.data.toList.drop i := by
  induction hn : b.size - i generalizing i read with
  | zero =>
    have hle : b.data.toList.length ≤ i := Nat.le_of_sub_eq_zero hn
    rw [ByteArray.toList.loop, if_neg (by omega), List.drop_of_length_le hle, List.append_nil]
  | succ n ih =>
    have hlt : i < b.data.toList.length := Nat.lt_of_sub_eq_succ hn
    have hget : b.get! i = b.data.toList[i] := by
      have hsize : i < b.data.size := hlt
      exact getElem!_pos b.data i hsize
    rw [ByteArray.toList.loop, if_pos (by omega), ih _ _ (by omega), hget,
      List.drop_eq_getElem_cons hlt, List.reverse_cons, List.append_assoc, List.singleton_append]

theorem toList_eq_data (b : ByteArray) : b.toList = b.data.toList := by
  rw [ByteArray.toList, toList_loop, List.reverse_nil, List.drop_zero, List.nil_append]

theorem toUTF8_toList (s : String) : s.toUTF8.toList = s.toList.flatMap String.utf8EncodeChar := by
  rw [toList_eq_data, String.toUTF8_eq_toByteArray, ← String.utf8Encode_toList, List.utf8Encode,
    List.toList_data_toByteArray]

theorem length_toUTF8_toList (s : String) : s.toUTF8.toList.length = s.utf8ByteSize := by
  rw [toList_eq_data, Array.length_toList, ByteArray.size_data, String.toUTF8_eq_toByteArray,
    String.size_toByteArray]

theorem toUTF8_toList_append (s t : String) :
    (s ++ t).toUTF8.toList = s.toUTF8.toList ++ t.toUTF8.toList := by
  rw [toUTF8_toList, toUTF8_toList, toUTF8_toList, String.toList_append, List.flatMap_append]

theorem fromUTF8?_toUTF8 (s : String) :
    String.fromUTF8? s.toUTF8.toList.toByteArray = some s := by
  have hbytes : s.toUTF8.toList.toByteArray = s.toByteArray := by
    rw [toUTF8_toList, ← String.utf8Encode_toList, List.utf8Encode]
  rw [hbytes, String.fromUTF8?, dif_pos s.isValidUTF8]
  rfl

theorem toUTF8_of_fromUTF8? {b : List UInt8} {s : String}
    (h : String.fromUTF8? b.toByteArray = some s) : s.toUTF8.toList = b := by
  rw [String.fromUTF8?] at h
  split at h
  · next hvalid =>
    obtain rfl := Option.some.inj h
    have hbytes : (String.fromUTF8 b.toByteArray hvalid).toUTF8 = b.toByteArray := rfl
    rw [hbytes, toList_eq_data, List.toList_data_toByteArray]
  · cases h

theorem newline_mem_utf8EncodeChar {c : Char} : 10 ∈ String.utf8EncodeChar c ↔ c = '\n' := by
  constructor
  · intro h
    -- all octets of a longer encoding are 128 or more
    have hlarge (n : Nat) (hn : 128 ≤ n % 256) : (10 : UInt8) ≠ UInt8.ofNat n := by
      intro heq
      have hval := congrArg UInt8.toNat heq
      simp at hval
      omega
    unfold String.utf8EncodeChar at h
    dsimp only at h
    split_ifs at h with h1 h2 h3
    · have hval := congrArg UInt8.toNat (List.mem_singleton.1 h)
      rw [UInt8.toNat_ofNat'] at hval
      have hten : c.val.toNat = 10 := by
        rw [Nat.mod_eq_of_lt (by omega)] at hval
        exact hval.symm
      exact Char.ext (UInt32.toNat_inj.1 hten)
    all_goals simp only [List.mem_cons, List.not_mem_nil, or_false] at h
    · rcases h with h | h <;> exact absurd h (hlarge _ (by omega))
    · rcases h with h | h | h <;> exact absurd h (hlarge _ (by omega))
    · rcases h with h | h | h | h <;> exact absurd h (hlarge _ (by omega))
  · rintro rfl
    decide

end LetLang.Text
