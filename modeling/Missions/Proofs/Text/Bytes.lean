import Mathlib.Data.String.Basic

/-! The order of texts by their bytes is the order by characters: a character with a greater number has greater bytes,
and no character's bytes begin another's. -/

namespace Missions.Text

def bytes (s : String) : List UInt8 := s.toUTF8.data.toList

theorem bytes_eq (s : String) : bytes s = s.toList.flatMap String.utf8EncodeChar := by
  rw [bytes, String.toUTF8_eq_toByteArray, ← String.utf8Encode_toList, List.utf8Encode, List.toList_data_toByteArray]

theorem ofNat_cons_lt {n n' : Nat} (hn : n < 256) (hn' : n' < 256) {rest rest' : List UInt8} :
    UInt8.ofNat n :: rest < UInt8.ofNat n' :: rest' ↔ n < n' ∨ n = n' ∧ rest < rest' := by
  rw [List.cons_lt_cons_iff, UInt8.lt_iff_toNat_lt, ← UInt8.toNat_inj, UInt8.toNat_ofNat', UInt8.toNat_ofNat',
    Nat.mod_eq_of_lt hn, Nat.mod_eq_of_lt hn']

theorem toNat_val_lt (c : Char) : c.val.toNat < 1114112 := by
  rcases c.valid with h | h <;> omega

theorem encode_lt {c c' : Char} (h : c < c') (rest rest' : List UInt8) :
    String.utf8EncodeChar c ++ rest < String.utf8EncodeChar c' ++ rest' := by
  have hlt : c.val.toNat < c'.val.toNat := UInt32.lt_iff_toNat_lt.1 h
  have hmax := toNat_val_lt c'
  rw [String.utf8EncodeChar, String.utf8EncodeChar]
  generalize c.val.toNat = v at hlt ⊢
  generalize c'.val.toNat = v' at hlt hmax ⊢
  -- a character with more bytes has a greater first byte; otherwise the bytes are the digits in base 64
  have h64 (n : Nat) : n / 4096 = n / 64 / 64 := (Nat.div_div_eq_div_mul n 64 64).symm
  have h64' (n : Nat) : n / 262144 = n / 64 / 64 / 64 := by rw [Nat.div_div_eq_div_mul, Nat.div_div_eq_div_mul]
  simp only [h64, h64']
  split_ifs <;> simp (disch := omega) only [List.cons_append, List.nil_append, ofNat_cons_lt] <;> omega

theorem flatMap_encode_lt {cs cs' : List Char} (h : cs < cs') :
    cs.flatMap String.utf8EncodeChar < cs'.flatMap String.utf8EncodeChar := by
  induction cs generalizing cs' with
  | nil =>
    cases cs' with
    | nil => exact absurd h (List.not_lt_nil _)
    | cons c' rest' =>
      obtain ⟨byte, later, hbytes⟩ := List.exists_cons_of_ne_nil (String.utf8EncodeChar_ne_nil (c := c'))
      rw [List.flatMap_nil, List.flatMap_cons, hbytes, List.cons_append]
      exact List.nil_lt_cons _ _
  | cons c rest ih =>
    cases cs' with
    | nil => exact absurd h (List.not_lt_nil _)
    | cons c' rest' =>
      rw [List.flatMap_cons, List.flatMap_cons]
      rcases List.cons_lt_cons_iff.1 h with hlt | ⟨rfl, hrest⟩
      · exact encode_lt hlt _ _
      · exact List.append_left_lt (ih hrest)

theorem bytes_lt_iff {a b : String} : bytes a < bytes b ↔ a < b := by
  have hbytes {a b : String} (h : a < b) : bytes a < bytes b := by
    rw [bytes_eq, bytes_eq]
    exact flatMap_encode_lt (String.lt_iff_toList_lt.1 h)
  refine ⟨fun h => ?_, hbytes⟩
  by_contra hnot
  rcases Decidable.em (b < a) with hlt | hnot'
  · exact List.lt_asymm h (hbytes hlt)
  · rw [String.le_antisymm (String.not_lt.1 hnot') (String.not_lt.1 hnot)] at h
    exact List.lt_irrefl _ h

end Missions.Text
