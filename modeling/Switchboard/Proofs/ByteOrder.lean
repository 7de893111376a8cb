import Mathlib.Data.List.Basic
import Switchboard.Text.Utf8

/-!
# The order of bytes is the order of characters

Rows are compared by the bytes of their texts. Because of how UTF-8 counts, that is
the same as comparing texts by their characters: a character with a greater code point
has greater bytes (`utf8EncodeChar_lt`), also where it needs more of them, so whatever
comes behind two different characters does not matter any more.
-/

namespace Switchboard.Text

theorem bytes_eq_flatMap (s : String) : bytes s = s.toList.flatMap String.utf8EncodeChar := by
  rw [bytes, ← String.utf8Encode_toList, List.utf8Encode, List.toList_data_toByteArray]

theorem ofNat_lt_ofNat {m n : Nat} (hm : m < 256) (hn : n < 256) :
    UInt8.ofNat m < UInt8.ofNat n ↔ m < n := by
  rw [UInt8.lt_iff_toNat_lt, UInt8.toNat_ofNat', UInt8.toNat_ofNat',
    Nat.mod_eq_of_lt hm, Nat.mod_eq_of_lt hn]

theorem ofNat_eq_ofNat {m n : Nat} (hm : m < 256) (hn : n < 256) :
    UInt8.ofNat m = UInt8.ofNat n ↔ m = n := by
  rw [← UInt8.toNat_inj, UInt8.toNat_ofNat', UInt8.toNat_ofNat',
    Nat.mod_eq_of_lt hm, Nat.mod_eq_of_lt hn]

theorem toNat_lt_of_char (c : Char) : c.val.toNat < 0x110000 := by
  have h : c.val.toNat < 0xd800 ∨ 0xdfff < c.val.toNat ∧ c.val.toNat < 0x110000 := c.valid
  omega

/-- **The greater character has the greater bytes**, whatever comes behind. -/
theorem utf8EncodeChar_lt {c d : Char} (h : c < d) (xs ys : List UInt8) :
    String.utf8EncodeChar c ++ xs < String.utf8EncodeChar d ++ ys := by
  have hlt : c.val.toNat < d.val.toNat := h
  have hmax := toNat_lt_of_char d
  unfold String.utf8EncodeChar
  generalize c.val.toNat = v at hlt
  generalize d.val.toNat = w at hlt hmax
  dsimp only
  -- as many bytes for either, or else the first byte tells them apart
  by_cases h1 : w ≤ 0x7f
  · rw [if_pos h1, if_pos (show v ≤ 0x7f by omega)]
    simp (disch := omega) only [List.cons_append, List.cons_lt_cons_iff, ofNat_lt_ofNat]
    exact .inl hlt
  rw [if_neg h1]
  by_cases h2 : w ≤ 0x7ff
  · rw [if_pos h2]
    split
    · simp (disch := omega) only [List.cons_append, List.cons_lt_cons_iff, ofNat_lt_ofNat]
      omega
    · rw [if_pos (show v ≤ 0x7ff by omega)]
      simp (disch := omega) only [List.cons_append, List.cons_lt_cons_iff, ofNat_lt_ofNat,
        ofNat_eq_ofNat]
      omega
  rw [if_neg h2]
  by_cases h3 : w ≤ 0xffff
  · rw [if_pos h3]
    split
    · simp (disch := omega) only [List.cons_append, List.cons_lt_cons_iff, ofNat_lt_ofNat]
      omega
    · split
      · simp (disch := omega) only [List.cons_append, List.cons_lt_cons_iff, ofNat_lt_ofNat]
        omega
      · rw [if_pos (show v ≤ 0xffff by omega)]
        simp (disch := omega) only [List.cons_append, List.cons_lt_cons_iff, ofNat_lt_ofNat,
          ofNat_eq_ofNat]
        omega
  · rw [if_neg h3]
    split
    · simp (disch := omega) only [List.cons_append, List.cons_lt_cons_iff, ofNat_lt_ofNat]
      omega
    · split
      · simp (disch := omega) only [List.cons_append, List.cons_lt_cons_iff, ofNat_lt_ofNat]
        omega
      · split
        · simp (disch := omega) only [List.cons_append, List.cons_lt_cons_iff, ofNat_lt_ofNat]
          omega
        · simp (disch := omega) only [List.cons_append, List.cons_lt_cons_iff, ofNat_lt_ofNat,
            ofNat_eq_ofNat]
          -- the first of four digits in which the two differ decides
          by_cases h18 : v / 262144 = w / 262144
          · refine .inr ⟨by omega, ?_⟩
            by_cases h12 : v / 4096 = w / 4096
            · refine .inr ⟨by omega, ?_⟩
              omega
            · exact .inl (by omega)
          · exact .inl (by omega)

/-- A common beginning does not matter. -/
theorem append_lt_append_left (bs : List UInt8) {xs ys : List UInt8} (h : xs < ys) :
    bs ++ xs < bs ++ ys := by
  induction bs with
  | nil => exact h
  | cons b bs ih => exact List.cons_lt_cons_iff.mpr (.inr ⟨rfl, ih⟩)

theorem flatMap_utf8EncodeChar_lt {cs ds : List Char} (h : cs < ds) :
    cs.flatMap String.utf8EncodeChar < ds.flatMap String.utf8EncodeChar := by
  induction cs generalizing ds with
  | nil =>
    cases ds with
    | nil => exact absurd h (List.lt_irrefl [])
    | cons d ds =>
      rw [List.flatMap_nil, List.flatMap_cons]
      cases hd : String.utf8EncodeChar d with
      | nil => exact absurd hd String.utf8EncodeChar_ne_nil
      | cons b bs => exact List.nil_lt_cons b _
  | cons c cs ih =>
    cases ds with
    | nil => exact absurd h (List.not_lt_nil _)
    | cons d ds =>
      rw [List.flatMap_cons, List.flatMap_cons]
      rcases List.cons_lt_cons_iff.mp h with hlt | ⟨rfl, hlt⟩
      · exact utf8EncodeChar_lt hlt _ _
      · exact append_lt_append_left _ (ih hlt)

/-- **Texts are in the order of their bytes.** -/
theorem lt_iff_bytes_lt (a b : String) : a < b ↔ bytes a < bytes b := by
  have hmono : ∀ {a b : String}, a < b → bytes a < bytes b := by
    intro a b h
    rw [bytes_eq_flatMap, bytes_eq_flatMap]
    exact flatMap_utf8EncodeChar_lt (String.lt_iff.mp h)
  refine ⟨hmono, fun h => ?_⟩
  rcases Std.lt_trichotomy a b with hlt | rfl | hgt
  · exact hlt
  · exact absurd h (List.lt_irrefl _)
  · exact absurd h (List.lt_asymm (hmono hgt))

end Switchboard.Text
