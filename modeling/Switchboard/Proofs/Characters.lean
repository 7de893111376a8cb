import Mathlib.Data.List.Basic
import Switchboard.Json.Decode
import Switchboard.Proofs.ByteOrder

/-!
# Bytes that are text

What is read as bytes is read as the text that it is, if it is one (`Json.parseBytes_bytes`). That
it is one can be seen from its characters, since these lose nothing: bytes have no stray among them
exactly if they are those of a text, and the characters are then the ones of that text
(`Text.characters_eq_map_some_iff`).
-/

namespace Switchboard

namespace Text

variable {c : Char} {bs : List UInt8}

/-- The bytes of a character begin with it, whatever comes behind. -/
theorem leading?_append (c : Char) (bs : List UInt8) :
    leading? (String.utf8EncodeChar c ++ bs) = some c := by
  have le : (String.utf8EncodeChar c).length ≤ 4 :=
    String.length_utf8EncodeChar c ▸ c.utf8Size_le_four
  rw [leading?, List.take_append, List.take_of_length_le le, List.toByteArray_append]
  exact ByteArray.utf8DecodeChar?_utf8EncodeChar_append

/-- **Bytes that begin with a character** begin with the bytes of that character. -/
theorem exists_of_leading? (h : leading? bs = some c) :
    ∃ more, bs = String.utf8EncodeChar c ++ more := by
  obtain ⟨more, split⟩ := ByteArray.exists_of_utf8DecodeChar?_eq_some h
  have first : bs.take 4 = String.utf8EncodeChar c ++ more.data.toList := by
    have hdata := congrArg (fun b : ByteArray => b.data.toList) split
    simpa using hdata
  exact ⟨more.data.toList ++ bs.drop 4, by
    rw [← List.append_assoc, ← first, List.take_append_drop]⟩

/-- Bytes that have been read are passed over. -/
theorem charactersBehind_append (read bs : List UInt8) :
    charactersBehind read.length (read ++ bs) = characters bs := by
  induction read with
  | nil => rfl
  | cons b read ih => exact ih

/-- **The characters of a character's bytes** and of what comes behind. -/
theorem characters_append (c : Char) (bs : List UInt8) :
    characters (String.utf8EncodeChar c ++ bs) = some c :: characters bs := by
  have hleading := leading?_append c bs
  have hlength := String.length_utf8EncodeChar c
  cases hbytes : String.utf8EncodeChar c with
  | nil => exact absurd hbytes String.utf8EncodeChar_ne_nil
  | cons b read =>
    rw [hbytes] at hleading hlength
    have hread : c.utf8Size - 1 = read.length := by
      rw [← hlength]
      rfl
    rw [List.cons_append] at hleading ⊢
    rw [characters, charactersBehind, hleading]
    show some c :: charactersBehind (c.utf8Size - 1) (read ++ bs) = _
    rw [hread, charactersBehind_append]

/-- **Bytes without a stray are those of a text.** -/
theorem characters_eq_map_some_iff {cs : List Char} :
    characters bs = cs.map some ↔ bs = cs.flatMap String.utf8EncodeChar := by
  constructor
  · intro h
    induction cs generalizing bs with
    | nil =>
      cases bs with
      | nil => rfl
      | cons b bs =>
        rw [characters, charactersBehind] at h
        split at h
        · cases h
        · cases h
    | cons c cs ih =>
      cases bs with
      | nil => cases h
      | cons b bs =>
        have hfirst := h
        rw [characters, charactersBehind] at hfirst
        cases hleading : leading? (b :: bs) with
        | none =>
          rw [hleading] at hfirst
          cases hfirst
        | some d =>
          rw [hleading] at hfirst
          obtain rfl : d = c := Option.some.inj (List.cons.inj hfirst).1
          obtain ⟨more, hmore⟩ := exists_of_leading? hleading
          rw [hmore, characters_append] at h
          rw [hmore, ih (List.cons.inj h).2]
          rfl
  · rintro rfl
    induction cs with
    | nil => rfl
    | cons c cs ih => rw [List.flatMap_cons, characters_append, ih, List.map_cons]

theorem characters_bytes (s : String) : characters (bytes s) = s.toList.map some :=
  characters_eq_map_some_iff.mpr (bytes_eq_flatMap s)

end Text

namespace Json

/-- **The bytes of a text spell what it spells.** -/
theorem parseBytes_bytes (s : String) : parseBytes s = parse s := by
  rw [parseBytes, tokensOfBytes?, Text.characters_bytes, List.foldlM_map]
  rfl

theorem Decoder.runBytes_bytes {α : Type} (d : Decoder α) (s : String) :
    d.runBytes s = d.run s := by
  rw [runBytes, parseBytes_bytes]
  rfl

end Json

end Switchboard
