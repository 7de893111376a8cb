import Mathlib.Data.List.DropRight
import Switchboard.Controller.Address

/-!
# Addresses in normal form

An address is brought into the form that paths are appended to by cutting off blanks, then slashes,
and by putting a scheme in front if there is none. Whatever comes out has a scheme and no slash at
its end.

It may have a blank there, and that is where the form fails to be normal. Blanks are cut off before
slashes, so a blank in front of the slashes stays (`baseUrl?_blank`), and the address changes when
it is brought into the form again. This is the only thing that can go wrong
(`baseUrl?_eq_self_iff`): what ends in no blank is left as it is from then on.
-/

namespace Switchboard

namespace Text

variable {p : Char → Bool} {cs : List Char}

/-- Nothing is dropped exactly if the last character does not have the property. -/
theorem dropEndWhile_eq_self_iff : dropEndWhile p cs = cs ↔ ∀ c ∈ cs.getLast?, p c = false := by
  have last : cs.rdropWhile p = cs ↔ ∀ ne : cs ≠ [], ¬ p (cs.getLast ne) = true :=
    List.rdropWhile_eq_self_iff
  refine last.trans ⟨fun h c mem => ?_, fun h ne => ?_⟩
  · obtain ⟨ne, rfl⟩ := List.mem_getLast?_eq_getLast mem
    exact Bool.eq_false_iff.mpr (h ne)
  · exact Bool.eq_false_iff.mp (h _ (List.getLast_mem_getLast? ne))

/-- **What is left ends in no such character.** -/
theorem not_of_mem_getLast?_dropEndWhile {c : Char} (mem : c ∈ (dropEndWhile p cs).getLast?) :
    p c = false :=
  dropEndWhile_eq_self_iff.mp (List.rdropWhile_idempotent p cs) c mem

/-- What is left was there at the beginning. -/
theorem dropEndWhile_prefix (p : Char → Bool) (cs : List Char) : dropEndWhile p cs <+: cs :=
  List.rdropWhile_prefix p cs

/-- A text that begins with a character that is not blank is only trimmed at its end. -/
theorem trimmed_cons {c : Char} (visible : isBlank c = false) (cs : List Char) :
    trimmed (c :: cs) = dropEndWhile isBlank (c :: cs) := by
  rw [trimmed, List.dropWhile_cons_of_neg (Bool.eq_false_iff.mp visible)]

end Text

namespace Controller

variable {address s : String}

/-- The scheme that is put in front where there is none. -/
def scheme : List Char := ['h', 't', 't', 'p', ':', '/', '/']

/-- The other scheme that an address may have. -/
def secureScheme : List Char := ['h', 't', 't', 'p', 's', ':', '/', '/']

/-- **What is left of an address** when blanks and then slashes are cut off. -/
def bare (address : String) : List Char :=
  Text.dropEndWhile (· = '/') (Text.trimmed address.toList)

theorem withoutEndSlashes_trim (address : String) :
    withoutEndSlashes (Text.trim address) = String.ofList (bare address) := by
  rw [withoutEndSlashes, Text.trim, String.toList_ofList, bare]

theorem hasScheme_iff :
    hasScheme s = true ↔ scheme <+: s.toList ∨ secureScheme <+: s.toList := by
  rw [hasScheme, Bool.or_eq_true, String.startsWith_string_iff, String.startsWith_string_iff,
    show "http://".toList = scheme from rfl, show "https://".toList = secureScheme from rfl]

/-- **What an address is brought into**: what is left of it, with a scheme in front. -/
theorem baseUrl?_cases (h : baseUrl? address = some s) :
    bare address ≠ [] ∧
      (s.toList = bare address ∧ hasScheme s = true
        ∨ s.toList = scheme ++ bare address ∧ ¬ scheme <+: bare address) := by
  rw [baseUrl?, withoutEndSlashes_trim] at h
  split at h
  · cases h
  · rename_i visible
    refine ⟨fun nil => visible ?_, ?_⟩
    · rw [nil]
      rfl
    · split at h
      · rename_i has
        obtain rfl := Option.some.inj h
        exact .inl ⟨String.toList_ofList, has⟩
      · rename_i hasNone
        obtain rfl := Option.some.inj h
        rw [hasScheme_iff, not_or, String.toList_ofList (l := bare address)] at hasNone
        have put : ("http://" ++ String.ofList (bare address)).toList = scheme ++ bare address :=
          String.toList_append.trans (congrArg (scheme ++ ·) String.toList_ofList)
        exact .inr ⟨put, hasNone.1⟩

/-- **The result has a scheme.** -/
theorem hasScheme_of_baseUrl? (h : baseUrl? address = some s) : hasScheme s = true := by
  obtain ⟨-, ⟨-, has⟩ | ⟨put, -⟩⟩ := baseUrl?_cases h
  · exact has
  · exact hasScheme_iff.mpr (.inl (put ▸ List.prefix_append _ _))

/-- The result ends as what is left of the address does. -/
theorem getLast?_of_baseUrl? (h : baseUrl? address = some s) :
    s.toList.getLast? = (bare address).getLast? := by
  obtain ⟨ne, ⟨same, -⟩ | ⟨put, -⟩⟩ := baseUrl?_cases h
  · rw [same]
  · rw [put, List.getLast?_append_of_ne_nil _ ne]

/-- **The result ends in no slash.** -/
theorem ne_slash_of_baseUrl? (h : baseUrl? address = some s) :
    ∀ c ∈ s.toList.getLast?, c ≠ '/' := by
  intro c mem
  rw [getLast?_of_baseUrl? h] at mem
  exact of_decide_eq_false (Text.not_of_mem_getLast?_dropEndWhile mem)

/-- Nothing is blank at the beginning of an address with a scheme. -/
theorem trimmed_of_hasScheme (has : hasScheme s = true) :
    Text.trimmed s.toList = Text.dropEndWhile Text.isBlank s.toList := by
  rw [hasScheme_iff] at has
  obtain ⟨rest, same⟩ | ⟨rest, same⟩ := has
  · rw [← same]
    exact Text.trimmed_cons (by decide) _
  · rw [← same]
    exact Text.trimmed_cons (by decide) _

/-- **An address that is brought into the form a second time stays as it is exactly if it does not
end in a blank.** -/
theorem baseUrl?_eq_self_iff (h : baseUrl? address = some s) :
    baseUrl? s = some s ↔ ∀ c ∈ s.toList.getLast?, Text.isBlank c = false := by
  have has := hasScheme_of_baseUrl? h
  rw [← Text.dropEndWhile_eq_self_iff, ← trimmed_of_hasScheme has]
  have shorter : bare s <+: Text.trimmed s.toList := Text.dropEndWhile_prefix _ _
  have shortened : Text.trimmed s.toList <+: s.toList :=
    trimmed_of_hasScheme has ▸ Text.dropEndWhile_prefix _ _
  constructor
  · intro again
    obtain ⟨ne, ⟨same, -⟩ | ⟨put, bareScheme⟩⟩ := baseUrl?_cases again
    · have long : s.toList.length = (bare s).length := congrArg List.length same
      exact shortened.eq_of_length_le (long.le.trans shorter.length_le)
    · -- what is left begins like the address, but not with the scheme, so that it is inside of it
      have inside : bare s <+: scheme :=
        (List.prefix_or_prefix_of_prefix (shorter.trans shortened)
          (put ▸ List.prefix_append _ _)).resolve_right bareScheme
      rw [trimmed_of_hasScheme has, Text.dropEndWhile_eq_self_iff]
      intro c mem
      rw [put, List.getLast?_append_of_ne_nil _ ne] at mem
      have visible : (scheme.all fun c => !Text.isBlank c) = true := rfl
      simpa using List.all_eq_true.mp visible c (inside.subset (List.mem_of_getLast? mem))
  · intro trimmed
    have kept : bare s = s.toList := by
      rw [bare, trimmed, Text.dropEndWhile_eq_self_iff]
      exact fun c mem => decide_eq_false (ne_slash_of_baseUrl? h c mem)
    have visible : ¬ s.isEmpty = true := by
      rw [String.isEmpty_iff]
      rintro rfl
      rw [hasScheme_iff] at has
      exact absurd has (by decide)
    rw [baseUrl?, withoutEndSlashes_trim, kept, String.ofList_toList,
      if_neg visible, if_pos has]

/-- **What an address is brought into, and how far that is a normal form.** There is a scheme, and
no slash at the end. The result stays as it is when it is brought into the form again, exactly if no
blank is at its end; and that is so exactly if there is none in front of the slashes that are cut
off from the address without its blanks. -/
theorem baseUrl?_normal_iff (h : baseUrl? address = some s) :
    hasScheme s = true ∧ (∀ c ∈ s.toList.getLast?, c ≠ '/')
      ∧ (baseUrl? s = some s ↔ ∀ c ∈ s.toList.getLast?, Text.isBlank c = false)
      ∧ ((∀ c ∈ s.toList.getLast?, Text.isBlank c = false)
        ↔ ∀ c ∈ (bare address).getLast?, Text.isBlank c = false) := by
  refine ⟨hasScheme_of_baseUrl? h, ne_slash_of_baseUrl? h, baseUrl?_eq_self_iff h, ?_⟩
  rw [getLast?_of_baseUrl? h]

/-- **A blank in front of a slash stays**, and goes when the address is brought into the form
again. -/
theorem baseUrl?_blank :
    baseUrl? "relay.local /" = some "http://relay.local "
      ∧ baseUrl? "http://relay.local " = some "http://relay.local" := by
  decide +kernel

end Controller

end Switchboard
