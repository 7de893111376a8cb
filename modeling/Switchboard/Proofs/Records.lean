import Switchboard.Json.Decode

/-!
# Records of small numbers

A body of the controller is a record that gives numbers below 256 to some names. This module says
which bodies are such a record (`Json.Tells`), by what stands in them and not by how they are read:
an object in which each of the names comes once, with its number, among members of other names; or
an array of just the numbers, in the order of their names.

Reading is strict about one thing that nobody asks for: every name of an object has to be text.
-/

namespace Switchboard.Json

variable {names : List String} {members : List (Option String × Json)} {found : Fields}
  {name : String}

/-! ## The members of an object -/

/-- The members of an object that have a name. -/
def named (name : String) (members : List (Option String × Json)) : List (Option String × Json) :=
  members.filter fun m => m.1 = some name

theorem named_cons_self (v : Json) :
    named name ((some name, v) :: members) = (some name, v) :: named name members :=
  List.filter_cons_of_pos (decide_eq_true rfl)

theorem named_cons_of_ne {k : String} (v : Json) (ne : k ≠ name) :
    named name ((some k, v) :: members) = named name members :=
  List.filter_cons_of_neg (by simpa using ne)

/-- An object whose members are read has text for every name. -/
theorem ne_none_of_knownMembers? (h : knownMembers? names members = some found) :
    ∀ m ∈ members, m.1 ≠ none := by
  induction members generalizing found with
  | nil => exact nofun
  | cons m members ih =>
    obtain ⟨_ | k, v⟩ := m
    · cases h
    · refine List.forall_mem_cons.mpr ⟨Option.some_ne_none k, ?_⟩
      rw [knownMembers?] at h
      split at h
      · obtain ⟨rest, read, -⟩ := Option.bind_eq_some_iff.mp h
        exact ih read
      · exact ih h

/-- **What is found under a known name** is the one member of that name, if there is one. -/
theorem named_of_knownMembers? (h : knownMembers? names members = some found)
    (known : name ∈ names) :
    named name members = ((found.lookup name).map fun v => (some name, v)).toList := by
  induction members generalizing found with
  | nil =>
    obtain rfl := Option.some.inj h
    rfl
  | cons m members ih =>
    obtain ⟨_ | k, v⟩ := m
    · cases h
    · rw [knownMembers?] at h
      split at h
      · obtain ⟨rest, read, h⟩ := Option.bind_eq_some_iff.mp h
        split at h
        · cases h
        · rename_i fresh
          obtain rfl := Option.some.inj h
          by_cases same : k = name
          · subst same
            rw [Option.not_isSome_iff_eq_none] at fresh
            rw [named_cons_self, ih read, fresh, List.lookup_cons_self]
            rfl
          · have other : (name == k) = false := beq_false_of_ne (Ne.symm same)
            rw [named_cons_of_ne v same, ih read, List.lookup_cons, other]
      · rename_i unknown
        have other : k ≠ name := fun same => unknown (same.symm ▸ known)
        rw [named_cons_of_ne v other]
        exact ih h

/-- **The members of an object are read** if their names are text, and no known name comes twice. -/
theorem exists_knownMembers? (text : ∀ m ∈ members, m.1 ≠ none)
    (once : ∀ name ∈ names, (named name members).length ≤ 1) :
    ∃ found, knownMembers? names members = some found := by
  induction members with
  | nil => exact ⟨[], rfl⟩
  | cons m members ih =>
    obtain ⟨_ | k, v⟩ := m
    · exact absurd rfl (text _ List.mem_cons_self)
    · obtain ⟨rest, read⟩ := ih (fun m mem => text m (List.mem_cons_of_mem _ mem)) fun name known =>
        Nat.le_trans ((List.sublist_cons_self _ _).filter _).length_le (once name known)
      rw [knownMembers?]
      by_cases known : k ∈ names
      · have alone := once k known
        rw [named_cons_self, named_of_knownMembers? read known] at alone
        have fresh : rest.lookup k = none := by
          cases lookup : rest.lookup k with
          | none => rfl
          | some w =>
            rw [lookup] at alone
            exact absurd alone (by simp)
        rw [if_pos known, read]
        show ∃ found, (if (rest.lookup k).isSome then none else some ((k, v) :: rest)) = some found
        rw [fresh]
        exact ⟨_, rfl⟩
      · rw [if_neg known]
        exact ⟨rest, read⟩

/-! ## Giving numbers to names -/

/-- **A value gives numbers to names.** -/
inductive Gives (told : List (String × Nat)) : Json → Prop where
  /-- By an object in which each of the names comes once, with its number. -/
  | object {members : List (Option String × Json)} (text : ∀ m ∈ members, m.1 ≠ none)
      (once : ∀ t ∈ told, named t.1 members = [(some t.1, .nat t.2)]) : Gives told (.obj members)
  /-- By an array of the numbers. -/
  | array : Gives told (.arr (told.map fun t => .nat t.2))

/-- The one member of a record that has a name. -/
theorem named_record {ms : Fields} {v : Json} (unique : (ms.map Prod.fst).Nodup)
    (has : ms.lookup name = some v) :
    named name (ms.map fun m => (some m.1, m.2)) = [(some name, v)] := by
  induction ms with
  | nil => cases has
  | cons m ms ih =>
    obtain ⟨k, w⟩ := m
    obtain ⟨fresh, unique⟩ := List.nodup_cons.mp unique
    rw [List.map_cons]
    by_cases same : k = name
    · subst same
      rw [List.lookup_cons_self] at has
      obtain rfl := Option.some.inj has
      have alone : named k (ms.map fun m => (some m.1, m.2)) = [] := by
        refine List.filter_eq_nil_iff.mpr fun m mem => ?_
        obtain ⟨q, hq, rfl⟩ := List.mem_map.mp mem
        have mem : q.1 ∈ ms.map Prod.fst := List.mem_map_of_mem hq
        have other : q.1 ≠ k := fun same => fresh (same ▸ mem)
        simpa using other
      rw [named_cons_self, alone]
    · rw [List.lookup_cons, beq_false_of_ne (Ne.symm same)] at has
      rw [named_cons_of_ne w same]
      exact ih unique has

/-- **A record with distinct names gives the numbers that are found in it.** -/
theorem gives_record {told : List (String × Nat)} {ms : Fields}
    (unique : (ms.map Prod.fst).Nodup) (has : ∀ t ∈ told, ms.lookup t.1 = some (.nat t.2)) :
    (Json.record ms).Gives told := by
  refine .object (List.forall_mem_map.mpr fun m _ => Option.some_ne_none m.1) fun t mem => ?_
  exact named_record unique (has t mem)

/-- **A body tells numbers below 256 of names.** -/
def Tells (body : List UInt8) (told : List (String × Nat)) : Prop :=
  ∃ v, parseBytes body = some v ∧ v.Gives told ∧ ∀ t ∈ told, t.2 ≤ 255

theorem byte_eq_some_iff {depth n : Nat} {v : Json} :
    Decoder.byte depth v = some n ↔ v = .nat n ∧ n ≤ 255 := by
  cases v with
  | int i =>
    show (if 0 ≤ i ∧ i ≤ 255 then some i else none).map Int.toNat = some n ↔ Json.int i = .int n ∧ _
    rw [Json.int.injEq]
    split
    · rw [Option.map_some, Option.some.injEq]
      omega
    · rw [Option.map_none]
      refine ⟨nofun, fun ⟨same, le⟩ => ?_⟩
      omega
  | _ => exact ⟨nofun, nofun⟩

/-- Numbers are looked up in an array by their names, if these are distinct. -/
theorem zip_lookup_iff {told : List (String × Nat)} {items : List Json}
    (unique : (told.map Prod.fst).Nodup) (length : items.length = told.length) :
    (∀ t ∈ told, ((told.map Prod.fst).zip items).lookup t.1 = some (.nat t.2))
      ↔ items = told.map fun t => .nat t.2 := by
  induction told generalizing items with
  | nil => simpa using length
  | cons t told ih =>
    cases items with
    | nil => cases length
    | cons v items =>
      obtain ⟨fresh, unique⟩ := List.nodup_cons.mp unique
      have others : ∀ q ∈ told,
          (((t :: told).map Prod.fst).zip (v :: items)).lookup q.1
            = ((told.map Prod.fst).zip items).lookup q.1 := by
        intro q mem
        have other : (q.1 == t.1) = false :=
          beq_false_of_ne fun same => fresh (same ▸ List.mem_map_of_mem mem)
        rw [List.map_cons, List.zip_cons_cons, List.lookup_cons, other]
      rw [List.forall_mem_cons, List.map_cons, List.zip_cons_cons, List.lookup_cons_self,
        List.map_cons, List.cons.injEq, Option.some.injEq, ← ih unique (Nat.succ.inj length)]
      refine and_congr_right fun _ => forall₂_congr fun q mem => ?_
      rw [← others q mem]
      rfl

/-- A field is read as a byte if it is found and holds one. -/
theorem required_byte_eq_some_iff {found : Fields} {name : String} {n depth : Nat} :
    found.required name Decoder.byte depth = some n
      ↔ found.lookup name = some (.nat n) ∧ n ≤ 255 := by
  rw [Fields.required, Option.bind_eq_bind, Option.bind_eq_some_iff]
  simp only [byte_eq_some_iff]
  exact ⟨fun ⟨v, lookup, same, le⟩ => ⟨same ▸ lookup, le⟩,
    fun ⟨lookup, le⟩ => ⟨_, lookup, rfl, le⟩⟩

/-- **A record is read as the numbers that it gives.** -/
theorem required_iff_gives {told : List (String × Nat)} (unique : (told.map Prod.fst).Nodup)
    (depth : Nat) (v : Json) :
    (∃ found, fields? (told.map Prod.fst) told.length v = some found
        ∧ ∀ t ∈ told, found.required t.1 Decoder.byte depth = some t.2)
      ↔ v.Gives told ∧ ∀ t ∈ told, t.2 ≤ 255 := by
  have known {t : String × Nat} (mem : t ∈ told) : t.1 ∈ told.map Prod.fst :=
    List.mem_map_of_mem mem
  simp only [required_byte_eq_some_iff, forall_and]
  constructor
  · rintro ⟨found, read, lookup, le⟩
    refine ⟨?_, le⟩
    cases v with
    | obj members =>
      refine .object (ne_none_of_knownMembers? read) fun t mem => ?_
      rw [named_of_knownMembers? read (known mem), lookup t mem]
      rfl
    | arr items =>
      rw [fields?] at read
      split at read
      · rename_i lengths
        rw [List.length_map] at lengths
        obtain rfl := Option.some.inj read
        rw [(zip_lookup_iff unique (Nat.le_antisymm lengths.2 lengths.1)).mp lookup]
        exact .array
      · cases read
    | _ => cases read
  · rintro ⟨gives, le⟩
    cases gives with
    | object text once =>
      obtain ⟨found, read⟩ := exists_knownMembers? text
        (List.forall_mem_map.mpr fun t mem => Nat.le_of_eq (congrArg List.length (once t mem)))
      refine ⟨found, read, fun t mem => ?_, le⟩
      have alone := (named_of_knownMembers? read (known mem)).symm.trans (once t mem)
      cases lookup : found.lookup t.1 with
      | none =>
        rw [lookup] at alone
        cases alone
      | some v =>
        rw [lookup] at alone
        cases alone
        rfl
    | array =>
      refine ⟨_, if_pos (by simp), ?_, le⟩
      exact (zip_lookup_iff unique (List.length_map _)).mpr rfl

/-- **A record is read of a body** by way of its fields. -/
theorem runBytes_record_eq_some_iff {α : Type} {least : Nat} {build : Nat → Fields → Option α}
    {body : List UInt8} {x : α} :
    (Decoder.record names least build).runBytes body = some x ↔
      ∃ v, parseBytes body = some v ∧ ∃ found, fields? names least v = some found
        ∧ build 126 found = some x := by
  rw [Decoder.runBytes, Option.bind_eq_bind, Option.bind_eq_some_iff]
  refine exists_congr fun v => and_congr_right fun _ => ?_
  exact Option.bind_eq_some_iff

end Switchboard.Json
