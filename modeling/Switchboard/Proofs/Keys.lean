import Switchboard.Console.Station
import Switchboard.Proofs.Damage

/-!
# What a key means

Programs are called by keys, and a key may be an identifier or a name. Both are arbitrary texts:
names repeat, and a program may be named like the identifier of another. `Collection.Means` says
which program a key means all the same, without a word about lists: an identifier goes before
every name, and of the programs of one name goes the one whose identifier comes first.

A catalog finds that program, since its lists have programs of one name in the order of their
identifiers (`Program.first_of_find?`). Whether the program may be run is only asked once it is
found, so that another one of its name never takes its place.
-/

namespace Switchboard

namespace Collection

variable {m : Collection} {key : String} {p q : Program}

/-- **The program that a key means**: the one with that identifier, and if there is none, the one
of that name whose identifier comes first by its bytes. -/
inductive Means (m : Collection) (key : String) : Program → Prop where
  /-- The key is an identifier. -/
  | identifier {p : Program} (found : m.lookup p.id = some p) (called : p.id = key) : Means m key p
  /-- The key is no identifier, but it is a name. -/
  | name {p : Program} (absent : m.lookup key = none) (found : m.lookup p.id = some p)
      (named : p.name = key) (first : ∀ q, m.lookup q.id = some q → q.name = key →
        q = p ∨ Text.bytes p.id < Text.bytes q.id) : Means m key p

/-- **A key means nothing** if it is neither the identifier nor the name of a program. -/
def IsUnknown (m : Collection) (key : String) : Prop :=
  m.lookup key = none ∧ ∀ p, m.lookup p.id = some p → p.name ≠ key

/-- **A key means one program.** -/
theorem Means.unique (hp : m.Means key p) (hq : m.Means key q) : p = q := by
  cases hp with
  | identifier found called =>
    cases hq with
    | identifier found' called' =>
      rw [called', ← called, found] at found'
      exact Option.some.inj found'
    | name absent =>
      rw [← called, found] at absent
      cases absent
  | name absent found named first =>
    cases hq with
    | identifier found' called =>
      rw [← called, found'] at absent
      cases absent
    | name _ found' named' first' =>
      rcases first q found' named' with same | before
      · exact same.symm
      · rcases first' p found named with same | after
        · exact same
        · exact absurd after (Std.not_gt_of_lt before)

/-- A key that means a program is known. -/
theorem Means.not_isUnknown (h : m.Means key p) : ¬ m.IsUnknown key := by
  rintro ⟨absent, unnamed⟩
  cases h with
  | identifier found called =>
    rw [← called, found] at absent
    cases absent
  | name _ found named => exact unnamed p found named

end Collection

/-- **The first program of a name in a sorted list** is the one whose identifier comes first. -/
theorem Program.first_of_find? {ps : List Program} (sorted : ps.Pairwise Program.Precedes)
    {key : String} {p : Program} (h : ps.find? (·.name = key) = some p) :
    p ∈ ps ∧ p.name = key
      ∧ ∀ q ∈ ps, q.name = key → q = p ∨ Text.bytes p.id < Text.bytes q.id := by
  obtain ⟨named, before, after, rfl, others⟩ := List.find?_eq_some_iff_append.mp h
  have named : p.name = key := of_decide_eq_true named
  refine ⟨List.mem_append_right _ List.mem_cons_self, named, fun q mem same => ?_⟩
  rcases List.mem_append.mp mem with mem | mem
  · exact absurd same (by simpa using others q mem)
  · rcases List.mem_cons.mp mem with rfl | mem
    · exact .inl rfl
    · have precedes : p.Precedes q :=
        (List.pairwise_cons.mp (List.pairwise_append.mp sorted).2.1).1 q mem
      rcases precedes with less | ⟨-, less⟩
      · rw [named, same] at less
        exact absurd less Std.lt_irrefl
      · exact .inr less

namespace Catalog

variable {c : Catalog} {m : Collection}

/-- A program is not too deep if its row can be read. -/
theorem Holds.shallow_of_readable (h : c.Holds m) (readable : ∀ r ∈ c.rows, r.IsReadable)
    (id : ProgramId) (p : Program) (found : m.lookup id = some p) : p.Shallow := by
  have mem : Row.ofProgram p ∈ c.rows := by
    refine (h.mem_rows _).mpr ⟨p, ?_, rfl⟩
    rwa [show (Row.ofProgram p).id = id from h.id_eq found]
  have read := (Row.isSome_toProgram? c.ids _).mpr (readable _ mem)
  rw [h.toProgram? found] at read
  by_contra deep
  rw [if_neg deep] at read
  cases read

/-- **A key is resolved to what it means**, or to nothing. -/
theorem Holds.resolve_cases (h : c.Holds m)
    (shallow : ∀ id p, m.lookup id = some p → p.Shallow) (key : String) :
    (∃ p, m.Means key p ∧ c.resolve key = .ok p)
      ∨ m.IsUnknown key ∧ c.resolve key = .error (.notFound key) := by
  unfold resolve
  rw [h.find?, Collection.find?_of_shallow shallow]
  cases found : m.lookup key with
  | some p =>
    obtain rfl := h.id_eq found
    exact .inl ⟨p, .identifier found rfl, rfl⟩
  | none =>
    obtain ⟨ps, -, sorted, mem, -, byName⟩ := (h.shows shallow).lists
    dsimp only
    rw [byName]
    cases first : ps.find? (·.name = key) with
    | some p =>
      obtain ⟨hp, named, least⟩ := Program.first_of_find? sorted first
      exact .inl ⟨p, .name found ((mem p).mp hp) named
        fun q hq same => least q ((mem q).mpr hq) same, rfl⟩
    | none =>
      refine .inr ⟨⟨found, fun p hp named => ?_⟩, rfl⟩
      rw [List.find?_eq_none] at first
      exact first p ((mem p).mpr hp) (decide_eq_true named)

/-- A key is resolved to the program that it means. -/
theorem Holds.resolve_eq_ok_iff (h : c.Holds m)
    (shallow : ∀ id p, m.lookup id = some p → p.Shallow) {key : String} {p : Program} :
    c.resolve key = .ok p ↔ m.Means key p := by
  obtain ⟨q, means, answer⟩ | ⟨unknown, answer⟩ := h.resolve_cases shallow key
  · rw [answer, Except.ok.injEq]
    exact ⟨fun same => same ▸ means, means.unique⟩
  · rw [answer]
    exact ⟨nofun, fun means => absurd unknown means.not_isUnknown⟩

/-- A key is not found exactly if it means nothing, and nothing else goes wrong. -/
theorem Holds.resolve_eq_error_iff (h : c.Holds m)
    (shallow : ∀ id p, m.lookup id = some p → p.Shallow) {key : String} {f : HubFault} :
    c.resolve key = .error f ↔ f = .notFound key ∧ m.IsUnknown key := by
  obtain ⟨q, means, answer⟩ | ⟨unknown, answer⟩ := h.resolve_cases shallow key
  · rw [answer]
    exact ⟨nofun, fun other => absurd other.2 means.not_isUnknown⟩
  · rw [answer, Except.error.injEq, eq_comm]
    exact ⟨fun same => ⟨same, unknown⟩, And.left⟩

/-- **What may be run is what is resolved and enabled.** -/
theorem runnable_eq_ok_iff {key : String} {p : Program} :
    c.runnable key = .ok p ↔ c.resolve key = .ok p ∧ p.enabled = true := by
  unfold runnable
  cases c.resolve key with
  | error f => exact ⟨nofun, nofun⟩
  | ok q =>
    dsimp only
    rw [Except.ok.injEq]
    by_cases on : q.enabled = true
    · rw [if_pos on, Except.ok.injEq]
      exact ⟨fun same => ⟨same, same ▸ on⟩, And.left⟩
    · rw [if_neg on]
      exact ⟨nofun, fun ⟨same, enabled⟩ => absurd (same ▸ enabled) on⟩

/-- **Nothing may be run** if nothing is resolved, or something that is disabled. -/
theorem runnable_eq_error {key : String} {f : HubFault} :
    c.runnable key = .error f ↔ c.resolve key = .error f
      ∨ ∃ p, f = .disabled p.id ∧ c.resolve key = .ok p ∧ p.enabled = false := by
  unfold runnable
  cases c.resolve key with
  | error g => exact ⟨.inl, fun h => h.resolve_right nofun⟩
  | ok q =>
    dsimp only
    by_cases on : q.enabled = true
    · rw [if_pos on]
      refine ⟨nofun, fun h => ?_⟩
      obtain ⟨p, -, same, off⟩ := h.resolve_left nofun
      rw [← Except.ok.inj same, on] at off
      cases off
    · rw [if_neg on, Except.error.injEq]
      refine ⟨fun same => .inr ⟨q, same.symm, rfl, Bool.eq_false_iff.mpr on⟩, fun h => ?_⟩
      obtain ⟨p, rfl, same, -⟩ := h.resolve_left nofun
      rw [Except.ok.inj same]

/-- **What a catalog makes of keys.** -/
structure Understands (c : Catalog) (m : Collection) : Prop where
  /-- A key is resolved to the program that it means. -/
  resolve : ∀ key p, c.resolve key = .ok p ↔ m.Means key p
  /-- Only a key that means nothing is not found, and nothing else goes wrong. -/
  resolve_error : ∀ key f, c.resolve key = .error f ↔ f = .notFound key ∧ m.IsUnknown key
  /-- The program that a key means can be run if it is enabled. -/
  runnable : ∀ key p, c.runnable key = .ok p ↔ m.Means key p ∧ p.enabled = true
  /-- If it is disabled, that is the answer, and no other program is looked for. -/
  runnable_error : ∀ key f, c.runnable key = .error f ↔
    f = .notFound key ∧ m.IsUnknown key
      ∨ ∃ p, f = .disabled p.id ∧ m.Means key p ∧ p.enabled = false
  /-- What is not found to be run is not found at all. -/
  notFound : ∀ key other, c.runnable key = .error (.notFound other) ↔
    c.resolve key = .error (.notFound other)
  /-- Whoever asks for a run of a disabled program gets that answer, and no engine is started. -/
  run : ∀ {δ : Type} (w : Console.Wiring δ) (began : Int) (wish : Console.Wish δ) (key : String)
    (x : Console.Station δ) (p : Program), x.database.catalog = c → m.Means key p →
    p.enabled = false → x.run w began wish key = (.failed (.hub (.disabled p.id)), x)

/-- **A catalog that holds a collection understands its keys**, if all of it can be read. -/
theorem Holds.understands (h : c.Holds m) (shallow : ∀ id p, m.lookup id = some p → p.Shallow) :
    c.Understands m := by
  have resolve (key : String) (p : Program) : c.resolve key = .ok p ↔ m.Means key p :=
    h.resolve_eq_ok_iff shallow
  have resolve_error (key : String) (f : HubFault) :
      c.resolve key = .error f ↔ f = .notFound key ∧ m.IsUnknown key :=
    h.resolve_eq_error_iff shallow
  refine ⟨resolve, resolve_error, fun key p => ?_, fun key f => ?_, fun key other => ?_,
    fun w began wish key x p same means off => ?_⟩
  · rw [runnable_eq_ok_iff, resolve]
  · simp only [runnable_eq_error, resolve_error, resolve]
  · rw [runnable_eq_error]
    exact or_iff_left fun ⟨_, disabled, _⟩ => nomatch disabled
  · have answer : x.database.catalog.runnable key = .error (.disabled p.id) := by
      rw [same, runnable_eq_error]
      exact .inr ⟨p, rfl, (resolve key p).mpr means, off⟩
    rw [Console.Station.run, answer]

/-- **Keys are understood after every history** of which each row can be read: an identifier goes
before names, of programs of one name goes the one whose identifier comes first, and a disabled
program is never run, nor another in its place. -/
theorem understands_keys (ids : IdSupply) (ws : List Write)
    (readable : ∀ r ∈ ((Catalog.empty ids).after ws).rows, r.IsReadable) :
    ((Catalog.empty ids).after ws).Understands ((Catalog.empty ids).accepted ∅ ws) := by
  have h : ((Catalog.empty ids).after ws).Holds ((Catalog.empty ids).accepted ∅ ws) :=
    (Holds.empty ids).after ws
  exact h.understands (h.shallow_of_readable readable)

/-- A program whose name is the identifier of another. -/
def dawn : Program := ⟨"dawn", "dusk", true, [.wait "wait" (.fixed 5)]⟩

/-- A program that must not be run. -/
def dusk : Program := ⟨"dusk", "Dusk", false, [.wait "wait" (.fixed 5)]⟩

/-- The key means the disabled program of that identifier, and not the enabled one of that name. -/
theorem understands_keys_dusk :
    let c := (Catalog.empty ⟨0⟩).after [.create dawn, .create dusk]
    (∀ r ∈ c.rows, r.IsReadable) ∧ c.resolve "dusk" = .ok dusk
      ∧ c.runnable "dusk" = .error (.disabled "dusk") ∧ c.runnable "dawn" = .ok dawn := by
  intro c
  have rows : c.rows = [.ofProgram dawn, .ofProgram dusk] := rfl
  have readable {p : Program} (valid : p.validate = .ok ()) (shallow : p.Shallow) :
      (Row.ofProgram p).IsReadable :=
    Row.isReadable_ofProgram ((Program.validate_eq_ok_iff p).mp valid) shallow
  have all : ∀ r ∈ c.rows, r.IsReadable := by
    rw [rows, List.forall_mem_cons, List.forall_mem_singleton]
    exact ⟨readable rfl (by decide), readable rfl (by decide)⟩
  have understands := understands_keys ⟨0⟩ [.create dawn, .create dusk] all
  exact ⟨all, (understands.resolve "dusk" dusk).mpr (.identifier rfl rfl),
    (understands.runnable_error _ _).mpr (.inr ⟨dusk, rfl, .identifier rfl rfl, rfl⟩),
    (understands.runnable _ _).mpr ⟨.identifier rfl rfl, rfl⟩⟩

end Catalog

end Switchboard
