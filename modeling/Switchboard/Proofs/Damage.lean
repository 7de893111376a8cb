import Switchboard.Proofs.Collection
import Switchboard.Proofs.StepRules

/-!
# The reach of a damaged row

A row that someone else wrote may hold a text that lists no steps. What such a row does to the
operations of a catalog depends on which rows they read before they answer or write. This
module says which: those that look for one identifier read the row that has it, lists read
every row that they would answer, and looking for a name reads the whole table.

Whether a row can be read must not depend on the identifiers that are minted for its steps,
since a list mints for one row after the other. The rules for steps do not look at
identifiers: they hold of steps whose identifiers are taken away (`erased`) if they hold of the
steps, and what is minted for them makes no difference to what is left then.
-/

namespace Switchboard

/-! ## Rules do not look at identifiers -/

namespace StepDocument

variable {ι κ : Type}

/-- The rules for a step look at no identifier. -/
theorem sound_rename (f : ι → κ) (d : StepDocument ι) : (d.rename f).Sound ↔ d.Sound := by
  obtain ⟨i, type, r, a, dt, dur, lo, hi, n, body⟩ := d
  rw [rename]
  constructor
  · intro h
    generalize hb : renameBody f body = body' at h
    cases h with
    | relay typed output state => exact .relay typed output state
    | fixed typed fixed nonneg => exact .fixed typed fixed nonneg
    | random typed random nonneg ordered => exact .random typed random nonneg ordered
    | loop typed counted =>
      match body with
      | some steps => exact .loop typed counted
  · intro h
    cases h with
    | relay typed output state => exact .relay typed output state
    | fixed typed fixed nonneg => exact .fixed typed fixed nonneg
    | random typed random nonneg ordered => exact .random typed random nonneg ordered
    | loop typed counted => exact .loop typed counted

mutual

/-- Steps are reached in the same order, whatever they are called. -/
theorem reached_rename (f : ι → κ) (d : StepDocument ι) :
    reached (d.rename f) = (reached d).map (rename f) := by
  match d with
  | mk i type r a dt dur lo hi n body =>
    rw [reached, List.map_cons, rename, reached, reachedBody_rename]
    split <;> rfl

theorem reachedBody_rename (f : ι → κ) (body : Option (List (StepDocument ι))) :
    reachedBody (renameBody f body) = (reachedBody body).map (rename f) := by
  match body with
  | none => rfl
  | some steps => exact reachedAll_rename f steps

theorem reachedAll_rename (f : ι → κ) (ds : List (StepDocument ι)) :
    reachedAll (renameAll f ds) = (reachedAll ds).map (rename f) := by
  match ds with
  | [] => rfl
  | d :: ds =>
    rw [renameAll, reachedAll, reachedAll, List.map_append, reached_rename, reachedAll_rename]

end

/-- Steps with their identifiers taken away. -/
def erasedAll (ds : List (StepDocument ι)) : List (StepDocument Unit) := renameAll (fun _ => ()) ds

mutual

/-- **What is minted for a step is gone** when identifiers are taken away. -/
theorem rename_identify (supply : IdSupply) (d : StepDocument (Option String)) :
    (d.identify supply).1.rename (fun _ => ()) = d.rename fun _ => () := by
  match d with
  | mk id t r a dt dur lo hi n body =>
    rw [identify, rename, rename, renameBody_identifyBody]

theorem renameBody_identifyBody (supply : IdSupply)
    (body : Option (List (StepDocument (Option String)))) :
    renameBody (fun _ => ()) (identifyBody supply body).1 = renameBody (fun _ => ()) body := by
  match body with
  | none => rfl
  | some steps => exact congrArg some (erasedAll_identifyAll supply steps)

theorem erasedAll_identifyAll (supply : IdSupply) (ds : List (StepDocument (Option String))) :
    erasedAll (identifyAll supply ds).1 = erasedAll ds := by
  match ds with
  | [] => rfl
  | d :: ds =>
    show rename _ _ :: erasedAll _ = rename _ d :: erasedAll ds
    rw [rename_identify, erasedAll_identifyAll]

end

/-- Steps keep their rules if they do without identifiers. -/
theorem sound_reachedAll_erasedAll (ds : List (StepDocument ι)) :
    (∀ d ∈ reachedAll (erasedAll ds), d.Sound) ↔ ∀ d ∈ reachedAll ds, d.Sound := by
  rw [erasedAll, reachedAll_rename]
  simp [sound_rename]

/-- **Minting identifiers keeps and breaks no rule.** -/
theorem sound_reachedAll_identifyAll (supply : IdSupply)
    (ds : List (StepDocument (Option String))) :
    (∀ d ∈ reachedAll (identifyAll supply ds).1, d.Sound) ↔ ∀ d ∈ reachedAll ds, d.Sound := by
  rw [← sound_reachedAll_erasedAll, erasedAll_identifyAll, sound_reachedAll_erasedAll]

end StepDocument

namespace Catalog

/-! ## Readable rows -/

/-- **A row can be read** if its text is a list of steps, and every step that is reached keeps
the rules of its type. -/
def Row.IsReadable (r : Row) : Prop :=
  ∃ ds, (Json.Decoder.list StepDocument.decoder).run r.steps = some ds ∧
    ∀ d ∈ StepDocument.reachedAll ds, d.Sound

namespace Row

variable {r : Row} {rows : List Row}

/-- Steps that are read from a text have numbers of 64 bits. -/
theorem boundedAll_of_run {text : String} {ds : List (StepDocument (Option String))}
    (h : (Json.Decoder.list StepDocument.decoder).run text = some ds) :
    StepDocument.BoundedAll ds := by
  obtain ⟨v, -, read⟩ := Option.bind_eq_some_iff.mp h
  cases v with
  | arr items => exact (StepDocument.of_mapM_decoder read).1
  | _ => cases read

/-- **Whether a row can be read does not depend on what is minted for it.** -/
theorem isSome_toProgram? (supply : IdSupply) (r : Row) :
    (r.toProgram? supply).isSome ↔ r.IsReadable := by
  rw [toProgram?, Option.isSome_map, readSteps?, IsReadable]
  cases read : (Json.Decoder.list StepDocument.decoder).run r.steps with
  | none => simp
  | some ds =>
    have bounded := (StepDocument.boundedAll_identifyAll supply ds).mpr (boundedAll_of_run read)
    have steps := StepDocument.exists_toSteps_iff bounded
    rw [StepDocument.sound_reachedAll_identifyAll] at steps
    simp only [Option.some.injEq, exists_eq_left', ← steps]
    cases StepDocument.toSteps (StepDocument.identifyAll supply ds).1 <;> simp

/-- A row that can be read keeps a program of its identifier. -/
theorem exists_toProgram? (supply : IdSupply) (h : r.IsReadable) :
    ∃ p rest, r.toProgram? supply = some (p, rest) := by
  obtain ⟨⟨p, rest⟩, read⟩ := Option.isSome_iff_exists.mp ((isSome_toProgram? supply r).mpr h)
  exact ⟨p, rest, read⟩

/-- A row that cannot be read keeps none. -/
theorem toProgram?_eq_none (supply : IdSupply) (h : ¬ r.IsReadable) :
    r.toProgram? supply = none := by
  rwa [← isSome_toProgram? supply, Option.not_isSome_iff_eq_none] at h

/-- **Rows are read together exactly if each of them can be.** The supply changes from row to
row. -/
theorem toPrograms?_eq_none_iff (supply : IdSupply) :
    toPrograms? supply rows = none ↔ ∃ r ∈ rows, ¬ r.IsReadable := by
  induction rows generalizing supply with
  | nil => exact ⟨nofun, nofun⟩
  | cons r rows ih =>
    rw [List.exists_mem_cons_iff, toPrograms?]
    by_cases readable : r.IsReadable
    · obtain ⟨p, rest, read⟩ := exists_toProgram? supply readable
      rw [read, ← ih rest]
      show (toPrograms? rest rows >>= fun ps => some (p :: ps)) = none ↔ _
      cases toPrograms? rest rows <;> simp [readable]
    · rw [toProgram?_eq_none supply readable]
      exact ⟨fun _ => .inl readable, fun _ => rfl⟩

end Row

/-! ## What operations read -/

/-- **A catalog is damaged at an identifier** if the row that has it cannot be read. -/
def IsDamagedAt (c : Catalog) (id : ProgramId) : Prop :=
  ∃ r ∈ c.rows, r.id = id ∧ ¬ r.IsReadable

/-- **A catalog is damaged** if some row of it cannot be read. -/
def IsDamaged (c : Catalog) : Prop := ∃ r ∈ c.rows, ¬ r.IsReadable

section reading

variable {c : Catalog} {id : ProgramId}

/-- The row with an identifier is the only one. -/
theorem row?_of_mem {r : Row} (unique : (c.rows.map Row.id).Nodup) (mem : r ∈ c.rows) :
    c.row? r.id = some r := by
  cases found : c.row? r.id with
  | none => exact absurd rfl (row?_eq_none_iff.mp found r mem)
  | some q =>
    obtain ⟨hq, same⟩ := of_row? found
    rw [List.inj_on_of_nodup_map unique hq mem same]

/-- **Looking for an identifier reads its row**, and no other. -/
theorem find?_eq_error_iff (unique : (c.rows.map Row.id).Nodup) :
    c.find? id = .error .storage ↔ c.IsDamagedAt id := by
  constructor
  · intro failed
    cases row : c.row? id with
    | none =>
      rw [find?, row] at failed
      contradiction
    | some r =>
      obtain ⟨mem, rfl⟩ := of_row? row
      refine ⟨r, mem, rfl, fun readable => ?_⟩
      obtain ⟨p, rest, read⟩ := Row.exists_toProgram? c.ids readable
      rw [find?_of_row? row read] at failed
      contradiction
  · rintro ⟨r, mem, rfl, unreadable⟩
    rw [find?, row?_of_mem unique mem]
    simp only [Row.toProgram?_eq_none c.ids unreadable]

/-- An identifier that no row has is looked for without a fault, and only that. -/
theorem find?_eq_none_iff : c.find? id = .ok none ↔ ∀ r ∈ c.rows, r.id ≠ id := by
  rw [← row?_eq_none_iff]
  constructor
  · intro h
    have absent := isSome_row?_of_find? h
    simpa using absent
  · intro h
    rw [find?, h]

/-- **Reading rows in the order of lists** fails if one of them cannot be read. -/
theorem read_eq_error_iff (rows : List Row) :
    c.read rows = .error .storage ↔ ∃ r ∈ rows, ¬ r.IsReadable := by
  have same : (∃ r ∈ rows.mergeSort Row.le, ¬ r.IsReadable) ↔ ∃ r ∈ rows, ¬ r.IsReadable := by
    simp only [List.mem_mergeSort]
  rw [← same, ← Row.toPrograms?_eq_none_iff c.ids, read]
  cases Row.toPrograms? c.ids (rows.mergeSort Row.le) <;> simp

/-- A list reads the whole table. -/
theorem list_eq_error_iff : c.list = .error .storage ↔ c.IsDamaged := read_eq_error_iff c.rows

/-- **Looking for a name reads the whole table.** -/
theorem findByName_eq_error_iff (name : String) :
    c.findByName name = .error .storage ↔ c.IsDamaged := by
  rw [← list_eq_error_iff, findByName]
  cases c.list <;> simp [Except.map]

/-- **A key is looked for among identifiers, and only then among names.** -/
theorem resolve_eq_error_iff (unique : (c.rows.map Row.id).Nodup) (key : String) :
    c.resolve key = .error .storage ↔
      c.IsDamagedAt key ∨ (∀ r ∈ c.rows, r.id ≠ key) ∧ c.IsDamaged := by
  rw [← find?_eq_error_iff unique, ← find?_eq_none_iff, ← findByName_eq_error_iff key, resolve]
  split <;> rename_i found
  · simp [found]
  · simp [found]
  · simp only [found, reduceCtorEq, false_or, true_and]
    split <;> simp_all

/-- **The row of a valid program can be read** if no step of it lies too deep. -/
theorem Row.isReadable_ofProgram {p : Program} (valid : p.Valid) (shallow : p.Shallow) :
    (Row.ofProgram p).IsReadable := by
  rw [← Row.isSome_toProgram? ⟨0⟩, Row.toProgram?_ofProgram ⟨0⟩ valid, if_pos shallow]
  rfl

end reading

end Catalog

end Switchboard
