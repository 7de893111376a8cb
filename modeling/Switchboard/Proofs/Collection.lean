import Mathlib.Data.Finmap
import Switchboard.Proofs.ByteOrder
import Switchboard.Proofs.Import

/-!
# The catalog is a finite map

What the catalog keeps as rows of text is meant to be a map from identifiers to
programs, a `Collection`. `Catalog.Holds` says that a catalog and a collection belong
together, and every change keeps it so (`Holds.performs`), with the collection changed
only as the answer tells (`Collection.record`).

What the catalog answers when it is read follows from the collection alone. There is one
thing that the collection has and the catalog does not tell: a program with a step inside
too many loops is accepted, but not read back, and lists that would contain it are not
answered either (`unreadable_iff`). Where nothing of that kind is accepted, the catalog
and the collection cannot be told apart (`simulates_collection`).
-/

namespace Switchboard

/-! ## Changes -/

namespace Catalog

/-- **A change of the catalog.** -/
inductive Write where
  /-- Imports a text. -/
  | importText (text : String)
  /-- Adds a program. -/
  | create (p : Program)
  /-- Replaces a program. -/
  | update (p : Program)
  /-- Removes the program with an identifier. -/
  | delete (id : ProgramId)

/-- The program that a change brings along. An import brings a text. -/
def Write.given? : Write → Option Program
  | .create p => some p
  | .update p => some p
  | _ => none

/-- **The answer to a change**: the program that was accepted, if there is one. -/
abbrev Answer := Except HubFault (Option Program)

/-- **One change**: the answer, and the catalog afterwards. -/
def perform (c : Catalog) : Write → Answer × Catalog
  | .importText text => ((c.importText text).1.map some, (c.importText text).2)
  | .create p => ((c.create p).1.map some, (c.create p).2)
  | .update p => ((c.update p).1.map some, (c.update p).2)
  | .delete id => (.ok none, c.delete id)

/-- The answers to changes, one after the other. -/
def answers (c : Catalog) : List Write → List Answer
  | [] => []
  | w :: ws => (c.perform w).1 :: answers (c.perform w).2 ws

/-- **The catalog after changes**, one after the other. -/
def after (c : Catalog) : List Write → Catalog
  | [] => c
  | w :: ws => after (c.perform w).2 ws

end Catalog

/-! ## Collections -/

/-- **A collection**: a finite map from identifiers to programs. -/
abbrev Collection := Finmap fun _ : ProgramId => Program

namespace Collection

open Catalog (Write Answer)

/-- **What a change does to a collection**, given its answer. An import stores the program
that was read, and other changes store theirs with its durations lowered to what a
document can hold. -/
def record (m : Collection) : Write → Answer → Collection
  | .importText _, .ok (some p) => m.insert p.id p
  | .create p, .ok _ => m.insert p.id p.lowered
  | .update p, .ok _ => m.insert p.id p.lowered
  | .delete id, .ok _ => m.erase id
  | _, _ => m

/-- **What a collection answers to a change.** -/
def answer (m : Collection) (ids : IdSupply) : Write → Answer
  | .importText text =>
    match (Program.ofText ids text).1 with
    | .error fault => .error (.malformed fault)
    | .ok p => .ok (some p)
  | .create p =>
    match p.validate with
    | .error fault => .error (.malformed fault)
    | .ok () => if p.id ∈ m then .error .storage else .ok (some p)
  | .update p =>
    match p.validate with
    | .error fault => .error (.malformed fault)
    | .ok () => if p.id ∈ m then .ok (some p) else .error (.notFound p.id)
  | .delete _ => .ok none

/-- What a change leaves of a supply. Only imports mint identifiers. -/
def minted (ids : IdSupply) : Write → IdSupply
  | .importText text => (Program.ofText ids text).2
  | _ => ids

/-- **What a catalog finds in a collection**: the program with an identifier, but nothing it
could tell if some step lies too deep. -/
def find? (m : Collection) (id : ProgramId) : Except HubFault (Option Program) :=
  match m.lookup id with
  | none => .ok none
  | some p => if p.Shallow then .ok (some p) else .error .storage

/-- **Where nothing lies too deep**, a program is found as it is. -/
theorem find?_of_shallow {m : Collection} (shallow : ∀ id p, m.lookup id = some p → p.Shallow)
    (id : ProgramId) : m.find? id = .ok (m.lookup id) := by
  unfold find?
  cases found : m.lookup id with
  | none => rfl
  | some p => exact if_pos (shallow id p found)

/-- The answers of a collection to changes, one after the other. -/
def answers (m : Collection) (ids : IdSupply) : List Write → List Answer
  | [] => []
  | w :: ws => m.answer ids w :: answers (m.record w (m.answer ids w)) (minted ids w) ws

/-- **The collection after changes**, one after the other. -/
def after (m : Collection) (ids : IdSupply) : List Write → Collection
  | [] => m
  | w :: ws => after (m.record w (m.answer ids w)) (minted ids w) ws

/-- What is in a collection after a program was put there. -/
theorem of_lookup_insert {m : Collection} {id : ProgramId} {p q : Program}
    (h : (m.insert p.id p).lookup id = some q) : id = p.id ∧ q = p ∨ m.lookup id = some q := by
  by_cases hid : id = p.id
  · rw [hid, Finmap.lookup_insert] at h
    exact .inl ⟨hid, (Option.some.inj h).symm⟩
  · rw [Finmap.lookup_insert_of_ne _ hid] at h
    exact .inr h

/-- What is in a collection after a program was removed. -/
theorem of_lookup_erase {m : Collection} {id other : ProgramId} {q : Program}
    (h : (m.erase id).lookup other = some q) : other ≠ id ∧ m.lookup other = some q := by
  by_cases hid : other = id
  · rw [hid, Finmap.lookup_erase] at h
    cases h
  · rw [Finmap.lookup_erase_ne hid] at h
    exact ⟨hid, h⟩

/-- What was brought along is stored with its durations lowered. -/
theorem record_of_given {m : Collection} {w : Write} {p q : Program} (h : w.given? = some p) :
    m.record w (.ok (some q)) = m.insert p.id p.lowered := by
  cases w <;> cases h <;> rfl

/-- What is brought along mints nothing. -/
theorem minted_of_given {ids : IdSupply} {w : Write} {p : Program} (h : w.given? = some p) :
    minted ids w = ids := by
  cases w <;> cases h <;> rfl

/-- A collection is as it was after a change that is refused. -/
theorem record_error (m : Collection) (w : Write) (f : HubFault) : m.record w (.error f) = m := by
  cases w <;> rfl

end Collection

/-! ## A catalog and its collection -/

namespace Catalog

variable {c : Catalog} {m : Collection}

/-! ## What one change does -/

/-- **What a change does to a catalog**: it is refused, it puts a program that was read or
brought along, or it deletes one. Only imports mint identifiers, also when they are
refused. -/
inductive Performs (c : Catalog) : Write → Answer → Catalog → Prop where
  /-- The rows are left alone. -/
  | refuses (w : Write) (f : HubFault) :
    Performs c w (.error f) { c with ids := Collection.minted c.ids w }
  /-- The program of a text is put. -/
  | imports {text : String} {p : Program} {ids : IdSupply}
    (parsed : Program.ofText c.ids text = (.ok p, ids)) :
    Performs c (.importText text) (.ok (some p)) (Catalog.put { c with ids } (.ofProgram p))
  /-- A program that was brought along is put. -/
  | puts {w : Write} {p : Program} (given : w.given? = some p) (valid : p.Valid) :
    Performs c w (.ok (some p)) (c.put (.ofProgram p))
  /-- The row with an identifier is removed. -/
  | deletes (id : ProgramId) : Performs c (.delete id) (.ok none) (c.delete id)

/-- A change does one of these. -/
theorem performs (c : Catalog) (w : Write) : c.Performs w (c.perform w).1 (c.perform w).2 := by
  cases w with
  | importText text =>
    show c.Performs _ ((c.importText text).1.map some) (c.importText text).2
    cases hparsed : Program.ofText c.ids text with
    | mk parsed ids =>
      have hids : Collection.minted c.ids (.importText text) = ids := congrArg Prod.snd hparsed
      cases parsed with
      | error fault =>
        rw [importText_of_error hparsed, ← hids]
        exact .refuses _ _
      | ok p =>
        rw [importText_of_ok hparsed]
        split
        · rw [← hids]
          exact .refuses _ _
        · exact .imports hparsed
  | create p =>
    show c.Performs _ ((c.create p).1.map some) (c.create p).2
    unfold create add
    split
    · exact .refuses _ _
    · rename_i hvalid
      split
      · exact .refuses _ _
      · exact .puts rfl ((Program.validate_eq_ok_iff p).mp hvalid)
  | update p =>
    show c.Performs _ ((c.update p).1.map some) (c.update p).2
    unfold update replace
    split
    · exact .refuses _ _
    · rename_i hvalid
      split
      · exact .puts rfl ((Program.validate_eq_ok_iff p).mp hvalid)
      · exact .refuses _ _
  | delete id => exact .deletes id

namespace Performs

variable {w : Write} {answer : Answer} {c' : Catalog}

/-- A change leaves of the supply what it has not minted. -/
theorem ids_eq (h : c.Performs w answer c') : c'.ids = Collection.minted c.ids w := by
  cases h with
  | refuses => rfl
  | imports parsed => rw [ids_put, Collection.minted, parsed]
  | puts given => rw [ids_put, Collection.minted_of_given given]
  | deletes => rfl

/-- **A refused change leaves the rows alone**, and only a refused import has minted
identifiers. -/
theorem eq_of_error {f : HubFault} (h : c.Performs w (.error f) c') :
    c' = { c with ids := Collection.minted c.ids w } := by
  cases h
  rfl

end Performs

/-! ## What a catalog holds -/

/-- **A catalog holds a collection**: its rows are those of the programs in there, which
are valid and fit into documents. -/
structure Holds (c : Catalog) (m : Collection) : Prop where
  /-- No two rows have the same identifier. -/
  ids_nodup : (c.rows.map Row.id).Nodup
  /-- The rows are those of the programs. -/
  mem_rows : ∀ r, r ∈ c.rows ↔ ∃ p, m.lookup r.id = some p ∧ r = .ofProgram p
  /-- Programs stand under their own identifiers. -/
  id_eq : ∀ {id p}, m.lookup id = some p → p.id = id
  /-- Programs are valid. -/
  valid : ∀ {id p}, m.lookup id = some p → p.Valid
  /-- Programs have durations that documents can hold. -/
  lowered : ∀ {id p}, m.lookup id = some p → p.lowered = p

namespace Holds

/-- A catalog without programs holds nothing. -/
theorem empty (ids : IdSupply) : (Catalog.empty ids).Holds ∅ where
  ids_nodup := List.nodup_nil
  mem_rows r := ⟨nofun, fun ⟨_, hp, _⟩ => nomatch Finmap.lookup_empty r.id ▸ hp⟩
  id_eq hp := nomatch hp
  valid hp := nomatch hp
  lowered hp := nomatch hp

/-- Where identifiers come from does not matter. -/
theorem with_ids (h : c.Holds m) (ids : IdSupply) : Catalog.Holds { c with ids } m :=
  ⟨h.ids_nodup, h.mem_rows, h.id_eq, h.valid, h.lowered⟩

/-- **The row with an identifier** is that of the program with it. -/
theorem row? (h : c.Holds m) (id : ProgramId) :
    c.row? id = (m.lookup id).map Row.ofProgram := by
  cases hrow : c.row? id with
  | some r =>
    obtain ⟨hr, rfl⟩ := of_row? hrow
    obtain ⟨p, hp, hof⟩ := (h.mem_rows r).mp hr
    rw [hp, hof]
    rfl
  | none =>
    cases hp : m.lookup id with
    | none => rfl
    | some p =>
      have hid := h.id_eq hp
      have hr : Row.ofProgram p ∈ c.rows := by
        refine (h.mem_rows _).mpr ⟨p, ?_, rfl⟩
        rwa [show (Row.ofProgram p).id = id from hid]
      exact absurd hid (row?_eq_none_iff.mp hrow _ hr)

/-- **A program is put into the collection** by putting its row. -/
theorem put (h : c.Holds m) {p : Program} (hvalid : p.Valid) (hlowered : p.lowered = p) :
    (c.put (.ofProgram p)).Holds (m.insert p.id p) where
  ids_nodup := by
    cases hrow : c.row? p.id with
    | some r =>
      have hids : (c.rows.map fun q => if q.id = p.id then Row.ofProgram p else q).map Row.id
          = c.rows.map Row.id := by
        rw [List.map_map]
        refine List.map_congr_left fun q _ => ?_
        show (if q.id = p.id then Row.ofProgram p else q).id = q.id
        split
        · rename_i hid
          exact hid.symm
        · rfl
      rw [put_of_some hrow]
      exact hids ▸ h.ids_nodup
    | none =>
      have hfresh : p.id ∉ c.rows.map Row.id := by
        intro hmem
        obtain ⟨q, hq, hid⟩ := List.mem_map.mp hmem
        exact row?_eq_none_iff.mp hrow q hq hid
      rw [put_of_none hrow]
      show (c.rows ++ [Row.ofProgram p]).map Row.id |>.Nodup
      rw [List.map_append]
      exact List.Nodup.append h.ids_nodup (List.nodup_singleton _)
        (List.disjoint_singleton.mpr hfresh)
  mem_rows r := by
    rw [mem_rows_put]
    by_cases hid : r.id = p.id
    · rw [hid, Finmap.lookup_insert]
      constructor
      · rintro (rfl | ⟨-, hne⟩)
        · exact ⟨p, rfl, rfl⟩
        · exact absurd rfl hne
      · rintro ⟨q, hq, rfl⟩
        obtain rfl := Option.some.inj hq
        exact .inl rfl
    · rw [Finmap.lookup_insert_of_ne _ hid, ← h.mem_rows]
      constructor
      · rintro (rfl | ⟨hr, -⟩)
        · exact absurd rfl hid
        · exact hr
      · exact fun hr => .inr ⟨hr, hid⟩
  id_eq hq := by
    rcases Collection.of_lookup_insert hq with ⟨rfl, rfl⟩ | hq
    · rfl
    · exact h.id_eq hq
  valid hq := by
    rcases Collection.of_lookup_insert hq with ⟨-, rfl⟩ | hq
    · exact hvalid
    · exact h.valid hq
  lowered hq := by
    rcases Collection.of_lookup_insert hq with ⟨-, rfl⟩ | hq
    · exact hlowered
    · exact h.lowered hq

/-- **A program is removed from the collection** by deleting its row. -/
theorem delete (h : c.Holds m) (id : ProgramId) : (c.delete id).Holds (m.erase id) where
  ids_nodup := h.ids_nodup.sublist (List.Sublist.map Row.id List.filter_sublist)
  mem_rows r := by
    show r ∈ c.rows.filter (·.id ≠ id) ↔ _
    rw [List.mem_filter, h.mem_rows, decide_eq_true_eq]
    constructor
    · rintro ⟨⟨p, hp, hof⟩, hne⟩
      exact ⟨p, by rwa [Finmap.lookup_erase_ne hne], hof⟩
    · rintro ⟨p, hp, hof⟩
      obtain ⟨hne, hp⟩ := Collection.of_lookup_erase hp
      exact ⟨⟨p, hp, hof⟩, hne⟩
  id_eq hp := h.id_eq (Collection.of_lookup_erase hp).2
  valid hp := h.valid (Collection.of_lookup_erase hp).2
  lowered hp := h.lowered (Collection.of_lookup_erase hp).2

/-! ### Looking a program up -/

/-- **A program of the collection is read from its row**, unless some step lies too deep. -/
theorem toProgram? (h : c.Holds m) {id : ProgramId} {p : Program} (hp : m.lookup id = some p)
    (supply : IdSupply) :
    (Row.ofProgram p).toProgram? supply = if p.Shallow then some (p, supply) else none := by
  rw [Row.toProgram?_ofProgram supply (h.valid hp), h.lowered hp]

/-- **Looking a program up** finds what the collection tells. -/
theorem find? (h : c.Holds m) (id : ProgramId) : c.find? id = m.find? id := by
  unfold Catalog.find? Collection.find?
  rw [h.row?]
  cases hp : m.lookup id with
  | none => rfl
  | some p =>
    dsimp only [Option.map_some]
    rw [h.toProgram? hp]
    by_cases hshallow : p.Shallow
    · rw [if_pos hshallow, if_pos hshallow]
    · rw [if_neg hshallow, if_neg hshallow]

/-! ### One change -/

/-- **What an import does** to a catalog that holds a collection. -/
theorem importText (h : c.Holds m) (text : String) :
    c.importText text = match Program.ofText c.ids text with
      | (.error fault, ids) => (.error (.malformed fault), { c with ids })
      | (.ok p, ids) => match m.find? p.id with
        | .error f => (.error f, { c with ids })
        | .ok _ => (.ok p, Catalog.put { c with ids } (.ofProgram p)) := by
  cases hparsed : Program.ofText c.ids text with
  | mk parsed ids =>
    cases parsed with
    | error fault => exact importText_of_error hparsed
    | ok p =>
      show c.importText text = match m.find? p.id with
        | .error f => (.error f, { c with ids })
        | .ok _ => (.ok p, Catalog.put { c with ids } (.ofProgram p))
      rw [← (h.with_ids ids).find?]
      exact importText_of_ok hparsed

/-- A row is there exactly if its program is in the collection. -/
theorem isSome_row? (h : c.Holds m) (id : ProgramId) :
    (c.row? id).isSome = true ↔ id ∈ m := by
  rw [h.row?, Option.isSome_map, Finmap.lookup_isSome]

/-- **What adding a program does** to a catalog that holds a collection. -/
theorem create (h : c.Holds m) (p : Program) :
    c.create p = match p.validate with
      | .error fault => (.error (.malformed fault), c)
      | .ok () => if p.id ∈ m then (.error .storage, c) else (.ok p, c.put (.ofProgram p)) := by
  unfold Catalog.create add
  cases p.validate with
  | error fault => rfl
  | ok u => simp only [h.isSome_row?]

/-- **What replacing a program does** to a catalog that holds a collection. -/
theorem update (h : c.Holds m) (p : Program) :
    c.update p = match p.validate with
      | .error fault => (.error (.malformed fault), c)
      | .ok () =>
        if p.id ∈ m then (.ok p, c.put (.ofProgram p)) else (.error (.notFound p.id), c) := by
  unfold Catalog.update replace
  cases p.validate with
  | error fault => rfl
  | ok u => simp only [h.isSome_row?]

/-- A valid program is put into the collection with its durations lowered. -/
theorem put_lowered (h : c.Holds m) {p : Program} (hvalid : p.Valid) :
    (c.put (.ofProgram p)).Holds (m.insert p.id p.lowered) := by
  rw [← Row.ofProgram_lowered]
  exact h.put hvalid.lowered hvalid.lowered_lowered

/-- **Every change keeps the collection**, changed as the answer tells. -/
theorem performs (h : c.Holds m) {w : Write} {answer : Answer} {c' : Catalog}
    (hstep : c.Performs w answer c') : c'.Holds (m.record w answer) := by
  cases hstep with
  | refuses f =>
    rw [Collection.record_error]
    exact h.with_ids _
  | imports parsed =>
    exact (h.with_ids _).put (Program.valid_of_ofText parsed) (Program.lowered_of_ofText parsed)
  | puts given valid =>
    rw [Collection.record_of_given given]
    exact h.put_lowered valid
  | deletes id => exact h.delete id

end Holds

/-! ## Lists -/

namespace Row

variable {a b d : Row}

theorem le_iff : a.le b = true ↔ a.name < b.name ∨ a.name = b.name ∧ ¬ b.id < a.id := by
  unfold le
  rw [Bool.or_eq_true, Bool.and_eq_true, Bool.not_eq_true', decide_eq_true_eq,
    decide_eq_true_eq, decide_eq_false_iff_not]

theorem le_trans (hab : a.le b = true) (hbd : b.le d = true) : a.le d = true := by
  rw [le_iff] at *
  rcases hab with hab | ⟨hab, hid⟩
  · rcases hbd with hbd | ⟨hbd, -⟩
    · exact .inl (Std.lt_trans hab hbd)
    · exact .inl (hbd ▸ hab)
  · rcases hbd with hbd | ⟨hbd, hid'⟩
    · exact .inl (hab ▸ hbd)
    · refine .inr ⟨hab.trans hbd, fun hlt => ?_⟩
      rw [Std.not_lt] at hid hid'
      exact Std.not_lt.mpr (Std.le_trans hid hid') hlt

theorem le_total (a b : Row) : (a.le b || b.le a) = true := by
  rw [Bool.or_eq_true, le_iff, le_iff]
  rcases Std.lt_trichotomy a.name b.name with hlt | heq | hgt
  · exact .inl (.inl hlt)
  · rcases Std.lt_trichotomy a.id b.id with hid | hid | hid
    · exact .inl (.inr ⟨heq, Std.not_gt_of_lt hid⟩)
    · exact .inl (.inr ⟨heq, hid ▸ Std.lt_irrefl⟩)
    · exact .inr (.inr ⟨heq.symm, Std.not_gt_of_lt hid⟩)
  · exact .inr (.inl hgt)

/-- Of two rows with different identifiers, one comes strictly before the other. -/
theorem lt_of_le (hle : a.le b = true) (hne : a.id ≠ b.id) :
    a.name < b.name ∨ a.name = b.name ∧ a.id < b.id := by
  rcases le_iff.mp hle with hlt | ⟨heq, hid⟩
  · exact .inl hlt
  · rcases Std.lt_trichotomy a.id b.id with hlt | hsame | hgt
    · exact .inr ⟨heq, hlt⟩
    · exact absurd hsame hne
    · exact absurd hgt hid

/-- Rows that are level with one another have the same identifier. -/
theorem id_eq_of_le (hab : a.le b = true) (hba : b.le a = true) : a.id = b.id := by
  by_cases hne : a.id = b.id
  · exact hne
  · rcases lt_of_le hab hne with hlt | ⟨heq, hlt⟩
    · rcases lt_of_le hba (Ne.symm hne) with hgt | ⟨heq, -⟩
      · exact absurd hgt (Std.not_gt_of_lt hlt)
      · exact absurd (heq ▸ hlt) Std.lt_irrefl
    · rcases lt_of_le hba (Ne.symm hne) with hgt | ⟨-, hgt⟩
      · exact absurd (heq ▸ hgt) Std.lt_irrefl
      · exact absurd hgt (Std.not_gt_of_lt hlt)

theorem pairwise_mergeSort : ∀ rows : List Row, (rows.mergeSort le).Pairwise (le · ·) :=
  List.pairwise_mergeSort (fun _ _ _ => le_trans) le_total

/-- **Rows that are sorted by le have one order**, if their identifiers are distinct. -/
theorem sorted_unique {xs ys : List Row} (hnodup : (xs.map id).Nodup)
    (hxs : xs.Pairwise (le · ·)) (hys : ys.Pairwise (le · ·)) (hperm : xs.Perm ys) : xs = ys := by
  refine List.Perm.eq_of_pairwise (fun a b ha hb hab hba => ?_) hxs hys hperm
  exact List.inj_on_of_nodup_map hnodup ha (hperm.mem_iff.mpr hb) (id_eq_of_le hab hba)

/-- Sorting and filtering may be done in either order. -/
theorem mergeSort_filter {rows : List Row} (hnodup : (rows.map id).Nodup) (keep : Row → Bool) :
    (rows.filter keep).mergeSort le = (rows.mergeSort le).filter keep := by
  have hperm := List.mergeSort_perm (rows.filter keep) le
  refine sorted_unique ?_ (pairwise_mergeSort _) ((pairwise_mergeSort rows).filter keep)
    (hperm.trans ((List.mergeSort_perm rows le).filter keep).symm)
  exact (hperm.map id).nodup_iff.mpr (hnodup.sublist (List.Sublist.map id List.filter_sublist))

/-- **Programs are read from their rows together**, unless some step of one lies too deep. -/
theorem toPrograms?_map {ps : List Program} (h : ∀ p ∈ ps, p.Valid ∧ p.lowered = p)
    (supply : IdSupply) :
    toPrograms? supply (ps.map ofProgram)
      = if ∀ p ∈ ps, p.Shallow then some ps else none := by
  induction ps with
  | nil => rfl
  | cons p ps ih =>
    rw [List.forall_mem_cons] at h
    rw [List.map_cons, toPrograms?, toProgram?_ofProgram supply h.1.1, h.1.2]
    by_cases hp : p.Shallow
    · rw [if_pos hp]
      show (toPrograms? supply (ps.map ofProgram) >>= fun ps => some (p :: ps)) = _
      rw [ih h.2]
      by_cases hps : ∀ q ∈ ps, q.Shallow
      · rw [if_pos hps, if_pos (List.forall_mem_cons.mpr ⟨hp, hps⟩)]
        rfl
      · rw [if_neg hps, if_neg fun hall => hps (List.forall_mem_cons.mp hall).2]
        rfl
    · rw [if_neg hp, if_neg fun hall => hp (List.forall_mem_cons.mp hall).1]
      rfl

end Row

end Catalog

/-- **The order of lists**: by name and then by identifier, both by their bytes. -/
def Program.Precedes (p q : Program) : Prop :=
  Text.bytes p.name < Text.bytes q.name
    ∨ p.name = q.name ∧ Text.bytes p.id < Text.bytes q.id

namespace Catalog

variable {c : Catalog} {m : Collection}

/-- **What a list of programs is told as**: as a whole, and not at all if some step of
one lies too deep. -/
def told (ps : List Program) : Except HubFault (List Program) :=
  if ∀ p ∈ ps, p.Shallow then .ok ps else .error .storage

namespace Holds

/-- The programs of some rows. -/
theorem exists_map_ofProgram (h : c.Holds m) {rows : List Row} (hrows : ∀ r ∈ rows, r ∈ c.rows) :
    ∃ ps : List Program, rows = ps.map Row.ofProgram ∧ ∀ p ∈ ps, m.lookup p.id = some p := by
  induction rows with
  | nil => exact ⟨[], rfl, nofun⟩
  | cons r rows ih =>
    rw [List.forall_mem_cons] at hrows
    obtain ⟨ps, rfl, hps⟩ := ih hrows.2
    obtain ⟨p, hp, rfl⟩ := (h.mem_rows r).mp hrows.1
    exact ⟨p :: ps, rfl, List.forall_mem_cons.mpr ⟨hp, hps⟩⟩

/-- What is read of rows is what is told of their programs. -/
theorem read_eq_told (h : c.Holds m) {rows : List Row} {ps : List Program}
    (hps : ∀ p ∈ ps, m.lookup p.id = some p)
    (hrows : rows.mergeSort Row.le = ps.map Row.ofProgram) : c.read rows = told ps := by
  unfold read told
  rw [hrows, Row.toPrograms?_map (fun p hp => ⟨h.valid (hps p hp), h.lowered (hps p hp)⟩)]
  by_cases hall : ∀ p ∈ ps, p.Shallow
  · rw [if_pos hall, if_pos hall]
  · rw [if_neg hall, if_neg hall]

/-- **What lists answer** for a catalog that holds a collection. -/
theorem lists (h : c.Holds m) :
    ∃ ps : List Program, ps.Pairwise Program.Precedes
      ∧ (∀ p, p ∈ ps ↔ m.lookup p.id = some p)
      ∧ c.list = told ps ∧ c.listEnabled = told (ps.filter Program.enabled) := by
  have hsorted := Row.pairwise_mergeSort c.rows
  have hperm := List.mergeSort_perm c.rows Row.le
  obtain ⟨ps, hrows, hps⟩ := h.exists_map_ofProgram fun r hr => hperm.mem_iff.mp hr
  have hids : ((ps.map Row.ofProgram).map Row.id).Nodup := by
    rw [← hrows]
    exact (hperm.map Row.id).nodup_iff.mpr h.ids_nodup
  refine ⟨ps, ?_, fun p => ⟨hps p, fun hp => ?_⟩, h.read_eq_told hps hrows, ?_⟩
  · rw [hrows, List.pairwise_map] at hsorted
    rw [List.map_map, List.Nodup, List.pairwise_map] at hids
    refine (hsorted.and hids).imp fun {p q} hpq => ?_
    rcases Row.lt_of_le hpq.1 hpq.2 with hlt | ⟨heq, hlt⟩
    · exact .inl ((Text.lt_iff_bytes_lt _ _).mp hlt)
    · exact .inr ⟨heq, (Text.lt_iff_bytes_lt _ _).mp hlt⟩
  · have hrow : Row.ofProgram p ∈ ps.map Row.ofProgram := by
      rw [← hrows, hperm.mem_iff]
      exact (h.mem_rows _).mpr ⟨p, hp, rfl⟩
    obtain ⟨q, hq, hqp⟩ := List.mem_map.mp hrow
    have hid : q.id = p.id := congrArg Row.id hqp
    have hlookup := hps q hq
    rw [hid, hp] at hlookup
    exact Option.some.inj hlookup ▸ hq
  · refine h.read_eq_told (fun p hp => hps p (List.mem_filter.mp hp).1) ?_
    have hkeep : (fun r : Row => decide (r.enabled = 1)) ∘ Row.ofProgram = Program.enabled := by
      funext p
      show decide ((if p.enabled then 1 else 0) = (1 : Int)) = p.enabled
      cases p.enabled <;> rfl
    rw [Row.mergeSort_filter h.ids_nodup, hrows, List.filter_map, hkeep]

/-- **Getting a program** answers it, or that it is not there, or nothing that helps if
some step of it lies too deep. -/
theorem get (h : c.Holds m) (id : ProgramId) :
    c.get id = match m.lookup id with
      | none => .error (.notFound id)
      | some p => if p.Shallow then .ok p else .error .storage := by
  unfold Catalog.get
  rw [h.find?]
  unfold Collection.find?
  cases m.lookup id with
  | none => rfl
  | some p =>
    dsimp only
    by_cases hshallow : p.Shallow
    · rw [if_pos hshallow, if_pos hshallow]
    · rw [if_neg hshallow, if_neg hshallow]

end Holds

/-! ## Histories -/

/-- **The collection of what was accepted**: changed with every change as the catalog itself
answers. -/
def accepted (c : Catalog) (m : Collection) : List Write → Collection
  | [] => m
  | w :: ws => accepted (c.perform w).2 (m.record w (c.perform w).1) ws

/-- **A catalog holds what it has accepted.** -/
theorem Holds.after (h : c.Holds m) (ws : List Write) :
    (c.after ws).Holds (c.accepted m ws) := by
  induction ws generalizing c m with
  | nil => exact h
  | cons w ws ih => exact ih (h.performs (c.performs w))

theorem told_eq_error_iff (ps : List Program) :
    told ps = .error .storage ↔ ∃ p ∈ ps, ¬ p.Shallow := by
  unfold told
  by_cases hall : ∀ p ∈ ps, p.Shallow
  · rw [if_pos hall]
    exact ⟨nofun, fun ⟨p, hp, hdeep⟩ => absurd (hall p hp) hdeep⟩
  · rw [if_neg hall]
    refine ⟨fun _ => ?_, fun _ => rfl⟩
    simpa only [not_forall, exists_prop] using hall

/-- **What a history makes unreadable.** After any changes of an empty catalog, a program
that was accepted and not deleted since can be read exactly if none of its steps lies
inside more loops than `loopLimit`. Otherwise getting it fails, and so does every list
that would contain it. -/
theorem unreadable_iff (ids : IdSupply) (ws : List Write) :
    let c := (Catalog.empty ids).after ws
    let m := (Catalog.empty ids).accepted ∅ ws
    (∀ id, c.get id = match m.lookup id with
        | none => .error (.notFound id)
        | some p => if p.Shallow then .ok p else .error .storage)
      ∧ (c.list = .error .storage ↔ ∃ id p, m.lookup id = some p ∧ ¬ p.Shallow)
      ∧ (c.listEnabled = .error .storage
          ↔ ∃ id p, m.lookup id = some p ∧ p.enabled = true ∧ ¬ p.Shallow)
      ∧ ∀ name, c.findByName name = .error .storage
          ↔ ∃ id p, m.lookup id = some p ∧ ¬ p.Shallow := by
  intro c m
  have h : c.Holds m := (Holds.empty ids).after ws
  obtain ⟨ps, -, hps, hlist, henabled⟩ := h.lists
  have hdeep : (∃ p ∈ ps, ¬ p.Shallow) ↔ ∃ id p, m.lookup id = some p ∧ ¬ p.Shallow := by
    constructor
    · rintro ⟨p, hp, hdeep⟩
      exact ⟨p.id, p, (hps p).mp hp, hdeep⟩
    · rintro ⟨id, p, hp, hdeep⟩
      exact ⟨p, (hps p).mpr (h.id_eq hp ▸ hp), hdeep⟩
  refine ⟨h.get, ?_, ?_, fun name => ?_⟩
  · rw [hlist, told_eq_error_iff, hdeep]
  · rw [henabled, told_eq_error_iff]
    constructor
    · rintro ⟨p, hp, hdeep⟩
      obtain ⟨hp, hon⟩ := List.mem_filter.mp hp
      exact ⟨p.id, p, (hps p).mp hp, hon, hdeep⟩
    · rintro ⟨id, p, hp, hon, hdeep⟩
      exact ⟨p, List.mem_filter.mpr ⟨(hps p).mpr (h.id_eq hp ▸ hp), hon⟩, hdeep⟩
  · rw [← hdeep, ← told_eq_error_iff, ← hlist]
    unfold findByName
    cases c.list with
    | error f =>
      show Except.error f = Except.error HubFault.storage ↔ Except.error f = Except.error _
      rw [Except.error.injEq, Except.error.injEq]
    | ok ps => exact ⟨nofun, nofun⟩

/-- A wait inside a number of loops. -/
def wrapped : Nat → Step
  | 0 => .wait "wait" (.fixed 1)
  | n + 1 => .loop (Nat.repr n) 1 [wrapped n]

/-- A valid program with a step inside one loop too many. -/
def deep : Program := ⟨"deep", "Deep", true, [wrapped (loopLimit + 1)]⟩

/-- **What was accepted need not be readable**: `deep` is added without complaint, and
from then on neither it nor any list can be read. -/
theorem create_unreadable :
    let c := (Catalog.empty ⟨0⟩).after [.create deep]
    (Catalog.empty ⟨0⟩).answers [.create deep] = [.ok (some deep)]
      ∧ c.get deep.id = .error .storage ∧ c.list = .error .storage
      ∧ c.listEnabled = .error .storage ∧ c.findByName deep.name = .error .storage := by
  intro c
  have hvalid : deep.validate = .ok () := by decide +kernel
  have hdeep : ¬ deep.lowered.Shallow := by decide +kernel
  have hcreate : (Catalog.empty ⟨0⟩).create deep
      = (.ok deep, (Catalog.empty ⟨0⟩).put (.ofProgram deep)) := by
    unfold create
    rw [hvalid]
    rfl
  have hanswer : ((Catalog.empty ⟨0⟩).perform (.create deep)).1 = .ok (some deep) := by
    rw [perform, hcreate]
    rfl
  have hm : ((Catalog.empty ⟨0⟩).accepted ∅ [.create deep]).lookup deep.id
      = some deep.lowered := by
    rw [accepted, accepted, hanswer]
    exact Finmap.lookup_insert _
  obtain ⟨hget, hlist, henabled, hname⟩ := unreadable_iff ⟨0⟩ [.create deep]
  refine ⟨?_, ?_, hlist.mpr ⟨_, _, hm, hdeep⟩, henabled.mpr ⟨_, _, hm, rfl, hdeep⟩,
    (hname _).mpr ⟨_, _, hm, hdeep⟩⟩
  · rw [answers, answers, hanswer]
  · rw [hget, hm]
    exact if_neg hdeep

/-! ## The catalog and the collection cannot be told apart -/

/-- **Nothing that lies too deep is accepted** from the programs that changes bring
along. Of what a text describes, no step lies too deep anyway. -/
def AcceptsShallow (c : Catalog) : List Write → Prop
  | [] => True
  | w :: ws =>
    (∀ p ∈ w.given?, (c.perform w).1 = .ok (some p) → p.Shallow)
      ∧ AcceptsShallow (c.perform w).2 ws

/-- **A catalog shows a collection**: this is all that reading the catalog tells. -/
structure Shows (c : Catalog) (m : Collection) : Prop where
  /-- Getting a program answers what is in the collection. -/
  get : ∀ id, c.get id = match m.lookup id with
    | some p => .ok p
    | none => .error (.notFound id)
  /-- Lists have every program once, in order. -/
  lists : ∃ ps : List Program, c.list = .ok ps ∧ ps.Pairwise Program.Precedes
    ∧ (∀ p, p ∈ ps ↔ m.lookup p.id = some p)
    ∧ c.listEnabled = .ok (ps.filter Program.enabled)
    ∧ ∀ name, c.findByName name = .ok (ps.find? (·.name = name))
  /-- Whatever can be read is valid. -/
  valid : ∀ id p, m.lookup id = some p → p.validate = .ok ()

theorem Holds.shows (h : c.Holds m) (hshallow : ∀ id p, m.lookup id = some p → p.Shallow) :
    c.Shows m where
  get id := by
    rw [h.get]
    cases hp : m.lookup id with
    | none => rfl
    | some p => exact if_pos (hshallow id p hp)
  lists := by
    obtain ⟨ps, hsorted, hps, hlist, henabled⟩ := h.lists
    have hall : ∀ p ∈ ps, p.Shallow := fun p hp => hshallow p.id p ((hps p).mp hp)
    have hlist : c.list = .ok ps := hlist.trans (if_pos hall)
    have henabled : c.listEnabled = .ok (ps.filter Program.enabled) :=
      henabled.trans (if_pos fun p hp => hall p (List.mem_filter.mp hp).1)
    refine ⟨ps, hlist, hsorted, hps, henabled, fun name => ?_⟩
    unfold findByName
    rw [hlist]
    rfl
  valid id p hp := (Program.validate_eq_ok_iff p).mpr (h.valid hp)

/-- **A change is answered as the collection tells**, if all that is in there can be read. -/
theorem Holds.perform_eq_answer (h : c.Holds m)
    (hshallow : ∀ id p, m.lookup id = some p → p.Shallow) (w : Write) :
    (c.perform w).1 = m.answer c.ids w := by
  cases w with
  | importText text =>
    show (c.importText text).1.map some = match (Program.ofText c.ids text).1 with
      | .error fault => .error (.malformed fault)
      | .ok p => .ok (some p)
    rw [h.importText]
    cases hparsed : Program.ofText c.ids text with
    | mk parsed ids =>
      cases parsed with
      | error fault => rfl
      | ok p =>
        dsimp only
        rw [Collection.find?_of_shallow hshallow]
        rfl
  | create p =>
    show (c.create p).1.map some = match p.validate with
      | .error fault => .error (.malformed fault)
      | .ok () => if p.id ∈ m then .error .storage else .ok (some p)
    rw [h.create]
    cases p.validate with
    | error fault => rfl
    | ok u =>
      dsimp only
      split <;> rfl
  | update p =>
    show (c.update p).1.map some = match p.validate with
      | .error fault => .error (.malformed fault)
      | .ok () => if p.id ∈ m then .ok (some p) else .error (.notFound p.id)
    rw [h.update]
    cases p.validate with
    | error fault => rfl
    | ok u =>
      dsimp only
      split <;> rfl
  | delete id => rfl

/-- **Nothing that lies too deep comes into a collection** by what is accepted. -/
theorem Performs.shallow_record {w : Write} {answer : Answer} {c' : Catalog}
    (hstep : c.Performs w answer c') (hshallow : ∀ id p, m.lookup id = some p → p.Shallow)
    (haccepts : ∀ p ∈ w.given?, answer = .ok (some p) → p.Shallow) :
    ∀ id p, (m.record w answer).lookup id = some p → p.Shallow := by
  intro id p hp
  cases hstep with
  | refuses f =>
    rw [Collection.record_error] at hp
    exact hshallow id p hp
  | imports parsed =>
    rcases Collection.of_lookup_insert hp with ⟨-, rfl⟩ | hp
    · exact Program.shallow_of_ofText parsed
    · exact hshallow id p hp
  | @puts _ q given valid =>
    rw [Collection.record_of_given given, show q.id = q.lowered.id from rfl] at hp
    rcases Collection.of_lookup_insert hp with ⟨-, rfl⟩ | hp
    · exact (Program.shallow_lowered q).mpr (haccepts q given rfl)
    · exact hshallow id p hp
  | deletes id => exact hshallow _ _ (Collection.of_lookup_erase hp).2

/-- What one change preserves, a history does. -/
theorem Holds.simulates (h : c.Holds m) (hshallow : ∀ id p, m.lookup id = some p → p.Shallow)
    {ws : List Write} (haccepts : c.AcceptsShallow ws) :
    c.answers ws = m.answers c.ids ws ∧ (c.after ws).Holds (m.after c.ids ws)
      ∧ ∀ id p, (m.after c.ids ws).lookup id = some p → p.Shallow := by
  induction ws generalizing c m with
  | nil => exact ⟨rfl, h, hshallow⟩
  | cons w ws ih =>
    have hstep := c.performs w
    have hanswer := h.perform_eq_answer hshallow w
    have hnext := ih (h.performs hstep) (hstep.shallow_record hshallow haccepts.1) haccepts.2
    rw [hstep.ids_eq, hanswer] at hnext
    obtain ⟨hanswers, hholds, hdeep⟩ := hnext
    refine ⟨?_, hholds, hdeep⟩
    rw [answers, Collection.answers, hanswer, hanswers]

/-- **The catalog is a finite map.** As long as nothing that lies too deep is accepted, a
catalog answers every history of changes like a collection, and shows afterwards what the
collection has: each program under its identifier, and all of them in lists. A change that
is refused takes nothing but minted identifiers, so what is shown stays the same, and so
do the answers to later changes. -/
theorem simulates_collection (ids : IdSupply) (ws : List Write)
    (h : (Catalog.empty ids).AcceptsShallow ws) :
    let c := (Catalog.empty ids).after ws
    let m := Collection.after ∅ ids ws
    (Catalog.empty ids).answers ws = Collection.answers ∅ ids ws
      ∧ c.Shows m
      ∧ ∀ w f, (c.perform w).1 = .error f →
          (c.perform w).2 = { c with ids := Collection.minted c.ids w } ∧ (c.perform w).2.Shows m
            ∧ ∀ later, (c.perform w).2.AcceptsShallow later →
              (c.perform w).2.answers later = m.answers (c.perform w).2.ids later := by
  intro c m
  obtain ⟨hanswers, hholds, hshallow⟩ := (Holds.empty ids).simulates (fun _ _ => nofun) h
  refine ⟨hanswers, hholds.shows hshallow, fun w f herror => ?_⟩
  have hrest : (c.perform w).2 = { c with ids := Collection.minted c.ids w } :=
    Performs.eq_of_error (herror ▸ c.performs w)
  have hagain : (c.perform w).2.Holds m := hrest ▸ hholds.with_ids _
  exact ⟨hrest, hagain.shows hshallow, fun later hlater =>
    (hagain.simulates hshallow hlater).1⟩

/-- A program that waits longer than a document can hold. -/
def long : Program := ⟨"long", "Long", true, [.wait "wait" (.fixed 18446744073709551615)]⟩

/-- A program is added, but neither twice nor by replacing another, and then deleted. -/
theorem simulates_collection_long :
    (Catalog.empty ⟨0⟩).AcceptsShallow [.create long, .create long, .update pause]
      ∧ (Catalog.empty ⟨0⟩).answers [.create long, .create long, .update pause]
        = [.ok (some long), .error .storage, .error (.notFound pause.id)]
      ∧ ((Catalog.empty ⟨0⟩).after [.create long, .create long, .update pause]).get "long"
        = .ok ⟨"long", "Long", true, [.wait "wait" (.fixed 9223372036854775807)]⟩ := by
  have hlong : ∀ p ∈ (Write.create long).given?, p.Shallow := by
    rintro p ⟨⟩
    decide
  have hpause : ∀ p ∈ (Write.update pause).given?, p.Shallow := by
    rintro p ⟨⟩
    decide
  have haccepts : (Catalog.empty ⟨0⟩).AcceptsShallow [.create long, .create long, .update pause] :=
    ⟨fun p hp _ => hlong p hp, fun p hp _ => hlong p hp, fun p hp _ => hpause p hp, trivial⟩
  obtain ⟨hanswers, hshows, -⟩ := simulates_collection ⟨0⟩ _ haccepts
  exact ⟨haccepts, hanswers, hshows.get "long"⟩

end Catalog

end Switchboard
