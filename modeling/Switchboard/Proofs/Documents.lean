import Mathlib.Data.List.Basic
import Switchboard.Program.Format
import Switchboard.Proofs.Spelling

/-!
# Documents survive being written

A document written as JSON is read back field by field, as long as its numbers have
64 bits (`StepDocument.Bounded`) and there are enough containers to open: one for
every record and one for every array of steps (`StepDocument.height`). Both are also
all that reading guarantees, so the two directions meet.

Reading loses the certainty that identifiers are there, and `identify` restores it
without minting any.
-/

namespace Switchboard

open Json

/-! ## Records with missing members -/

/-- **The members that are there**, of a list of names with their values if any. -/
def present (entries : List (String × Option Json)) : Fields :=
  entries.filterMap fun e => e.2.map (e.1, ·)

section Records

variable {α : Type}

theorem present_nil : present [] = [] := rfl

theorem present_cons_map (name : String) (write : α → Json) (value : Option α)
    (rest : List (String × Option Json)) :
    present ((name, value.map write) :: rest) = member name write value ++ present rest := by
  cases value <;> rfl

theorem map_fst_present (entries : List (String × Option Json)) :
    ((present entries).map Prod.fst).Sublist (entries.map Prod.fst) := by
  induction entries with
  | nil => exact List.Sublist.refl _
  | cons e rest ih =>
    obtain ⟨name, _ | v⟩ := e
    · exact ih.cons name
    · exact ih.cons_cons name

/-- Of distinct names, each has the value that goes with it. -/
theorem lookup_present {entries : List (String × Option Json)}
    (hnodup : (entries.map Prod.fst).Nodup) (name : String) :
    (present entries).lookup name = (entries.lookup name).join := by
  induction entries with
  | nil => rfl
  | cons e rest ih =>
    obtain ⟨other, value⟩ := e
    rw [List.map_cons, List.nodup_cons] at hnodup
    by_cases heq : name = other
    · subst heq
      rw [List.lookup_cons_self]
      cases value with
      | none =>
        show (present rest).lookup name = none
        rw [List.lookup_eq_none_iff]
        intro m hm
        refine bne_iff_ne.mpr fun heq => hnodup.1 ?_
        rw [show name = m.1 from heq]
        exact (map_fst_present rest).subset (List.mem_map.mpr ⟨m, hm, rfl⟩)
      | some v => exact List.lookup_cons_self
    · rw [List.lookup_cons, beq_false_of_ne heq]
      cases value with
      | none => exact ih hnodup.2
      | some v =>
        show List.lookup name ((other, v) :: present rest) = _
        rw [List.lookup_cons, beq_false_of_ne heq]
        exact ih hnodup.2

/-- **A record whose names are known and distinct has all its members.** -/
theorem fields?_record {names : List String} (least : Nat) {ms : Fields}
    (hnodup : (ms.map Prod.fst).Nodup) (hknown : ∀ m ∈ ms, m.1 ∈ names) :
    fields? names least (.record ms) = some ms := by
  show knownMembers? names (ms.map fun m => (some m.1, m.2)) = some ms
  induction ms with
  | nil => rfl
  | cons m ms ih =>
    obtain ⟨k, v⟩ := m
    rw [List.map_cons, List.nodup_cons] at hnodup
    have hfresh : ms.lookup k = none := by
      rw [List.lookup_eq_none_iff]
      intro m hm
      refine bne_iff_ne.mpr fun heq => hnodup.1 ?_
      rw [show k = m.1 from heq]
      exact List.mem_map.mpr ⟨m, hm, rfl⟩
    rw [List.map_cons, knownMembers?, if_pos (hknown _ List.mem_cons_self),
      ih hnodup.2 fun m hm => hknown m (List.mem_cons_of_mem _ hm)]
    show (if (ms.lookup k).isSome then _ else _) = _
    rw [hfresh]
    rfl

theorem fields?_present {names : List String} (hnames : names.Nodup) (least : Nat)
    {entries : List (String × Option Json)} (h : entries.map Prod.fst = names) :
    fields? names least (.record (present entries)) = some (present entries) := by
  have hsub : ((present entries).map Prod.fst).Sublist names := h ▸ map_fst_present entries
  exact fields?_record least (hnames.sublist hsub)
    fun m hm => hsub.subset (List.mem_map.mpr ⟨m, hm, rfl⟩)

/-- **A field is read back** as the value it was written for. -/
theorem optional_present {entries : List (String × Option Json)}
    (hnodup : (entries.map Prod.fst).Nodup) {name : String} {d : Decoder α} {depth : Nat}
    {write : α → Json} {value : Option α}
    (hread : ∀ v ∈ value, write v ≠ .null ∧ d depth (write v) = some v)
    (hentry : entries.lookup name = some (value.map write)) :
    Fields.optional (present entries) name d depth = some value := by
  have hlookup : (present entries).lookup name = value.map write := by
    rw [lookup_present hnodup, hentry, Option.join_some]
  unfold Fields.optional
  split
  · rename_i heq
    rw [hlookup, Option.map_eq_none_iff] at heq
    rw [heq]
  · rename_i heq
    rw [hlookup, Option.map_eq_some_iff] at heq
    obtain ⟨v, hv, hnull⟩ := heq
    exact absurd hnull (hread v hv).1
  · rename_i heq
    rw [hlookup, Option.map_eq_some_iff] at heq
    obtain ⟨v, hv, rfl⟩ := heq
    rw [(hread v hv).2, hv, Option.map_some]

/-- What was read of a field was read by the reading of that field. -/
theorem of_optional {fields : Fields} {name : String} {d : Decoder α} {depth : Nat}
    {b : Option α} (h : fields.optional name d depth = some b) :
    ∀ a ∈ b, ∃ w, d depth w = some a := by
  intro a ha
  obtain rfl : b = some a := ha
  unfold Fields.optional at h
  split at h
  · cases h
  · cases h
  · rename_i w _ _
    obtain ⟨c, hc, hca⟩ := Option.map_eq_some_iff.mp h
    exact ⟨w, Option.some.inj hca ▸ hc⟩

end Records

namespace IdSupply

/-- Identifiers that are given, and in the place of those that are not, one after the
other, what the supply mints. -/
def fillAll (s : IdSupply) : List (Option String) → List String × IdSupply
  | [] => ([], s)
  | id :: rest =>
    let named := s.fill id
    let others := fillAll named.2 rest
    (named.1 :: others.1, others.2)

theorem fillAll_append (s : IdSupply) (xs ys : List (Option String)) :
    s.fillAll (xs ++ ys)
      = ((s.fillAll xs).1 ++ ((s.fillAll xs).2.fillAll ys).1, ((s.fillAll xs).2.fillAll ys).2) := by
  induction xs generalizing s with
  | nil => rfl
  | cons id xs ih => rw [List.cons_append, fillAll, ih, fillAll, List.cons_append]

end IdSupply

namespace StepDocument

variable {ι κ : Type}

/-! ## What reading needs -/

/-- A number that a document can hold, if it is there. -/
def Storable (n : Option Int) : Prop :=
  ∀ v ∈ n, Size.leastSigned64 ≤ v ∧ v ≤ Size.greatestSigned64

mutual

/-- **All the numbers of a step have 64 bits.** -/
def Bounded : StepDocument ι → Prop
  | mk _ _ relay _ _ duration durationMin durationMax iterations body =>
    (∀ n ∈ [relay, duration, durationMin, durationMax, iterations], Storable n)
      ∧ BoundedBody body

/-- All the numbers in the body of a loop have 64 bits. -/
def BoundedBody : Option (List (StepDocument ι)) → Prop
  | none => True
  | some steps => BoundedAll steps

/-- All the numbers of some steps have 64 bits. -/
def BoundedAll : List (StepDocument ι) → Prop
  | [] => True
  | d :: rest => Bounded d ∧ BoundedAll rest

end

mutual

/-- **The number of containers that lie inside one another** in a step: its record,
and the array of its body with the steps in there. -/
def height : StepDocument ι → Nat
  | mk _ _ _ _ _ _ _ _ _ body => heightBody body + 1

/-- The number of containers that lie inside one another in the body of a loop. -/
def heightBody : Option (List (StepDocument ι)) → Nat
  | none => 0
  | some steps => heightAll steps + 1

/-- The number of containers that lie inside one another in some steps. -/
def heightAll : List (StepDocument ι) → Nat
  | [] => 0
  | d :: rest => max (height d) (heightAll rest)

end

mutual

/-- The same step with other identifiers. -/
def rename (f : ι → κ) : StepDocument ι → StepDocument κ
  | mk id t r a dt d lo hi n body => mk (f id) t r a dt d lo hi n (renameBody f body)

/-- The same body of a loop with other identifiers. -/
def renameBody (f : ι → κ) : Option (List (StepDocument ι)) → Option (List (StepDocument κ))
  | none => none
  | some steps => some (renameAll f steps)

/-- The same steps with other identifiers. -/
def renameAll (f : ι → κ) : List (StepDocument ι) → List (StepDocument κ)
  | [] => []
  | d :: rest => rename f d :: renameAll f rest

end

/-! ## Reading what was written -/

theorem decoder_zero (v : Json) : decoder 0 v = none := rfl

/-- The reading of the body of a loop, given the containers left for it. -/
def bodyReader : Nat → Json → Option (List (StepDocument (Option String)))
  | 0 => fun _ => none
  | depth + 1 => fun
    | .arr items => items.mapM (StepDocument.decoder depth)
    | _ => none

theorem decoder_succ (depth : Nat) (v : Json) : decoder (depth + 1) v = (do
    let fields ← fields? stepFields 10 v
    let id ← fields.optional "id" Decoder.text depth
    let type ← fields.optional "type" Decoder.text depth
    let relay ← fields.optional "relay" Decoder.int64 depth
    let action ← fields.optional "action" Decoder.text depth
    let durationType ← fields.optional "durationType" Decoder.text depth
    let duration ← fields.optional "duration" Decoder.int64 depth
    let durationMin ← fields.optional "durationMin" Decoder.int64 depth
    let durationMax ← fields.optional "durationMax" Decoder.int64 depth
    let iterations ← fields.optional "iterations" Decoder.int64 depth
    let body ← loopBody? (bodyReader depth) (fields.lookup "loopSteps")
    some (.mk id type relay action durationType duration durationMin durationMax iterations
      body)) := by
  cases depth <;> rfl

/-- The members that a step may have, with their values if any. -/
def entries (idOf : ι → Option String) : StepDocument ι → List (String × Option Json)
  | mk id type relay action durationType duration durationMin durationMax iterations body =>
    [("id", (idOf id).map .text), ("type", type.map .text), ("relay", relay.map .int),
      ("action", action.map .text), ("durationType", durationType.map .text),
      ("duration", duration.map .int), ("durationMin", durationMin.map .int),
      ("durationMax", durationMax.map .int), ("iterations", iterations.map .int),
      ("loopSteps", body.map fun ss => .arr (toJsonAll idOf ss))]

theorem toJson_eq_record (idOf : ι → Option String) (d : StepDocument ι) :
    d.toJson idOf = .record (present (d.entries idOf)) := by
  cases d with
  | mk id t r a dt dur lo hi n body =>
    have hbody : bodyToJson idOf body
        = member "loopSteps" (fun ss => .arr (toJsonAll idOf ss)) body := by
      cases body <;> rfl
    rw [toJson, entries, hbody]
    simp only [present_cons_map, present_nil, List.append_assoc, List.append_nil]

theorem nodup_stepFields : stepFields.Nodup := by decide

theorem map_fst_entries (idOf : ι → Option String) (d : StepDocument ι) :
    (d.entries idOf).map Prod.fst = stepFields := by
  cases d
  rfl

/-- A number of 64 bits is read back. -/
theorem int64_of_storable {n : Option Int} (h : Storable n) (depth : Nat) :
    ∀ v ∈ n, Json.int v ≠ .null ∧ Decoder.int64 depth (.int v) = some v :=
  fun v hv => ⟨nofun, if_pos (h v hv)⟩

theorem decoder_text (t : Option String) (depth : Nat) :
    ∀ v ∈ t, Json.text v ≠ .null ∧ Decoder.text depth (.text v) = some v :=
  fun _ _ => ⟨nofun, rfl⟩

/-- All fields of a step but its body are read back, whatever the containers left. -/
theorem decoder_record (depth : Nat) {d : StepDocument String} (h : d.Bounded) :
    decoder (depth + 1) (d.toJson some) = match d with
      | mk id t r a dt dur lo hi n body =>
        (loopBody? (bodyReader depth) (body.map fun ss => .arr (toJsonAll some ss))).map
          fun body => mk (some id) t r a dt dur lo hi n body := by
  have hnodup : ((d.entries some).map Prod.fst).Nodup := map_fst_entries some d ▸ nodup_stepFields
  rw [decoder_succ, toJson_eq_record, fields?_present nodup_stepFields 10 (map_fst_entries some d)]
  cases d with
  | mk id t r a dt dur lo hi n body =>
    have hint {m : Option Int} (hm : m ∈ [r, dur, lo, hi, n]) := int64_of_storable (h.1 m hm) depth
    simp only [Option.bind_eq_bind, Option.bind_some]
    rw [optional_present hnodup (decoder_text (some id) depth) rfl, Option.bind_some,
      optional_present hnodup (decoder_text t depth) rfl, Option.bind_some,
      optional_present hnodup (hint (by simp)) rfl, Option.bind_some,
      optional_present hnodup (decoder_text a depth) rfl, Option.bind_some,
      optional_present hnodup (decoder_text dt depth) rfl, Option.bind_some,
      optional_present hnodup (hint (by simp)) rfl, Option.bind_some,
      optional_present hnodup (hint (by simp)) rfl, Option.bind_some,
      optional_present hnodup (hint (by simp)) rfl, Option.bind_some,
      optional_present hnodup (hint (by simp)) rfl, Option.bind_some,
      lookup_present hnodup]
    exact (Option.map_eq_bind ..).symm

mutual

/-- **A step is read back** where enough containers may be opened, and only there. -/
theorem decoder_toJson (depth : Nat) (d : StepDocument String) (h : d.Bounded) :
    decoder depth (d.toJson some) = if d.height ≤ depth then some (d.rename some) else none := by
  match depth, d with
  | 0, mk .. => rw [height, decoder_zero, if_neg (by omega)]
  | depth + 1, mk id t r a dt dur lo hi n none =>
    rw [decoder_record depth h, height, heightBody, if_pos (by omega), rename, renameBody]
    rfl
  | 1, mk id t r a dt dur lo hi n (some steps) =>
    rw [decoder_record 0 h, height, heightBody, if_neg (by omega)]
    rfl
  | depth + 2, mk id t r a dt dur lo hi n (some steps) =>
    rw [decoder_record (depth + 1) h, height, heightBody]
    show Option.map _ (((toJsonAll some steps).mapM (decoder depth)).map some) = _
    rw [mapM_decoder_toJsonAll depth steps h.2]
    by_cases hsteps : heightAll steps ≤ depth
    · rw [if_pos hsteps, if_pos (by omega), rename, renameBody]
      rfl
    · rw [if_neg hsteps, if_neg (by omega)]
      rfl

/-- Steps are read back where enough containers may be opened, and only there. -/
theorem mapM_decoder_toJsonAll (depth : Nat) (ds : List (StepDocument String))
    (h : BoundedAll ds) :
    (toJsonAll some ds).mapM (decoder depth)
      = if heightAll ds ≤ depth then some (renameAll some ds) else none := by
  match ds with
  | [] => rw [heightAll, if_pos (Nat.zero_le _)]; rfl
  | d :: ds =>
    rw [toJsonAll, List.mapM_cons, decoder_toJson depth d h.1, mapM_decoder_toJsonAll depth ds h.2,
      heightAll, renameAll]
    by_cases hd : d.height ≤ depth
    · by_cases hds : heightAll ds ≤ depth
      · rw [if_pos hd, if_pos hds, if_pos (by omega)]
        rfl
      · rw [if_pos hd, if_neg hds, if_neg (by omega)]
        rfl
    · rw [if_neg hd, if_neg (show ¬ max d.height (heightAll ds) ≤ depth by omega)]
      rfl

end

/-! ## What reading guarantees -/

theorem boundedAll_iff (ds : List (StepDocument ι)) :
    BoundedAll ds ↔ ∀ d ∈ ds, d.Bounded := by
  induction ds with
  | nil => exact ⟨nofun, fun _ => trivial⟩
  | cons d ds ih => rw [BoundedAll, ih, List.forall_mem_cons]

theorem heightAll_le_iff (ds : List (StepDocument ι)) (depth : Nat) :
    heightAll ds ≤ depth ↔ ∀ d ∈ ds, d.height ≤ depth := by
  induction ds with
  | nil => exact ⟨nofun, fun _ => Nat.zero_le _⟩
  | cons d ds ih => rw [heightAll, Nat.max_le, ih, List.forall_mem_cons]

/-- A number that was read has 64 bits. -/
theorem storable_of_optional {fields : Fields} {name : String} {depth : Nat} {n : Option Int}
    (h : fields.optional name Decoder.int64 depth = some n) : Storable n := by
  intro v hv
  obtain ⟨w, hw⟩ := of_optional h v hv
  unfold Decoder.int64 Decoder.int at hw
  split at hw
  · split at hw
    · rename_i hbounds
      obtain rfl := Option.some.inj hw
      exact hbounds
    · cases hw
  · cases hw

/-- What was read of a body was read by the reading of bodies. -/
theorem of_loopBody? {α : Type} {read : Json → Option α} {v : Option Json} {b : Option α}
    (h : loopBody? read v = some b) : ∀ a ∈ b, ∃ w, read w = some a := by
  intro a ha
  obtain rfl : b = some a := ha
  unfold loopBody? at h
  split at h
  · cases h
  · cases h
  · rename_i w _
    obtain ⟨c, hc, hca⟩ := Option.map_eq_some_iff.mp h
    exact ⟨w, Option.some.inj hca ▸ hc⟩

theorem of_mapM {α β : Type} {f : α → Option β} {xs : List α} {ys : List β}
    (h : xs.mapM f = some ys) : ∀ y ∈ ys, ∃ x, f x = some y := by
  induction xs generalizing ys with
  | nil =>
    obtain rfl := Option.some.inj h
    nofun
  | cons x xs ih =>
    rw [List.mapM_cons] at h
    obtain ⟨y, hy, h⟩ := Option.bind_eq_some_iff.mp h
    obtain ⟨rest, hrest, h⟩ := Option.bind_eq_some_iff.mp h
    obtain rfl := Option.some.inj h
    rw [List.forall_mem_cons]
    exact ⟨⟨x, hy⟩, ih hrest⟩

/-- What every reading of a step guarantees holds of all steps that were read. -/
theorem all_of_mapM {depth : Nat} {items : List Json}
    {ds : List (StepDocument (Option String))}
    (hread : ∀ v d, decoder depth v = some d → d.Bounded ∧ d.height ≤ depth)
    (h : items.mapM (decoder depth) = some ds) : BoundedAll ds ∧ heightAll ds ≤ depth := by
  have hsteps := fun d hd => (of_mapM h d hd).elim fun v hv => hread v d hv
  rw [boundedAll_iff, heightAll_le_iff]
  exact ⟨fun d hd => (hsteps d hd).1, fun d hd => (hsteps d hd).2⟩

/-- **Whatever was read has numbers of 64 bits**, and opens no more containers than
were allowed. -/
theorem of_decoder {depth : Nat} {v : Json} {d : StepDocument (Option String)}
    (h : decoder depth v = some d) : d.Bounded ∧ d.height ≤ depth := by
  induction depth using Nat.strongRecOn generalizing v d with
  | _ depth ih =>
    match depth with
    | 0 => cases h
    | depth + 1 =>
      have hbody : ∀ w steps, bodyReader depth w = some steps →
          BoundedAll steps ∧ heightAll steps + 1 ≤ depth := by
        intro w steps hread
        match depth with
        | 0 => cases hread
        | depth + 1 =>
          cases w with
          | arr items =>
            rw [Nat.add_le_add_iff_right]
            exact all_of_mapM (fun v d => ih depth (by omega)) hread
          | _ => cases hread
      rw [decoder_succ] at h
      simp only [Option.bind_eq_bind, Option.bind_eq_some_iff] at h
      obtain ⟨fields, -, id, -, t, -, r, hr, a, -, dt, -, dur, hdur, lo, hlo, hi, hhi, n, hn,
        body, hb, heq⟩ := h
      obtain rfl := Option.some.inj heq
      have hnumbers : ∀ m ∈ [r, dur, lo, hi, n], Storable m := by
        simp only [List.forall_mem_cons]
        exact ⟨storable_of_optional hr, storable_of_optional hdur, storable_of_optional hlo,
          storable_of_optional hhi, storable_of_optional hn, nofun⟩
      rw [Bounded, height]
      match body with
      | none => exact ⟨⟨hnumbers, trivial⟩, Nat.succ_le_succ (Nat.zero_le _)⟩
      | some steps =>
        obtain ⟨w, hw⟩ := of_loopBody? hb steps rfl
        obtain ⟨hbounded, hheight⟩ := hbody w steps hw
        exact ⟨⟨hnumbers, hbounded⟩, Nat.succ_le_succ hheight⟩

theorem of_mapM_decoder {depth : Nat} {items : List Json}
    {ds : List (StepDocument (Option String))} (h : items.mapM (decoder depth) = some ds) :
    BoundedAll ds ∧ heightAll ds ≤ depth :=
  all_of_mapM (fun _ _ => of_decoder) h

/-! ## Identifiers -/

mutual

/-- Identifiers that are there are not minted. -/
theorem identify_rename (supply : IdSupply) (d : StepDocument String) :
    (d.rename some).identify supply = (d, supply) := by
  match d with
  | mk id t r a dt dur lo hi n body =>
    rw [rename, identify, IdSupply.fill_some, identifyBody_rename]

theorem identifyBody_rename (supply : IdSupply) (body : Option (List (StepDocument String))) :
    identifyBody supply (renameBody some body) = (body, supply) := by
  match body with
  | none => rfl
  | some steps => rw [renameBody, identifyBody, identifyAll_rename]

theorem identifyAll_rename (supply : IdSupply) (ds : List (StepDocument String)) :
    identifyAll supply (renameAll some ds) = (ds, supply) := by
  match ds with
  | [] => rfl
  | d :: ds => rw [renameAll, identifyAll, identify_rename, identifyAll_rename]

end

mutual

/-- **The identifiers in a step**, its own before those inside. -/
def ids : StepDocument ι → List ι
  | mk id _ _ _ _ _ _ _ _ body => id :: idsBody body

/-- The identifiers in the body of a loop. -/
def idsBody : Option (List (StepDocument ι)) → List ι
  | none => []
  | some steps => idsAll steps

/-- The identifiers in some steps, one after the other. -/
def idsAll : List (StepDocument ι) → List ι
  | [] => []
  | d :: rest => ids d ++ idsAll rest

end

mutual

/-- **Every identifier of a step is filled once**, in order. -/
theorem ids_identify (supply : IdSupply) (d : StepDocument (Option String)) :
    ((d.identify supply).1.ids, (d.identify supply).2) = supply.fillAll d.ids := by
  match d with
  | mk id t r a dt dur lo hi n body =>
    rw [identify, ids, ids, IdSupply.fillAll, ← idsBody_identifyBody]

theorem idsBody_identifyBody (supply : IdSupply)
    (body : Option (List (StepDocument (Option String)))) :
    (idsBody (identifyBody supply body).1, (identifyBody supply body).2)
      = supply.fillAll (idsBody body) := by
  match body with
  | none => rfl
  | some steps => exact idsAll_identifyAll supply steps

theorem idsAll_identifyAll (supply : IdSupply) (ds : List (StepDocument (Option String))) :
    (idsAll (identifyAll supply ds).1, (identifyAll supply ds).2)
      = supply.fillAll (idsAll ds) := by
  match ds with
  | [] => rfl
  | d :: ds =>
    rw [identifyAll, idsAll, idsAll, IdSupply.fillAll_append, ← ids_identify,
      ← idsAll_identifyAll]

end

mutual

/-- Minting identifiers changes no number. -/
theorem bounded_identify (supply : IdSupply) (d : StepDocument (Option String)) :
    (d.identify supply).1.Bounded ↔ d.Bounded := by
  match d with
  | mk id t r a dt dur lo hi n body =>
    rw [identify, Bounded, Bounded, boundedBody_identifyBody]

theorem boundedBody_identifyBody (supply : IdSupply)
    (body : Option (List (StepDocument (Option String)))) :
    BoundedBody (identifyBody supply body).1 ↔ BoundedBody body := by
  match body with
  | none => exact Iff.rfl
  | some steps => exact boundedAll_identifyAll supply steps

theorem boundedAll_identifyAll (supply : IdSupply) (ds : List (StepDocument (Option String))) :
    BoundedAll (identifyAll supply ds).1 ↔ BoundedAll ds := by
  match ds with
  | [] => exact Iff.rfl
  | d :: ds => rw [identifyAll, BoundedAll, BoundedAll, bounded_identify, boundedAll_identifyAll]

end

mutual

/-- Minting identifiers opens no container. -/
theorem height_identify (supply : IdSupply) (d : StepDocument (Option String)) :
    (d.identify supply).1.height = d.height := by
  match d with
  | mk id t r a dt dur lo hi n body => rw [identify, height, height, heightBody_identifyBody]

theorem heightBody_identifyBody (supply : IdSupply)
    (body : Option (List (StepDocument (Option String)))) :
    heightBody (identifyBody supply body).1 = heightBody body := by
  match body with
  | none => rfl
  | some steps => rw [identifyBody, heightBody, heightBody, heightAll_identifyAll]

theorem heightAll_identifyAll (supply : IdSupply) (ds : List (StepDocument (Option String))) :
    heightAll (identifyAll supply ds).1 = heightAll ds := by
  match ds with
  | [] => rfl
  | d :: ds => rw [identifyAll, heightAll, heightAll, height_identify, heightAll_identifyAll]

end

end StepDocument

/-! ## Program documents -/

namespace ProgramDocument

variable {ι κ : Type}

/-- **All the numbers of a program have 64 bits.** -/
def Bounded (doc : ProgramDocument ι) : Prop := StepDocument.BoundedBody doc.steps

/-- **The number of containers that lie inside one another** in a program: its record,
and the array of its steps with the steps in there. -/
def height (doc : ProgramDocument ι) : Nat := StepDocument.heightBody doc.steps + 1

/-- **The identifiers in a program**, its own before those of the steps. -/
def ids (doc : ProgramDocument ι) : List ι := doc.id :: StepDocument.idsBody doc.steps

/-- The same program with other identifiers. -/
def rename (f : ι → κ) (doc : ProgramDocument ι) : ProgramDocument κ :=
  ⟨f doc.id, doc.name, doc.enabled, StepDocument.renameBody f doc.steps⟩

/-- The names of the fields of a program, in order. -/
abbrev fieldNames : List String := ["id", "name", "enabled", "steps"]

/-- The members that a program may have, with their values if any. -/
def entries (idOf : ι → Option String) (doc : ProgramDocument ι) :
    List (String × Option Json) :=
  [("id", (idOf doc.id).map .text), ("name", doc.name.map .text),
    ("enabled", doc.enabled.map .bool),
    ("steps", doc.steps.map fun ss => .arr (StepDocument.toJsonAll idOf ss))]

theorem toJson_eq_record (idOf : ι → Option String) (doc : ProgramDocument ι) :
    doc.toJson idOf = .record (present (doc.entries idOf)) := by
  rw [toJson, entries]
  simp only [present_cons_map, present_nil, List.append_assoc, List.append_nil]

theorem decoder_bool (b : Option Bool) (depth : Nat) :
    ∀ v ∈ b, Json.bool v ≠ .null ∧ Decoder.bool depth (.bool v) = some v :=
  fun _ _ => ⟨nofun, rfl⟩

theorem nodup_fieldNames : fieldNames.Nodup := by decide

/-- **A program is read back** where enough containers may be opened, and only there. -/
theorem decoder_toJson {depth : Nat} {doc : ProgramDocument String} (h : doc.Bounded) :
    decoder depth (doc.toJson some)
      = if doc.height ≤ depth then some (doc.rename some) else none := by
  match depth with
  | 0 =>
    rw [height, if_neg (Nat.not_succ_le_zero _)]
    rfl
  | depth + 1 =>
    have hnodup : ((doc.entries some).map Prod.fst).Nodup := nodup_fieldNames
    have hsteps : Fields.optional (present (doc.entries some)) "steps"
        (Decoder.list StepDocument.decoder) depth
          = if StepDocument.heightBody doc.steps ≤ depth
            then some (StepDocument.renameBody some doc.steps) else none := by
      unfold Fields.optional
      rw [lookup_present hnodup]
      match hbody : doc.steps, depth with
      | none, _ =>
        rw [entries, hbody, StepDocument.heightBody, if_pos (Nat.zero_le _)]
        rfl
      | some ss, 0 =>
        rw [entries, hbody, StepDocument.heightBody, if_neg (Nat.not_succ_le_zero _)]
        rfl
      | some ss, depth + 1 =>
        have hss : StepDocument.BoundedAll ss := by
          rw [Bounded, hbody] at h
          exact h
        rw [entries, hbody, StepDocument.heightBody]
        show ((StepDocument.toJsonAll some ss).mapM (StepDocument.decoder depth)).map some = _
        rw [StepDocument.mapM_decoder_toJsonAll depth ss hss]
        simp only [Nat.add_le_add_iff_right]
        split <;> rfl
    show (fields? fieldNames 4 (doc.toJson some) >>= fun fields => _) = _
    rw [toJson_eq_record, fields?_present nodup_fieldNames 4 rfl]
    simp only [Option.bind_eq_bind, Option.bind_some]
    rw [optional_present hnodup (StepDocument.decoder_text (some doc.id) depth) rfl,
      Option.bind_some, optional_present hnodup (StepDocument.decoder_text doc.name depth) rfl,
      Option.bind_some, optional_present hnodup (decoder_bool doc.enabled depth) rfl,
      Option.bind_some, hsteps, height]
    simp only [Nat.add_le_add_iff_right]
    split <;> rfl

/-- **Whatever was read has numbers of 64 bits**, and opens no more containers than
were allowed. -/
theorem of_decoder {depth : Nat} {v : Json} {doc : ProgramDocument (Option String)}
    (h : decoder depth v = some doc) : doc.Bounded ∧ doc.height ≤ depth := by
  match depth with
  | 0 => cases h
  | depth + 1 =>
    change (fields? fieldNames 4 v >>= fun fields => _) = some doc at h
    simp only [Option.bind_eq_bind, Option.bind_eq_some_iff] at h
    obtain ⟨fields, -, id, -, name, -, enabled, -, steps, hsteps, heq⟩ := h
    obtain rfl := Option.some.inj heq
    rw [Bounded, height]
    match steps with
    | none => exact ⟨trivial, Nat.succ_le_succ (Nat.zero_le _)⟩
    | some ss =>
      obtain ⟨w, hw⟩ := of_optional hsteps ss rfl
      match depth, w with
      | depth + 1, .arr items =>
        obtain ⟨hbounded, hheight⟩ := StepDocument.of_mapM_decoder hw
        exact ⟨hbounded, Nat.succ_le_succ (Nat.succ_le_succ hheight)⟩

/-- Identifiers that are there are not minted. -/
theorem identify_rename (supply : IdSupply) (doc : ProgramDocument String) :
    (doc.rename some).identify supply = (doc, supply) := by
  rw [rename, identify, IdSupply.fill_some, StepDocument.identifyBody_rename]

/-- **Every identifier of a program is filled once**, in order. -/
theorem ids_identify (supply : IdSupply) (doc : ProgramDocument (Option String)) :
    ((doc.identify supply).1.ids, (doc.identify supply).2) = supply.fillAll doc.ids := by
  rw [identify, ids, ids, IdSupply.fillAll, ← StepDocument.idsBody_identifyBody]

/-- Minting identifiers changes no number. -/
theorem bounded_identify (supply : IdSupply) (doc : ProgramDocument (Option String)) :
    (doc.identify supply).1.Bounded ↔ doc.Bounded :=
  StepDocument.boundedBody_identifyBody _ _

/-- Minting identifiers opens no container. -/
theorem height_identify (supply : IdSupply) (doc : ProgramDocument (Option String)) :
    (doc.identify supply).1.height = doc.height := by
  rw [identify, height, height, StepDocument.heightBody_identifyBody]

end ProgramDocument

end Switchboard
