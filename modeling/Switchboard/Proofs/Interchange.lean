import Mathlib.Data.List.Basic
import Switchboard.Catalog
import Switchboard.Proofs.Documents

/-!
# Programs survive being exchanged

A program is exported as a document and stored as the array of its steps. Either text
is read back as the same program, apart from durations that a document cannot hold
(`Program.lowered`), if the program is valid and its steps do not lie too deep for the
reader. How deep that is depends on what is around them: the array of the steps alone,
or that array in the record of a program.

What was read has none of these troubles: its durations fit, and it is no deeper than
the text it came from. So whatever was imported once can be stored, read and exported
without change.
-/

namespace Switchboard

/-! ## Valid programs -/

namespace Step

/-- No fault is found exactly if identifiers are new and distinct and every step is
sound by itself. -/
theorem firstFault?_eq_none_iff (seen : List StepId) (ss : List Step) :
    firstFault? seen ss = none
      ↔ (∀ s ∈ ss, s.id ∉ seen) ∧ (ss.map id).Nodup ∧ ∀ s ∈ ss, s.fault? = none := by
  induction ss generalizing seen with
  | nil => exact ⟨fun _ => ⟨nofun, List.nodup_nil, nofun⟩, fun _ => rfl⟩
  | cons s ss ih =>
    rw [firstFault?, List.forall_mem_cons, List.forall_mem_cons, List.map_cons, List.nodup_cons]
    by_cases hseen : s.id ∈ seen
    · rw [if_pos hseen]
      exact ⟨nofun, fun h => absurd hseen h.1.1⟩
    · rw [if_neg hseen]
      cases hfault : s.fault? with
      | some fault => exact ⟨nofun, fun h => nomatch h.2.2.1⟩
      | none =>
        show firstFault? (s.id :: seen) ss = none ↔ _
        have hfresh : (∀ q ∈ ss, q.id ∉ s.id :: seen)
            ↔ (∀ q ∈ ss, q.id ∉ seen) ∧ s.id ∉ ss.map id := by
          constructor
          · intro h
            refine ⟨fun q hq hmem => h q hq (List.mem_cons_of_mem _ hmem), fun hmem => ?_⟩
            obtain ⟨q, hq, heq⟩ := List.mem_map.mp hmem
            exact h q hq (heq ▸ List.mem_cons_self)
          · rintro ⟨hrest, hs⟩ q hq hmem
            rcases List.mem_cons.mp hmem with heq | hmem
            · exact hs (heq ▸ List.mem_map_of_mem hq)
            · exact hrest q hq hmem
        rw [ih, hfresh]
        constructor
        · rintro ⟨⟨hrest, hs⟩, hnodup, hsound⟩
          exact ⟨⟨hseen, hrest⟩, ⟨hs, hnodup⟩, rfl, hsound⟩
        · rintro ⟨⟨-, hrest⟩, ⟨hs, hnodup⟩, -, hsound⟩
          exact ⟨⟨hrest, hs⟩, hnodup, hsound⟩

end Step

/-- **A program is approved exactly if it is valid.** -/
theorem Program.validate_eq_ok_iff (p : Program) : p.validate = .ok () ↔ p.Valid := by
  unfold Program.validate
  have hname : Text.isAllBlank p.name = false
      ↔ ∃ c ∈ p.name.toList, Text.isBlank c = false := by
    rw [Text.isAllBlank, List.all_eq_false]
    simp only [Bool.not_eq_true]
  have hfresh : ∀ s ∈ p.walk, s.id ∉ ([] : List StepId) := fun _ _ => List.not_mem_nil
  have hsteps := Step.firstFault?_eq_none_iff [] p.walk
  constructor
  · intro h
    split at h
    · cases h
    · rename_i hblank
      split at h
      · cases h
      · rename_i hnone
        obtain ⟨-, hnodup, hsound⟩ := hsteps.mp hnone
        exact ⟨hname.mp (Bool.not_eq_true _ ▸ hblank), hnodup, hsound⟩
  · rintro ⟨hvisible, hnodup, hsound⟩
    rw [hname.mpr hvisible, hsteps.mpr ⟨hfresh, hnodup, hsound⟩]
    rfl

/-! ## What a document can hold -/

/-- A duration lowered to what a document can hold, as a number. -/
theorem toNat_min_maxDocumentSeconds (n : UInt64) :
    (min n (UInt64.ofNat maxDocumentSeconds)).toNat = min n.toNat maxDocumentSeconds := by
  have hmax : (UInt64.ofNat maxDocumentSeconds).toNat = maxDocumentSeconds := by decide
  show (if n ≤ UInt64.ofNat maxDocumentSeconds then n else UInt64.ofNat maxDocumentSeconds).toNat
    = _
  split
  · rename_i hle
    rw [UInt64.le_iff_toNat_le, hmax] at hle
    exact (Nat.min_eq_left hle).symm
  · rename_i hgt
    rw [UInt64.le_iff_toNat_le, hmax] at hgt
    rw [hmax, Nat.min_eq_right (by omega)]

/-- A document holds a duration after lowering it. -/
theorem documentSeconds_min (n : UInt64) :
    documentSeconds (min n (UInt64.ofNat maxDocumentSeconds)) = documentSeconds n := by
  unfold documentSeconds
  rw [toNat_min_maxDocumentSeconds]
  omega

theorem min_maxDocumentSeconds_of_le {n : UInt64} (h : n.toNat ≤ maxDocumentSeconds) :
    min n (UInt64.ofNat maxDocumentSeconds) = n := by
  rw [← UInt64.toNat_inj, toNat_min_maxDocumentSeconds, Nat.min_eq_left h]

namespace StepDocument

/-- **A duration is read back lowered.** -/
theorem seconds_documentSeconds (id : StepId) (field : Field) (n : UInt64) :
    seconds id field (some (documentSeconds n))
      = .ok (min n (UInt64.ofNat maxDocumentSeconds)) := by
  have hsmall := n.toNat_lt
  show (if documentSeconds n < 0 then Except.error _
    else .ok (UInt64.ofNat (documentSeconds n).toNat)) = _
  have hnat : (documentSeconds n).toNat
      = (min n (UInt64.ofNat maxDocumentSeconds)).toNat := by
    rw [toNat_min_maxDocumentSeconds]
    unfold documentSeconds
    omega
  have hpos : ¬ documentSeconds n < 0 := by
    unfold documentSeconds
    omega
  rw [if_neg hpos, hnat, UInt64.ofNat_toNat]

/-- A duration that was read needs no lowering. -/
theorem lowered_of_seconds {id : StepId} {field : Field} {value : Option Int} {n : UInt64}
    (h : seconds id field value = .ok n) (hvalue : Storable value) :
    min n (UInt64.ofNat maxDocumentSeconds) = n := by
  unfold seconds need at h
  cases value with
  | none => cases h
  | some v =>
    have hv := (hvalue v rfl).2
    change (if v < 0 then Except.error _ else .ok (UInt64.ofNat v.toNat)) = _ at h
    split at h
    · cases h
    · obtain rfl := Except.ok.inj h
      refine min_maxDocumentSeconds_of_le ?_
      rw [UInt64.toNat_ofNat']
      exact Nat.le_trans (Nat.mod_le _ _) (Int.toNat_le.mpr hv)

end StepDocument

/-! ## Steps as documents -/

namespace Step

open StepDocument

/-- A random wait that is sound has its bounds in order. -/
theorem not_lt_of_sound {id : StepId} {lo hi : UInt64}
    (h : (wait id (.random lo hi)).fault? = none) : ¬ hi < lo := by
  intro hlt
  change (if hi < lo then some _ else none) = none at h
  rw [if_pos hlt] at h
  cases h

/-- A loop that is sound runs at least once. -/
theorem ne_zero_of_sound {id : StepId} {n : UInt32} {body : List Step}
    (h : (loop id n body).fault? = none) : n ≠ 0 := by
  intro hzero
  change (if n = 0 then some _ else none) = none at h
  rw [if_pos hzero] at h
  cases h

/-- Lowering keeps durations in order. -/
theorem lowered_ordered {lo hi : UInt64} (h : ¬ hi < lo) :
    ¬ min hi (UInt64.ofNat maxDocumentSeconds) < min lo (UInt64.ofNat maxDocumentSeconds) := by
  rw [UInt64.lt_iff_toNat_lt] at h ⊢
  rw [toNat_min_maxDocumentSeconds, toNat_min_maxDocumentSeconds]
  omega

/-- A step that is sound stays so when its durations are lowered. -/
theorem fault?_lowered {s : Step} (h : s.fault? = none) : s.lowered.fault? = none := by
  match s with
  | relay id o p => rfl
  | wait id (.fixed n) => rfl
  | wait id (.random lo hi) => exact if_neg (lowered_ordered (not_lt_of_sound h))
  | loop id n body => exact h

theorem id_lowered (s : Step) : s.lowered.id = s.id := by
  cases s <;> rfl

mutual

/-- Lowering goes through all steps. -/
theorem walk_lowered (s : Step) : s.lowered.walk = s.walk.map lowered := by
  match s with
  | relay id o p => rfl
  | wait id span => rfl
  | loop id n body =>
    rw [lowered, walk, walk, walkAll_loweredAll, List.map_cons, lowered]

theorem walkAll_loweredAll (ss : List Step) :
    walkAll (loweredAll ss) = (walkAll ss).map lowered := by
  match ss with
  | [] => rfl
  | s :: ss => rw [loweredAll, walkAll, walkAll, walk_lowered, walkAll_loweredAll, List.map_append]

end

mutual

/-- **A document holds a step after lowering its durations.** -/
theorem toDocument_lowered (s : Step) : s.lowered.toDocument = s.toDocument := by
  match s with
  | relay id o p => rfl
  | wait id (.fixed n) =>
    rw [lowered, Span.lowered, toDocument, toDocument, documentSeconds_min]
  | wait id (.random lo hi) =>
    rw [lowered, Span.lowered, toDocument, toDocument, documentSeconds_min, documentSeconds_min]
  | loop id n body => rw [lowered, toDocument, toDocument, toDocuments_loweredAll]

theorem toDocuments_loweredAll (ss : List Step) :
    toDocuments (loweredAll ss) = toDocuments ss := by
  match ss with
  | [] => rfl
  | s :: ss => rw [loweredAll, toDocuments, toDocuments, toDocument_lowered, toDocuments_loweredAll]

end

theorem storable_documentSeconds (n : UInt64) : Storable (some (documentSeconds n)) := by
  rintro v ⟨⟩
  unfold documentSeconds maxDocumentSeconds Size.greatestSigned64 Size.leastSigned64
  omega

mutual

/-- A step writes numbers of 64 bits only. -/
theorem bounded_toDocument (s : Step) : s.toDocument.Bounded := by
  have hnone : Storable none := nofun
  match s with
  | relay id o p =>
    have hoccurs : Storable (some (o.val : Int)) := by
      rintro v ⟨⟩
      unfold Size.greatestSigned64 Size.leastSigned64
      omega
    rw [toDocument, Bounded]
    simp only [List.forall_mem_cons]
    exact ⟨⟨hoccurs, hnone, hnone, hnone, hnone, nofun⟩, trivial⟩
  | wait id (.fixed n) =>
    rw [toDocument, Bounded]
    simp only [List.forall_mem_cons]
    exact ⟨⟨hnone, storable_documentSeconds n, hnone, hnone, hnone, nofun⟩, trivial⟩
  | wait id (.random lo hi) =>
    rw [toDocument, Bounded]
    simp only [List.forall_mem_cons]
    exact ⟨⟨hnone, hnone, storable_documentSeconds lo, storable_documentSeconds hi, hnone, nofun⟩,
      trivial⟩
  | loop id n body =>
    have hoccurs : Storable (some (n.toNat : Int)) := by
      have hsmall := n.toNat_lt
      rintro v ⟨⟩
      unfold Size.greatestSigned64 Size.leastSigned64
      omega
    rw [toDocument, Bounded]
    simp only [List.forall_mem_cons]
    exact ⟨⟨hnone, hnone, hnone, hnone, hoccurs, nofun⟩, boundedAll_toDocuments body⟩

theorem boundedAll_toDocuments (ss : List Step) : BoundedAll (toDocuments ss) := by
  match ss with
  | [] => trivial
  | s :: ss => exact ⟨bounded_toDocument s, boundedAll_toDocuments ss⟩

end

mutual

/-- **The document of a sound step describes that step**, its durations lowered. -/
theorem toStep_toDocument (s : Step) (h : ∀ q ∈ s.walk, q.fault? = none) :
    toStep s.toDocument = .ok s.lowered := by
  match s with
  | relay id o p =>
    have hnat : ¬ (o.val : Int) < 0 := by omega
    show toRelay id (some (o.val : Int)) (some p.label) = _
    unfold toRelay need
    show (match if (o.val : Int) < 0 then none else Relay.ofNat? (o.val : Int).toNat with
      | none => _
      | some output => _) = _
    rw [if_neg hnat, Int.toNat_natCast, Relay.ofNat?_val]
    show (match Power.ofLabel? p.label with
      | none => _
      | some power => _) = _
    rw [Power.ofLabel?_label]
    rfl
  | wait id (.fixed n) =>
    show (seconds id .duration (some (documentSeconds n)) >>= _) = _
    rw [seconds_documentSeconds]
    rfl
  | wait id (.random lo hi) =>
    have hordered := lowered_ordered (not_lt_of_sound (h _ List.mem_cons_self))
    show (seconds id .durationMin (some (documentSeconds lo)) >>= fun lo =>
      seconds id .durationMax (some (documentSeconds hi)) >>= fun hi =>
      if hi < lo then _ else _) = _
    rw [seconds_documentSeconds, seconds_documentSeconds]
    exact if_neg hordered
  | loop id n body =>
    rw [walk, List.forall_mem_cons] at h
    have hsmall := n.toNat_lt
    have hpos : 0 < n.toNat := by
      refine Nat.pos_of_ne_zero fun hzero => ne_zero_of_sound h.1 ?_
      rw [← UInt32.toNat_inj, hzero]
      rfl
    have hcount : toIterations id (some (n.toNat : Int)) = .ok n := by
      show (if 1 ≤ (n.toNat : Int) ∧ (n.toNat : Int) ≤ Size.greatest32 then
        Except.ok (UInt32.ofNat (n.toNat : Int).toNat) else .error _) = _
      unfold Size.greatest32
      rw [if_pos (by omega), Int.toNat_natCast, UInt32.ofNat_toNat]
    show (match toIterations id (some (n.toNat : Int)) with
      | .error fault => Except.error fault
      | .ok n => toLoop id n (some (toDocuments body))) = _
    rw [hcount]
    show (match toSteps (toDocuments body) with
      | .error fault => Except.error fault
      | .ok steps => .ok (loop id n steps)) = _
    rw [toSteps_toDocuments body h.2]
    rfl

/-- The documents of sound steps describe those steps, their durations lowered. -/
theorem toSteps_toDocuments (ss : List Step) (h : ∀ q ∈ walkAll ss, q.fault? = none) :
    toSteps (toDocuments ss) = .ok (loweredAll ss) := by
  match ss with
  | [] => rfl
  | s :: ss =>
    rw [walkAll, List.forall_mem_append] at h
    rw [toDocuments, toSteps, toStep_toDocument s h.1]
    show (match toSteps (toDocuments ss) with
      | .error fault => _
      | .ok steps => _) = _
    rw [toSteps_toDocuments ss h.2]
    rfl

end

end Step

/-! ## Documents as steps -/

namespace StepDocument

theorem of_toRelay {id : StepId} {relay : Option Int} {action : Option String} {s : Step}
    (h : toRelay id relay action = .ok s) : ∃ output power, s = .relay id output power := by
  unfold toRelay need at h
  match relay, action with
  | none, _ => cases h
  | some raw, action =>
    change (match if raw < 0 then none else Relay.ofNat? raw.toNat with
      | none => Except.error _
      | some output => _) = Except.ok s at h
    split at h
    · cases h
    · rename_i output _
      cases action with
      | none => cases h
      | some label =>
        change (match Power.ofLabel? label with
          | none => Except.error _
          | some power => Except.ok (Step.relay id output power)) = Except.ok s at h
        split at h
        · cases h
        · rename_i power _
          exact ⟨output, power, (Except.ok.inj h).symm⟩

theorem of_toWait {id : StepId} {durationType : Option String}
    {duration durationMin durationMax : Option Int} {s : Step}
    (h : toWait id durationType duration durationMin durationMax = .ok s) :
    (∃ n, seconds id .duration duration = .ok n ∧ s = .wait id (.fixed n))
    ∨ ∃ lo hi, seconds id .durationMin durationMin = .ok lo
        ∧ seconds id .durationMax durationMax = .ok hi ∧ s = .wait id (.random lo hi) := by
  unfold toWait at h
  split at h
  · cases hn : seconds id .duration duration with
    | error fault =>
      rw [hn] at h
      cases h
    | ok n =>
      rw [hn] at h
      exact .inl ⟨n, rfl, (Except.ok.inj h).symm⟩
  · cases hlo : seconds id .durationMin durationMin with
    | error fault =>
      rw [hlo] at h
      cases h
    | ok lo =>
      cases hhi : seconds id .durationMax durationMax with
      | error fault =>
        rw [hlo, hhi] at h
        cases h
      | ok hi =>
        rw [hlo, hhi] at h
        change (if hi < lo then Except.error _ else Except.ok _) = Except.ok s at h
        split at h
        · cases h
        · exact .inr ⟨lo, hi, rfl, rfl, (Except.ok.inj h).symm⟩
  · cases h

theorem of_toLoop {id : StepId} {n : UInt32} {body : Option (List (StepDocument String))}
    {s : Step} (h : toLoop id n body = .ok s) :
    ∃ ds steps, body = some ds ∧ toSteps ds = .ok steps ∧ s = .loop id n steps := by
  match body with
  | none => cases h
  | some ds =>
    cases hsteps : toSteps ds with
    | error fault =>
      rw [toLoop, hsteps] at h
      cases h
    | ok steps =>
      rw [toLoop, hsteps] at h
      exact ⟨ds, steps, rfl, hsteps, (Except.ok.inj h).symm⟩

/-- **What a step was read from.** -/
theorem of_toStep {id : StepId} {t a dt : Option String} {r dur lo hi n : Option Int}
    {body : Option (List (StepDocument String))} {s : Step}
    (h : toStep (mk id t r a dt dur lo hi n body) = .ok s) :
    (∃ output power, s = .relay id output power)
    ∨ (∃ m, seconds id .duration dur = .ok m ∧ s = .wait id (.fixed m))
    ∨ (∃ l u, seconds id .durationMin lo = .ok l ∧ seconds id .durationMax hi = .ok u
        ∧ s = .wait id (.random l u))
    ∨ ∃ m ds steps, body = some ds ∧ toSteps ds = .ok steps ∧ s = .loop id m steps := by
  unfold toStep at h
  split at h
  · cases h
  · exact .inl (of_toRelay h)
  · rcases of_toWait h with h | h
    · exact .inr (.inl h)
    · exact .inr (.inr (.inl h))
  · split at h
    · cases h
    · rename_i m _
      exact .inr (.inr (.inr ⟨m, of_toLoop h⟩))
  · cases h

theorem toSteps_cons {d : StepDocument String} {ds : List (StepDocument String)}
    {ss : List Step} (h : toSteps (d :: ds) = .ok ss) :
    ∃ s rest, toStep d = .ok s ∧ toSteps ds = .ok rest ∧ ss = s :: rest := by
  rw [toSteps] at h
  split at h
  · cases h
  · rename_i s hs
    split at h
    · cases h
    · rename_i rest hrest
      exact ⟨s, rest, hs, hrest, (Except.ok.inj h).symm⟩

mutual

/-- **A step that was read needs no lowering.** -/
theorem lowered_of_toStep {d : StepDocument String} {s : Step} (h : toStep d = .ok s)
    (hd : d.Bounded) : s.lowered = s := by
  match d with
  | mk id t r a dt dur lo hi n body =>
    obtain ⟨hnumbers, hbody⟩ := hd
    simp only [List.forall_mem_cons] at hnumbers
    obtain ⟨-, hdur, hlo, hhi, -, -⟩ := hnumbers
    rcases of_toStep h with ⟨output, power, rfl⟩ | ⟨m, hm, rfl⟩ | ⟨l, u, hl, hu, rfl⟩
      | ⟨m, ds, steps, rfl, hsteps, rfl⟩
    · rfl
    · rw [Step.lowered, Span.lowered, lowered_of_seconds hm hdur]
    · rw [Step.lowered, Span.lowered, lowered_of_seconds hl hlo, lowered_of_seconds hu hhi]
    · rw [Step.lowered, loweredAll_of_toSteps hsteps hbody]

theorem loweredAll_of_toSteps {ds : List (StepDocument String)} {ss : List Step}
    (h : toSteps ds = .ok ss) (hds : BoundedAll ds) : Step.loweredAll ss = ss := by
  match ds with
  | [] =>
    obtain rfl := Except.ok.inj h
    rfl
  | d :: ds =>
    obtain ⟨s, rest, hs, hrest, rfl⟩ := toSteps_cons h
    rw [Step.loweredAll, lowered_of_toStep hs hds.1, loweredAll_of_toSteps hrest hds.2]

end

mutual

/-- A step that was read is no deeper than its document. -/
theorem height_of_toStep {d : StepDocument String} {s : Step} (h : toStep d = .ok s) :
    s.toDocument.height ≤ d.height := by
  match d with
  | mk id t r a dt dur lo hi n body =>
    rw [height]
    rcases of_toStep h with ⟨output, power, rfl⟩ | ⟨m, hm, rfl⟩ | ⟨l, u, hl, hu, rfl⟩
      | ⟨m, ds, steps, rfl, hsteps, rfl⟩
    · exact Nat.succ_le_succ (Nat.zero_le _)
    · exact Nat.succ_le_succ (Nat.zero_le _)
    · exact Nat.succ_le_succ (Nat.zero_le _)
    · exact Nat.succ_le_succ (Nat.succ_le_succ (heightAll_of_toSteps hsteps))

theorem heightAll_of_toSteps {ds : List (StepDocument String)} {ss : List Step}
    (h : toSteps ds = .ok ss) : heightAll (Step.toDocuments ss) ≤ heightAll ds := by
  match ds with
  | [] =>
    obtain rfl := Except.ok.inj h
    exact Nat.le_refl _
  | d :: ds =>
    obtain ⟨s, rest, hs, hrest, rfl⟩ := toSteps_cons h
    have hfirst := height_of_toStep hs
    have hothers := heightAll_of_toSteps hrest
    rw [Step.toDocuments, heightAll, heightAll]
    omega

end

mutual

/-- **A step that was read keeps its identifiers**, in order. -/
theorem ids_of_toStep {d : StepDocument String} {s : Step} (h : toStep d = .ok s) :
    (s.walk.map Step.id).Sublist d.ids := by
  match d with
  | mk id t r a dt dur lo hi n body =>
    rw [ids]
    rcases of_toStep h with ⟨output, power, rfl⟩ | ⟨m, hm, rfl⟩ | ⟨l, u, hl, hu, rfl⟩
      | ⟨m, ds, steps, rfl, hsteps, rfl⟩
    · exact (List.nil_sublist _).cons_cons id
    · exact (List.nil_sublist _).cons_cons id
    · exact (List.nil_sublist _).cons_cons id
    · rw [Step.walk, List.map_cons, idsBody]
      exact (idsAll_of_toSteps hsteps).cons_cons id

theorem idsAll_of_toSteps {ds : List (StepDocument String)} {ss : List Step}
    (h : toSteps ds = .ok ss) : ((Step.walkAll ss).map Step.id).Sublist (idsAll ds) := by
  match ds with
  | [] =>
    obtain rfl := Except.ok.inj h
    exact List.Sublist.refl _
  | d :: ds =>
    obtain ⟨s, rest, hs, hrest, rfl⟩ := toSteps_cons h
    rw [Step.walkAll, List.map_append, idsAll]
    exact (ids_of_toStep hs).append (idsAll_of_toSteps hrest)

end

end StepDocument

/-! ## How deep steps lie -/

namespace Step

open StepDocument

mutual

/-- **A step and every step inside it**, each with the number of loops around it, for a
step that lies inside some loops itself. -/
def placed (around : Nat) : Step → List (Step × Nat)
  | relay id o p => [(relay id o p, around)]
  | wait id s => [(wait id s, around)]
  | loop id n body => (loop id n body, around) :: placedAll (around + 1) body

/-- The steps of a list and every step inside them, each with the number of loops
around it. -/
def placedAll (around : Nat) : List Step → List (Step × Nat)
  | [] => []
  | s :: rest => placed around s ++ placedAll around rest

end

mutual

/-- Without the loops around them, these are the steps of a walk. -/
theorem map_fst_placed (around : Nat) (s : Step) : (placed around s).map Prod.fst = walk s := by
  match s with
  | relay id o p => rfl
  | wait id s => rfl
  | loop id n body => rw [placed, walk, List.map_cons, map_fst_placedAll]

theorem map_fst_placedAll (around : Nat) (ss : List Step) :
    (placedAll around ss).map Prod.fst = walkAll ss := by
  match ss with
  | [] => rfl
  | s :: ss => rw [placedAll, walkAll, List.map_append, map_fst_placed, map_fst_placedAll]

end

/-- A step lies where it stands. -/
theorem mem_placed_self (around : Nat) (s : Step) : (s, around) ∈ placed around s := by
  cases s <;> exact List.mem_cons_self

theorem height_toDocument_pos (s : Step) : 0 < s.toDocument.height := by
  cases hd : s.toDocument
  exact Nat.succ_pos _

mutual

/-- **Containers and loops around a step.** Two containers are opened for every loop,
and up to two more for a step in there. -/
theorem height_toDocument_le_iff (m around : Nat) (s : Step) :
    s.toDocument.height ≤ 2 * m + 2 ↔ ∀ q ∈ placed around s, q.2 ≤ around + m := by
  match s with
  | relay id o p =>
    have hheight : (relay id o p).toDocument.height = 1 := rfl
    rw [placed, List.forall_mem_singleton, hheight]
    omega
  | wait id span =>
    have hheight : (wait id span).toDocument.height = 1 := by cases span <;> rfl
    rw [placed, List.forall_mem_singleton, hheight]
    omega
  | loop id n body =>
    have hheight : (loop id n body).toDocument.height = heightAll (toDocuments body) + 2 := by
      rw [toDocument, height, heightBody]
    rw [placed, List.forall_mem_cons, hheight]
    match m with
    | m + 1 =>
      have hbody := heightAll_toDocuments_le_iff m (around + 1) body
      rw [show around + (m + 1) = around + 1 + m by omega, ← hbody]
      omega
    | 0 =>
      match body with
      | [] => exact ⟨fun _ => ⟨Nat.le_refl _, nofun⟩, fun _ => Nat.le_refl _⟩
      | s :: ss =>
        have hpos := height_toDocument_pos s
        constructor
        · intro hle
          rw [toDocuments, heightAll] at hle
          omega
        · rintro ⟨-, hall⟩
          have hs := hall (s, around + 1) (List.mem_append_left _ (mem_placed_self _ s))
          exact absurd hs (Nat.not_succ_le_self _)

theorem heightAll_toDocuments_le_iff (m around : Nat) (ss : List Step) :
    heightAll (toDocuments ss) ≤ 2 * m + 2 ↔ ∀ q ∈ placedAll around ss, q.2 ≤ around + m := by
  match ss with
  | [] => exact ⟨fun _ => nofun, fun _ => Nat.zero_le _⟩
  | s :: ss =>
    rw [toDocuments, heightAll, Nat.max_le, height_toDocument_le_iff m around s,
      heightAll_toDocuments_le_iff m around ss, placedAll, List.forall_mem_append]

end

end Step

/-- The number of loops that may lie around a step for its program to be read back from
the catalog: each opens two containers inside the array of the steps, and the step
itself opens one or two. -/
def Catalog.loopLimit : Nat := 62

/-- **No step lies inside more loops than the catalog can read.** -/
def Program.Shallow (p : Program) : Prop :=
  ∀ q ∈ Step.placedAll 0 p.steps, q.2 ≤ Catalog.loopLimit

instance (p : Program) : Decidable p.Shallow :=
  inferInstanceAs (Decidable (∀ q ∈ Step.placedAll 0 p.steps, q.2 ≤ Catalog.loopLimit))

namespace Program

variable {p : Program}

theorem shallow_iff_heightAll (p : Program) :
    p.Shallow ↔ StepDocument.heightAll (Step.toDocuments p.steps) ≤ 126 := by
  rw [show 126 = 2 * 62 + 2 from rfl, Step.heightAll_toDocuments_le_iff 62 0 p.steps, Nat.zero_add]
  exact Iff.rfl

theorem shallow_lowered (p : Program) : p.lowered.Shallow ↔ p.Shallow := by
  rw [shallow_iff_heightAll, shallow_iff_heightAll, lowered, Step.toDocuments_loweredAll]

/-- Lowering durations twice changes nothing more. -/
theorem Valid.lowered_lowered (h : p.Valid) : p.lowered.lowered = p.lowered := by
  have hsteps := StepDocument.loweredAll_of_toSteps
    (Step.toSteps_toDocuments p.steps h.steps_sound) (Step.boundedAll_toDocuments p.steps)
  show Program.mk p.id p.name p.enabled (Step.loweredAll (Step.loweredAll p.steps)) = _
  rw [hsteps]
  rfl

/-- **A valid program stays valid when its durations are lowered.** -/
theorem Valid.lowered (h : p.Valid) : p.lowered.Valid := by
  have hwalk : p.lowered.walk = p.walk.map Step.lowered := Step.walkAll_loweredAll p.steps
  refine ⟨h.name_visible, ?_, ?_⟩
  · rw [hwalk, List.map_map, show Step.id ∘ Step.lowered = Step.id from funext Step.id_lowered]
    exact h.ids_nodup
  · rw [hwalk]
    intro s hs
    obtain ⟨q, hq, rfl⟩ := List.mem_map.mp hs
    exact Step.fault?_lowered (h.steps_sound q hq)

end Program

/-! ## Stored programs -/

namespace Catalog.Row

/-- **The array of steps is read back**, their durations lowered, where no step lies too
deep, and not at all elsewhere. -/
theorem readSteps?_listToJson (supply : IdSupply) {p : Program} (h : p.Valid) :
    readSteps? supply (Step.listToJson p.steps).compact
      = if p.Shallow then some (Step.loweredAll p.steps, supply) else none := by
  have hread : (Json.Decoder.list StepDocument.decoder).run (Step.listToJson p.steps).compact
      = if p.Shallow then some (StepDocument.renameAll some (Step.toDocuments p.steps))
        else none := by
    show (Json.parse _ >>= _) = _
    rw [Json.parse_compact]
    show (StepDocument.toJsonAll some (Step.toDocuments p.steps)).mapM (StepDocument.decoder 126)
      = _
    rw [StepDocument.mapM_decoder_toJsonAll 126 _ (Step.boundedAll_toDocuments p.steps)]
    simp only [Program.shallow_iff_heightAll]
  unfold readSteps?
  rw [hread]
  by_cases hshallow : p.Shallow
  · rw [if_pos hshallow, if_pos hshallow]
    dsimp only
    rw [StepDocument.identifyAll_rename, Step.toSteps_toDocuments p.steps h.steps_sound]
  · rw [if_neg hshallow, if_neg hshallow]

/-- A row keeps a program with its durations lowered. -/
theorem ofProgram_lowered (p : Program) : ofProgram p.lowered = ofProgram p := by
  unfold ofProgram Step.listToJson Program.lowered
  rw [Step.toDocuments_loweredAll]

/-- **A valid program is read back from its row**, its durations lowered, unless some
step lies too deep; then it is not read at all. -/
theorem toProgram?_ofProgram (supply : IdSupply) {p : Program} (h : p.Valid) :
    (ofProgram p).toProgram? supply
      = if p.Shallow then some (p.lowered, supply) else none := by
  have henabled : decide ((ofProgram p).enabled ≠ 0) = p.enabled := by
    unfold ofProgram
    cases p.enabled <;> rfl
  unfold toProgram?
  rw [henabled]
  show Option.map _ (readSteps? supply (Step.listToJson p.steps).compact) = _
  rw [readSteps?_listToJson supply h]
  split <;> rfl

end Catalog.Row

/-! ## Exported programs -/

namespace Program

variable {p : Program}

/-- The number of containers that lie inside one another in an export. -/
theorem height_toDocument (p : Program) :
    p.toDocument.height = StepDocument.heightAll (Step.toDocuments p.steps) + 2 := rfl

/-- A document of a valid program is that program again, its durations lowered. -/
theorem toProgram_toDocument (h : p.Valid) : p.toDocument.toProgram = .ok p.lowered := by
  have hvalid : p.lowered.validate = .ok () := (validate_eq_ok_iff p.lowered).mpr h.lowered
  unfold ProgramDocument.toProgram
  simp only [toDocument, Step.toSteps_toDocuments p.steps h.steps_sound, Option.getD_some]
  unfold lowered at hvalid
  rw [hvalid]
  rfl

/-- **An export is read** as the document that was written, unless too many containers lie
inside one another; then it is not read at all. -/
theorem run_toText (p : Program) :
    ProgramDocument.decoder.run p.toText
      = if p.toDocument.height ≤ Json.depthLimit then some (p.toDocument.rename some) else none := by
  have hbounded : p.toDocument.Bounded := Step.boundedAll_toDocuments p.steps
  show (Json.parse _ >>= _) = _
  unfold toText
  rw [Json.parse_pretty]
  show ProgramDocument.decoder Json.depthLimit (p.toDocument.toJson some) = _
  rw [ProgramDocument.decoder_toJson hbounded]

/-- An export that is read describes what its document describes, and mints nothing. -/
theorem ofText_toText_eq_toProgram (supply : IdSupply)
    (hheight : p.toDocument.height ≤ Json.depthLimit) :
    ofText supply p.toText = (p.toDocument.toProgram, supply) := by
  unfold ofText
  rw [run_toText, if_pos hheight]
  dsimp only
  rw [ProgramDocument.identify_rename]

/-- **An export is read back**, its durations lowered, and mints nothing. -/
theorem ofText_toText (supply : IdSupply) (h : p.Valid)
    (hheight : p.toDocument.height ≤ Json.depthLimit) :
    ofText supply p.toText = (.ok p.lowered, supply) := by
  rw [ofText_toText_eq_toProgram supply hheight, toProgram_toDocument h]

end Program

/-- **What a program was read from**: a document with the steps of the program, valid
as a whole. -/
theorem ProgramDocument.of_toProgram {doc : ProgramDocument String} {p : Program}
    (h : doc.toProgram = .ok p) :
    ∃ ds, doc.steps = some ds ∧ StepDocument.toSteps ds = .ok p.steps ∧ p.id = doc.id
      ∧ p.Valid := by
  unfold toProgram at h
  split at h
  · cases h
  · rename_i ds hds
    split at h
    · cases h
    · rename_i steps hsteps
      dsimp only at h
      split at h
      · cases h
      · rename_i hvalid
        obtain rfl := Except.ok.inj h
        exact ⟨ds, hds, hsteps, rfl, (Program.validate_eq_ok_iff _).mp hvalid⟩

namespace Program

variable {p : Program} {supply rest : IdSupply} {text : String}

/-- **What an import reads**: the document of the text with the missing identifiers
minted. -/
theorem of_ofText (h : ofText supply text = (.ok p, rest)) :
    ∃ doc, ProgramDocument.decoder.run text = some doc
      ∧ (doc.identify supply).1.toProgram = .ok p ∧ (doc.identify supply).2 = rest := by
  unfold ofText at h
  split at h
  · cases h
  · rename_i doc hdoc
    obtain ⟨hprogram, hrest⟩ := Prod.mk.inj h
    exact ⟨doc, hdoc, hprogram, hrest⟩

/-- What was imported is valid. -/
theorem valid_of_ofText (h : ofText supply text = (.ok p, rest)) : p.Valid := by
  obtain ⟨doc, -, hprogram, -⟩ := of_ofText h
  obtain ⟨ds, -, -, -, hvalid⟩ := ProgramDocument.of_toProgram hprogram
  exact hvalid

/-- What a text is read as has numbers of 64 bits, and opens no more containers than
were allowed. -/
theorem of_run {doc : ProgramDocument (Option String)}
    (h : ProgramDocument.decoder.run text = some doc) :
    doc.Bounded ∧ doc.height ≤ Json.depthLimit := by
  obtain ⟨v, -, hv⟩ := Option.bind_eq_some_iff.mp h
  exact ProgramDocument.of_decoder hv

/-- What was imported needs no lowering. -/
theorem lowered_of_ofText (h : ofText supply text = (.ok p, rest)) : p.lowered = p := by
  obtain ⟨doc, hdoc, hprogram, -⟩ := of_ofText h
  obtain ⟨ds, hds, hsteps, -, -⟩ := ProgramDocument.of_toProgram hprogram
  have hbounded := (ProgramDocument.bounded_identify supply doc).mpr (of_run hdoc).1
  rw [ProgramDocument.Bounded, hds] at hbounded
  show Program.mk p.id p.name p.enabled (Step.loweredAll p.steps) = p
  rw [StepDocument.loweredAll_of_toSteps hsteps hbounded]

/-- What was imported can be imported again from its export. -/
theorem height_of_ofText (h : ofText supply text = (.ok p, rest)) :
    p.toDocument.height ≤ Json.depthLimit := by
  obtain ⟨doc, hdoc, hprogram, -⟩ := of_ofText h
  obtain ⟨ds, hds, hsteps, -, -⟩ := ProgramDocument.of_toProgram hprogram
  have hheight := (of_run hdoc).2
  rw [← ProgramDocument.height_identify supply, ProgramDocument.height, hds] at hheight
  have hle := StepDocument.heightAll_of_toSteps hsteps
  exact Nat.le_trans (Nat.succ_le_succ (Nat.succ_le_succ hle)) hheight

/-- What was imported can be read from the catalog. -/
theorem shallow_of_ofText (h : ofText supply text = (.ok p, rest)) : p.Shallow := by
  have hheight := height_of_ofText h
  rw [height_toDocument, Json.depthLimit] at hheight
  rw [shallow_iff_heightAll]
  omega

/-- **An import fills every identifier of its document once**, in order. The first
becomes that of the program, and its steps have of the others what they need. -/
theorem ids_of_ofText (h : ofText supply text = (.ok p, rest)) :
    ∃ doc inner, ProgramDocument.decoder.run text = some doc
      ∧ supply.fillAll doc.ids = (p.id :: inner, rest)
      ∧ (p.walk.map Step.id).Sublist inner := by
  obtain ⟨doc, hdoc, hprogram, hrest⟩ := of_ofText h
  obtain ⟨ds, hds, hsteps, hid, -⟩ := ProgramDocument.of_toProgram hprogram
  refine ⟨doc, StepDocument.idsAll ds, hdoc, ?_, StepDocument.idsAll_of_toSteps hsteps⟩
  rw [← ProgramDocument.ids_identify, ProgramDocument.ids, hds, hid, hrest]
  rfl

end Program

end Switchboard
