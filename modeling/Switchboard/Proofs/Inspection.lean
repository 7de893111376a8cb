import Mathlib.Data.List.Nodup
import Switchboard.Proofs.Acceptance

/-!
# Which fault of a program is reported

A program may have any number of faults at once, at any depth. The one that is
reported lies first in the order of the text: outer steps before inner ones,
earlier before later.

An address tells where a step lies, as the number of a step in the list of the
program, then in the body of that step, and so on. The lexicographic order of
addresses is the order of the text, and a walk through the program meets them
in that order (`Step.pairwise_addressedAll`). What is wrong at an address
(`Program.FaultAt`) is said without a walk: the identifier is used at an
earlier address, or else the step breaks a rule by itself.

The steps are gone through by a visitor that keeps the identifiers it has seen
and the first fault it has found (`Inspection`). Once it has found one, no
later step makes a difference.
-/

namespace Switchboard

/-! ## Addresses of steps -/

namespace Step

/-- **The step at an address inside a step**, if there is one. -/
def inside? : List Nat → Step → Option Step
  | [], s => some s
  | i :: inner, s => (s.body?.bind (·[i]?)).bind (inside? inner)

/-- **The step at an address** in a list of steps, if there is one. -/
def at? (ss : List Step) : List Nat → Option Step
  | [] => none
  | i :: inner => ss[i]?.bind (inside? inner)

theorem inside?_loop (id : StepId) (n : UInt32) (body : List Step) (i : Nat) (inner : List Nat) :
    inside? (i :: inner) (loop id n body) = at? body (i :: inner) := rfl

mutual

/-- **A step and every step inside it**, depth first, each with its address inside the step. -/
def addressed : Step → List (List Nat × Step)
  | relay id o p => [([], relay id o p)]
  | wait id span => [([], wait id span)]
  | loop id n body => ([], loop id n body) :: addressedAll 0 body

/-- The steps of a list and every step inside them, if the list begins at some number. -/
def addressedAll (i : Nat) : List Step → List (List Nat × Step)
  | [] => []
  | s :: rest => (addressed s).map (fun x => (i :: x.1, x.2)) ++ addressedAll (i + 1) rest

end

mutual

/-- Without the addresses, these are the steps of the walk. -/
theorem map_snd_addressed (s : Step) : (addressed s).map Prod.snd = walk s := by
  cases s with
  | relay id o p => rfl
  | wait id span => rfl
  | loop id n body =>
    rw [addressed, walk, List.map_cons, map_snd_addressedAll]

/-- Without the addresses, these are the steps of the walk through a list. -/
theorem map_snd_addressedAll (i : Nat) (ss : List Step) :
    (addressedAll i ss).map Prod.snd = walkAll ss := by
  cases ss with
  | nil => rfl
  | cons s rest =>
    rw [addressedAll, walkAll, List.map_append, List.map_map, map_snd_addressedAll,
      ← map_snd_addressed]
    rfl

end

mutual

/-- **The walk through a step meets what lies at the addresses inside it**, and nothing else. -/
theorem mem_addressed {a : List Nat} {q : Step} (s : Step) :
    (a, q) ∈ addressed s ↔ inside? a s = some q := by
  cases s with
  | relay id o p =>
    cases a with
    | nil => simp [addressed, inside?, eq_comm]
    | cons i inner => simp [addressed, inside?, body?]
  | wait id span =>
    cases a with
    | nil => simp [addressed, inside?, eq_comm]
    | cons i inner => simp [addressed, inside?, body?]
  | loop id n body =>
    rw [addressed, List.mem_cons, mem_addressedAll]
    cases a with
    | nil => simp [inside?, eq_comm]
    | cons i inner => simp [inside?_loop, at?]

/-- The walk through a list meets what lies at the addresses in it, and nothing else. -/
theorem mem_addressedAll {a : List Nat} {q : Step} (i : Nat) (ss : List Step) :
    (a, q) ∈ addressedAll i ss
      ↔ ∃ j inner, a = (i + j) :: inner ∧ at? ss (j :: inner) = some q := by
  cases ss with
  | nil => simp [addressedAll, at?]
  | cons s rest =>
    have hfirst : (a, q) ∈ (addressed s).map (fun x => (i :: x.1, x.2))
        ↔ ∃ inner, a = i :: inner ∧ inside? inner s = some q := by
      rw [List.mem_map]
      constructor
      · rintro ⟨⟨inner, q⟩, hmem, ⟨⟩⟩
        exact ⟨inner, rfl, (mem_addressed s).mp hmem⟩
      · rintro ⟨inner, rfl, hq⟩
        exact ⟨(inner, q), (mem_addressed s).mpr hq, rfl⟩
    rw [addressedAll, List.mem_append, hfirst, mem_addressedAll (i + 1) rest]
    constructor
    · rintro (⟨inner, rfl, hq⟩ | ⟨j, inner, rfl, hq⟩)
      · exact ⟨0, inner, rfl, hq⟩
      · exact ⟨j + 1, inner, by rw [Nat.add_right_comm, Nat.add_assoc], hq⟩
    · rintro ⟨j, inner, rfl, hq⟩
      cases j with
      | zero => exact .inl ⟨inner, rfl, hq⟩
      | succ j => exact .inr ⟨j, inner, by rw [Nat.add_right_comm, Nat.add_assoc], hq⟩

end

mutual

/-- **The walk through a step goes from one address to the next**, in lexicographic order. -/
theorem pairwise_addressed (s : Step) : (addressed s).Pairwise (fun x y => x.1 < y.1) := by
  cases s with
  | relay id o p => exact List.pairwise_singleton _ _
  | wait id span => exact List.pairwise_singleton _ _
  | loop id n body =>
    refine List.pairwise_cons.mpr ⟨fun x hx => ?_, pairwise_addressedAll 0 body⟩
    obtain ⟨j, inner, haddress, -⟩ := (mem_addressedAll 0 body).mp hx
    rw [haddress]
    exact List.nil_lt_cons _ _

/-- The walk through a list goes from one address to the next. -/
theorem pairwise_addressedAll (i : Nat) (ss : List Step) :
    (addressedAll i ss).Pairwise (fun x y => x.1 < y.1) := by
  cases ss with
  | nil => exact .nil
  | cons s rest =>
    refine List.pairwise_append.mpr ⟨List.pairwise_map.mpr ?_, pairwise_addressedAll _ rest, ?_⟩
    · exact (pairwise_addressed s).imp fun h => List.cons_lt_cons_iff.mpr (.inr ⟨rfl, h⟩)
    · intro x hx y hy
      obtain ⟨x, -, rfl⟩ := List.mem_map.mp hx
      obtain ⟨j, inner, haddress, -⟩ := (mem_addressedAll (i + 1) rest).mp hy
      rw [haddress]
      exact List.cons_lt_cons_iff.mpr (.inl (by omega))

end

end Step

namespace Program

variable {p : Program} {a b : List Nat} {s q : Step} {fault other : Malformed}

/-- **The step at an address** in a program, if there is one. -/
def at? (p : Program) (a : List Nat) : Option Step := Step.at? p.steps a

/-- The steps of a program and their addresses, depth first. -/
def addressed (p : Program) : List (List Nat × Step) := Step.addressedAll 0 p.steps

theorem map_snd_addressed (p : Program) : p.addressed.map Prod.snd = p.walk :=
  Step.map_snd_addressedAll 0 p.steps

theorem mem_addressed : (a, s) ∈ p.addressed ↔ p.at? a = some s := by
  rw [addressed, Step.mem_addressedAll]
  constructor
  · rintro ⟨j, inner, rfl, hs⟩
    rw [Nat.zero_add]
    exact hs
  · intro hs
    cases a with
    | nil => cases hs
    | cons j inner => exact ⟨j, inner, by rw [Nat.zero_add], hs⟩

theorem pairwise_addressed (p : Program) : p.addressed.Pairwise (fun x y => x.1 < y.1) :=
  Step.pairwise_addressedAll 0 p.steps

/-- A step of a program is a step at some address. -/
theorem mem_walk_iff : s ∈ p.walk ↔ ∃ a, p.at? a = some s := by
  rw [← map_snd_addressed, List.mem_map]
  constructor
  · rintro ⟨⟨a, s⟩, hmem, rfl⟩
    exact ⟨a, mem_addressed.mp hmem⟩
  · rintro ⟨a, hs⟩
    exact ⟨(a, s), mem_addressed.mpr hs, rfl⟩

/-! ## What is wrong at an address -/

/-- **An identifier is used before an address.** -/
def UsedBefore (p : Program) (a : List Nat) (id : StepId) : Prop :=
  ∃ b q, b < a ∧ p.at? b = some q ∧ q.id = id

/-- **What is wrong at an address.** -/
inductive FaultAt (p : Program) (a : List Nat) : Malformed → Prop where
  /-- The identifier of the step is used at an earlier address. -/
  | repeats {s : Step} (here : p.at? a = some s) (used : p.UsedBefore a s.id) :
      FaultAt p a (.duplicateStepId s.id)
  /-- A random wait is to take longer at least than at most. -/
  | inverted {id : StepId} {min max : UInt64}
      (here : p.at? a = some (.wait id (.random min max))) (new : ¬p.UsedBefore a id)
      (gt : max < min) : FaultAt p a (.invertedRange id min.toNat max.toNat)
  /-- A loop is to run not even once. -/
  | idle {id : StepId} {body : List Step} (here : p.at? a = some (.loop id 0 body))
      (new : ¬p.UsedBefore a id) : FaultAt p a (.invalidIterations id 0)

end Program

/-- What a step has wrong with it by itself. -/
theorem Step.fault?_eq_some_iff {s : Step} {fault : Malformed} :
    s.fault? = some fault
      ↔ (∃ id min max, s = wait id (.random min max) ∧ max < min
          ∧ fault = .invertedRange id min.toNat max.toNat)
        ∨ ∃ id body, s = loop id 0 body ∧ fault = .invalidIterations id 0 := by
  cases s with
  | relay id o p => simp [fault?]
  | wait id span =>
    cases span with
    | fixed seconds => simp [fault?]
    | random min max => simp [fault?, eq_comm]
  | loop id n body => simp [fault?, eq_comm]

namespace Program

variable {p : Program} {a b : List Nat} {s q : Step} {fault other : Malformed}

/-- **A repeated identifier is what is wrong with a step**, whatever else is. With a new one, a step
has wrong with it what it has by itself. -/
theorem faultAt_iff (here : p.at? a = some s) :
    p.FaultAt a fault ↔ p.UsedBefore a s.id ∧ .duplicateStepId s.id = fault
      ∨ ¬p.UsedBefore a s.id ∧ s.fault? = some fault := by
  rw [Step.fault?_eq_some_iff]
  constructor
  · intro h
    cases h with
    | repeats there used =>
      cases here.symm.trans there
      exact .inl ⟨used, rfl⟩
    | inverted there new gt =>
      cases here.symm.trans there
      exact .inr ⟨new, .inl ⟨_, _, _, rfl, gt, rfl⟩⟩
    | idle there new =>
      cases here.symm.trans there
      exact .inr ⟨new, .inr ⟨_, _, rfl, rfl⟩⟩
  · rintro (⟨used, rfl⟩ | ⟨new, ⟨id, min, max, rfl, gt, rfl⟩ | ⟨id, body, rfl, rfl⟩⟩)
    · exact .repeats here used
    · exact .inverted here new gt
    · exact .idle here new

theorem faultAt_of_usedBefore (here : p.at? a = some s) (used : p.UsedBefore a s.id) :
    p.FaultAt a fault ↔ .duplicateStepId s.id = fault := by
  simp [faultAt_iff here, used]

theorem faultAt_of_new (here : p.at? a = some s) (new : ¬p.UsedBefore a s.id) :
    p.FaultAt a fault ↔ s.fault? = some fault := by
  simp [faultAt_iff here, new]

/-- There is a step where something is wrong. -/
theorem FaultAt.exists_step (h : p.FaultAt a fault) : ∃ s, p.at? a = some s := by
  cases h with
  | repeats here => exact ⟨_, here⟩
  | inverted here => exact ⟨_, here⟩
  | idle here => exact ⟨_, here⟩

/-- **At most one thing is wrong at an address.** -/
theorem FaultAt.unique (h : p.FaultAt a fault) (h' : p.FaultAt a other) : fault = other := by
  obtain ⟨s, here⟩ := h.exists_step
  by_cases used : p.UsedBefore a s.id
  · rw [faultAt_of_usedBefore here used] at h h'
    exact h.symm.trans h'
  · rw [faultAt_of_new here used] at h h'
    exact Option.some.inj (h.symm.trans h')

/-- **The first fault** among the steps at some addresses. -/
def IsFirst (p : Program) (among : List (List Nat × Step)) (fault : Malformed) : Prop :=
  ∃ x ∈ among, p.FaultAt x.1 fault ∧ ∀ y ∈ among, y.1 < x.1 → ∀ other, ¬p.FaultAt y.1 other

/-- A fault at the first address is the first fault. -/
theorem isFirst_cons_of_faultAt {x : List Nat × Step} {rest : List (List Nat × Step)}
    (sorted : (x :: rest).Pairwise (fun x y => x.1 < y.1)) (h : p.FaultAt x.1 other) :
    p.IsFirst (x :: rest) fault ↔ other = fault := by
  have hlater : ∀ y ∈ rest, x.1 < y.1 := (List.pairwise_cons.mp sorted).1
  constructor
  · rintro ⟨y, hy, hfault, hnone⟩
    rcases List.mem_cons.mp hy with rfl | hy
    · exact h.unique hfault
    · exact absurd h (hnone x List.mem_cons_self (hlater y hy) other)
  · rintro rfl
    refine ⟨x, List.mem_cons_self, h, fun y hy hlt => ?_⟩
    rcases List.mem_cons.mp hy with rfl | hy
    · exact absurd hlt (List.lt_irrefl _)
    · exact absurd (hlater y hy) (List.lt_asymm hlt)

/-- An address where nothing is wrong can be passed over. -/
theorem isFirst_cons_of_not_faultAt {x : List Nat × Step} {rest : List (List Nat × Step)}
    (h : ∀ other, ¬p.FaultAt x.1 other) : p.IsFirst (x :: rest) fault ↔ p.IsFirst rest fault := by
  constructor
  · rintro ⟨y, hy, hfault, hnone⟩
    rcases List.mem_cons.mp hy with rfl | hy
    · exact absurd hfault (h fault)
    · exact ⟨y, hy, hfault, fun z hz => hnone z (List.mem_cons_of_mem _ hz)⟩
  · rintro ⟨y, hy, hfault, hnone⟩
    refine ⟨y, List.mem_cons_of_mem _ hy, hfault, fun z hz => ?_⟩
    rcases List.mem_cons.mp hz with rfl | hz
    · exact fun _ => h
    · exact hnone z hz

/-- **The steps before an address in the walk** are those at earlier addresses. -/
theorem usedBefore_iff_of_split {x : List Nat × Step} {before after : List (List Nat × Step)}
    (split : p.addressed = before ++ x :: after) (id : StepId) :
    p.UsedBefore x.1 id ↔ ∃ y ∈ before, y.2.id = id := by
  have hsorted := p.pairwise_addressed
  rw [split, List.pairwise_append, List.pairwise_cons] at hsorted
  -- the walk goes from one address to the next, so that what comes later lies later
  obtain ⟨-, ⟨hafter, -⟩, hbefore⟩ := hsorted
  constructor
  · rintro ⟨b, q, hlt, hq, hid⟩
    have hmem := mem_addressed.mpr hq
    rw [split, List.mem_append, List.mem_cons] at hmem
    obtain hmem | rfl | hmem := hmem
    · exact ⟨(b, q), hmem, hid⟩
    · exact absurd hlt (List.lt_irrefl _)
    · exact absurd (hafter _ hmem) (List.lt_asymm hlt)
  · rintro ⟨y, hy, hid⟩
    have hmem : y ∈ p.addressed := split ▸ List.mem_append_left _ hy
    exact ⟨y.1, y.2, hbefore y hy x List.mem_cons_self, mem_addressed.mp hmem, hid⟩

/-- **What is left of the walk is searched for its first fault**, if the identifiers seen are those
of the steps before it. -/
theorem firstFault?_eq_some_iff_isFirst {before after : List (List Nat × Step)}
    (split : p.addressed = before ++ after) {seen : List StepId}
    (hseen : ∀ id, id ∈ seen ↔ ∃ y ∈ before, y.2.id = id) :
    Step.firstFault? seen (after.map Prod.snd) = some fault ↔ p.IsFirst after fault := by
  -- a step that passes joins those before, and its identifier those that were seen
  induction after generalizing before seen with
  | nil => exact ⟨nofun, fun ⟨x, hx, _⟩ => absurd hx List.not_mem_nil⟩
  | cons x after ih =>
    have here : p.at? x.1 = some x.2 :=
      mem_addressed.mp (split ▸ List.mem_append_right _ List.mem_cons_self)
    have hsorted : (x :: after).Pairwise (fun x y => x.1 < y.1) :=
      (List.pairwise_append.mp (split ▸ p.pairwise_addressed)).2.1
    have hused : p.UsedBefore x.1 x.2.id ↔ x.2.id ∈ seen := by
      rw [hseen, usedBefore_iff_of_split split]
    rw [List.map_cons, Step.firstFault?]
    by_cases again : x.2.id ∈ seen
    · have hfault := (faultAt_of_usedBefore here (hused.mpr again)).mpr rfl
      rw [if_pos again, isFirst_cons_of_faultAt hsorted hfault, Option.some.injEq]
    · rw [if_neg again]
      have hfaults : ∀ other, p.FaultAt x.1 other ↔ x.2.fault? = some other := fun _ =>
        faultAt_of_new here (mt hused.mp again)
      cases hfault : x.2.fault? with
      | some found =>
        rw [isFirst_cons_of_faultAt hsorted ((hfaults found).mpr hfault)]
        exact Option.some_inj
      | none =>
        have hnone : ∀ other, ¬p.FaultAt x.1 other := fun other h =>
          Option.some_ne_none other (((hfaults other).mp h).symm.trans hfault)
        rw [isFirst_cons_of_not_faultAt hnone]
        refine ih (split.trans (List.append_cons _ _ _)) fun id => ?_
        rw [List.mem_cons, hseen]
        simp [or_and_right, exists_or, or_comm, eq_comm]

/-! ## Programs with nothing wrong -/

/-- **The rules that a program keeps**, said of the steps at its addresses. -/
structure KeepsRules (p : Program) : Prop where
  /-- The name has a character that is not blank. -/
  visible : ∃ c ∈ p.name.toList, Text.isBlank c = false
  /-- Steps at different addresses have different identifiers. -/
  distinct : ∀ {a b s q}, p.at? a = some s → p.at? b = some q → s.id = q.id → a = b
  /-- No random wait is to take longer at least than at most. -/
  ordered : ∀ {a id min max}, p.at? a = some (.wait id (.random min max)) → min ≤ max
  /-- Every loop is to run at least once. -/
  runs : ∀ {a id n body}, p.at? a = some (.loop id n body) → 1 ≤ n.toNat

/-- Identifiers are distinct if they are so at different addresses. -/
theorem nodup_ids_iff (p : Program) :
    (p.walk.map Step.id).Nodup
      ↔ ∀ a b s q, p.at? a = some s → p.at? b = some q → s.id = q.id → a = b := by
  have hnodup : p.addressed.Nodup := p.pairwise_addressed.imp (by
    rintro x _ hlt rfl
    exact List.lt_irrefl _ hlt)
  rw [← map_snd_addressed, List.map_map, List.nodup_map_iff_inj_on hnodup]
  constructor
  · intro inj a b s q hs hq hid
    exact congrArg Prod.fst (inj (a, s) (mem_addressed.mpr hs) (b, q) (mem_addressed.mpr hq) hid)
  · rintro distinct ⟨a, s⟩ hs ⟨b, q⟩ hq hid
    rw [mem_addressed] at hs hq
    obtain rfl := distinct a b s q hs hq hid
    exact Prod.ext rfl (Option.some.inj (hs.symm.trans hq))

/-- **A program is valid exactly if it keeps the rules.** -/
theorem valid_iff_keepsRules (p : Program) : p.Valid ↔ p.KeepsRules := by
  constructor
  · rintro ⟨visible, distinct, sound⟩
    have hsound : ∀ {a s}, p.at? a = some s → s.fault? = none := fun hs =>
      sound _ (mem_walk_iff.mpr ⟨_, hs⟩)
    refine ⟨visible, fun hs hq => (nodup_ids_iff p).mp distinct _ _ _ _ hs hq, fun hs => ?_,
      fun hs => ?_⟩
    · exact UInt64.not_lt.mp (Step.not_lt_of_sound (hsound hs))
    · exact Nat.pos_of_ne_zero fun hn =>
        Step.ne_zero_of_sound (hsound hs) (UInt32.toNat_inj.mp hn)
  · rintro ⟨visible, distinct, ordered, runs⟩
    refine ⟨visible, (nodup_ids_iff p).mpr fun _ _ _ _ => distinct, fun s hs => ?_⟩
    obtain ⟨a, here⟩ := mem_walk_iff.mp hs
    rw [Option.eq_none_iff_forall_ne_some]
    intro fault hfault
    obtain ⟨id, min, max, rfl, gt, -⟩ | ⟨id, body, rfl, -⟩ := Step.fault?_eq_some_iff.mp hfault
    · exact UInt64.not_lt.mpr (ordered here) gt
    · exact Nat.not_succ_le_zero 0 (runs here)

end Program

/-! ## The visitor -/

/-- **What the visitor knows** while it goes through the steps of a program. -/
structure Inspection where
  /-- The identifiers that it has seen. -/
  seen : List StepId
  /-- The first fault that it has found. -/
  failure : Option Malformed

/-- **Visits a step.** -/
def Inspection.visit (x : Inspection) (s : Step) : Inspection :=
  if x.failure.isSome then x
  else if s.id ∈ x.seen then { x with failure := some (.duplicateStepId s.id) }
  else ⟨s.id :: x.seen, s.fault?⟩

/-- **A fault that was found stays**, whatever steps are visited afterwards. -/
theorem Inspection.foldl_visit_of_failure {x : Inspection} (found : x.failure.isSome = true)
    (ss : List Step) : ss.foldl Inspection.visit x = x := by
  induction ss with
  | nil => rfl
  | cons s rest ih => rw [List.foldl_cons, Inspection.visit, if_pos found, ih]

/-- **The visitor finds the first fault** among the steps that it visits. -/
theorem Inspection.failure_foldl_visit (seen : List StepId) (ss : List Step) :
    (ss.foldl Inspection.visit ⟨seen, none⟩).failure = Step.firstFault? seen ss := by
  induction ss generalizing seen with
  | nil => rfl
  | cons s ss ih =>
    rw [List.foldl_cons, Step.firstFault?]
    by_cases again : s.id ∈ seen
    · have hvisit : Inspection.visit ⟨seen, none⟩ s = ⟨seen, some (.duplicateStepId s.id)⟩ := by
        simp [Inspection.visit, again]
      rw [if_pos again, hvisit, foldl_visit_of_failure rfl]
    · have hvisit : Inspection.visit ⟨seen, none⟩ s = ⟨s.id :: seen, s.fault?⟩ := by
        simp [Inspection.visit, again]
      rw [if_neg again, hvisit]
      cases s.fault? with
      | some fault => rw [foldl_visit_of_failure rfl]
      | none => exact ih _

namespace Step

mutual

/-- **Takes the visitor through a step** and every step inside it. -/
def inspect (x : Inspection) : Step → Inspection
  | relay id o p => x.visit (relay id o p)
  | wait id span => x.visit (wait id span)
  | loop id n body => inspectAll (x.visit (loop id n body)) body

/-- Takes the visitor through the steps of a list. -/
def inspectAll (x : Inspection) : List Step → Inspection
  | [] => x
  | s :: rest => inspectAll (inspect x s) rest

end

mutual

/-- The visitor visits the steps of the walk, one after the other. -/
theorem inspect_eq_foldl (x : Inspection) (s : Step) :
    inspect x s = (walk s).foldl Inspection.visit x := by
  cases s with
  | relay id o p => rfl
  | wait id span => rfl
  | loop id n body => rw [inspect, walk, List.foldl_cons, inspectAll_eq_foldl]

/-- The visitor visits the steps of the walk through a list. -/
theorem inspectAll_eq_foldl (x : Inspection) (ss : List Step) :
    inspectAll x ss = (walkAll ss).foldl Inspection.visit x := by
  cases ss with
  | nil => rfl
  | cons s rest =>
    rw [inspectAll, walkAll, List.foldl_append, inspectAll_eq_foldl, inspect_eq_foldl]

end

theorem inspectAll_append (x : Inspection) (ss ts : List Step) :
    inspectAll x (ss ++ ts) = inspectAll (inspectAll x ss) ts := by
  induction ss generalizing x with
  | nil => rfl
  | cons s ss ih => exact ih (inspect x s)

end Step

namespace Program

/-- What the visitor knows once it has been through a program. -/
def inspect (p : Program) : Inspection := Step.inspectAll ⟨[], none⟩ p.steps

/-- **A program is judged by its name and by what the visitor has found.** -/
theorem validate_eq_inspect (p : Program) :
    p.validate = if Text.isAllBlank p.name then .error .emptyName
      else match p.inspect.failure with
        | some fault => .error fault
        | none => .ok () := by
  rw [inspect, Step.inspectAll_eq_foldl, Inspection.failure_foldl_visit]
  rfl

/-- **More steps at the end** change nothing about a fault that there was without them. -/
theorem validate_of_append {p : Program} {before after : List Step} {fault : Malformed}
    (split : p.steps = before ++ after)
    (faulty : { p with steps := before }.validate = .error fault) :
    p.validate = .error fault := by
  rw [validate_eq_inspect] at faulty ⊢
  by_cases blank : Text.isAllBlank p.name = true
  · rw [if_pos blank] at faulty ⊢
    exact faulty
  · rw [if_neg blank] at faulty ⊢
    cases found : (inspect { p with steps := before }).failure with
    | none =>
      rw [found] at faulty
      cases faulty
    | some first =>
      have hstays : p.inspect = inspect { p with steps := before } := by
        rw [inspect, split, Step.inspectAll_append, Step.inspectAll_eq_foldl _ after]
        exact Inspection.foldl_visit_of_failure (Option.isSome_iff_exists.mpr ⟨first, found⟩) _
      rw [hstays]
      exact faulty

/-- **A program is approved exactly if it keeps the rules**; otherwise the first fault is reported.
A blank name comes first, and then what is wrong at the first address where anything is: an
identifier that was used before, or else a random wait or a loop that breaks its rule. Steps that
follow make no difference. -/
theorem validate_reports_first (p : Program) :
    (p.validate = .ok () ↔ p.KeepsRules)
      ∧ (∀ fault, p.validate = .error fault
        ↔ (∀ c ∈ p.name.toList, Text.isBlank c = true) ∧ fault = .emptyName
          ∨ (∃ c ∈ p.name.toList, Text.isBlank c = false)
            ∧ ∃ a, p.FaultAt a fault ∧ ∀ b < a, ∀ other, ¬p.FaultAt b other)
      ∧ ∀ before after fault, p.steps = before ++ after →
          { p with steps := before }.validate = .error fault → p.validate = .error fault := by
  refine ⟨(validate_eq_ok_iff p).trans (valid_iff_keepsRules p), fun fault => ?_,
    fun _ _ _ => validate_of_append⟩
  have hfirst : Step.firstFault? [] p.walk = some fault
      ↔ ∃ a, p.FaultAt a fault ∧ ∀ b < a, ∀ other, ¬p.FaultAt b other := by
    rw [← map_snd_addressed, firstFault?_eq_some_iff_isFirst (List.nil_append _).symm (by simp)]
    constructor
    · rintro ⟨x, -, hfault, hnone⟩
      refine ⟨x.1, hfault, fun b hlt other h => ?_⟩
      obtain ⟨q, there⟩ := h.exists_step
      exact hnone (b, q) (mem_addressed.mpr there) hlt other h
    · rintro ⟨a, hfault, hnone⟩
      obtain ⟨s, here⟩ := hfault.exists_step
      exact ⟨(a, s), mem_addressed.mpr here, hfault, fun y _ hlt => hnone y.1 hlt⟩
  rw [validate_eq_error_iff, hfirst]

/-- Of four faults, the one that lies first is reported: a range inside a loop, before an identifier
that the loop itself has used, a loop that never runs and an identifier at the end. -/
example :
    Program.validate ⟨"tangle", "Tangle", true,
      [.loop "a" 2 [.wait "b" (.random 3 1), .relay "a" 0 .on, .loop "c" 0 []],
        .wait "b" (.fixed 1)]⟩ = .error (.invertedRange "b" 3 1) := by
  decide

end Program

end Switchboard
