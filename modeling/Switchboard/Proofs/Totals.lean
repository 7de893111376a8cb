import Mathlib.Algebra.Group.Prod
import Mathlib.Algebra.GroupWithZero.Nat
import Switchboard.Proofs.Interchange
import Switchboard.Proofs.Traversal

/-!
# What the summaries of a program add up to

The summaries of a program are computed without writing its expansion out: by
recursion over its steps, in 64 bits, where whatever does not fit is cut down
at once. A loop multiplies what may have been cut down in its body, and lies
in a body itself.

Nothing of that shows in the end. The shortest and the longest time are those
of the expansion, cut down once (`Step.durationBoundsAll_eq`), and so is the
number of dispatches if the counts in each list add up to no more than fits, for
they are not cut down when they are added (`Step.dispatchCountAll_eq`);
`Saturating.add_cut` and `Saturating.mul_cut` are what every node of the recursion
comes to. A step whose count is zero then dispatches nothing, and that is when a
cursor steps over it (`Cursor.StepsOver`).
-/

namespace Switchboard

namespace Step

/-! ## Counting dispatches -/

theorem countSum_eq_sum (ss : List Step) : countSum ss = (ss.map dispatchCount).sum := by
  induction ss with
  | nil => rfl
  | cons s rest ih => rw [countSum, ih, List.map_cons, List.sum_cons]

section Fitting

variable {s : Step} {rest : List Step}

/-- The counts inside the first step of a list fit where those of the list do. -/
theorem CountsFit.head (fits : CountsFit (s :: rest)) :
    ∀ body ∈ s.walk.filterMap body?, countSum body ≤ Size.greatest64 :=
  fun body mem => fits body (List.mem_cons_of_mem _ (by
    rw [walkAll, List.filterMap_append]
    exact List.mem_append_left _ mem))

/-- The counts of the steps behind the first fit where those of the list do. -/
theorem CountsFit.tail (fits : CountsFit (s :: rest)) : CountsFit rest := by
  intro body mem
  rcases List.mem_cons.mp mem with rfl | mem
  · exact Nat.le_trans (Nat.le_add_left _ _) (fits _ List.mem_cons_self)
  · refine fits body (List.mem_cons_of_mem _ ?_)
    rw [walkAll, List.filterMap_append]
    exact List.mem_append_right _ mem

/-- The counts of the body of a loop fit where those of a list with the loop in it do. -/
theorem CountsFit.body {ss : List Step} (fits : CountsFit ss) {id : StepId} {n : UInt32}
    {body : List Step} (mem : loop id n body ∈ ss) : CountsFit body := by
  induction ss with
  | nil => cases mem
  | cons s rest ih =>
    rcases List.mem_cons.mp mem with rfl | mem
    · exact fits.head
    · exact ih fits.tail mem

/-- Where the counts of a list fit, so does the count of its first step together with that of the
others. -/
theorem CountsFit.dispatchCountAll_cons (fits : CountsFit (s :: rest)) :
    dispatchCountAll (s :: rest) = dispatchCount s + dispatchCountAll rest := by
  rw [dispatchCountAll_eq_countSum (fits _ List.mem_cons_self),
    dispatchCountAll_eq_countSum (fits.tail _ List.mem_cons_self), countSum]

end Fitting

mutual

/-- **A step's count is the number of its dispatches**, cut down once, where the counts inside it
fit. -/
theorem dispatchCount_eq (s : Step)
    (fits : ∀ body ∈ s.walk.filterMap body?, countSum body ≤ Size.greatest64) :
    dispatchCount s = Saturating.cut (expand s).length := by
  cases s with
  | relay id o p => rfl
  | wait id span => rfl
  | loop id n body =>
    rw [dispatchCount, dispatchCountAll_eq body fits, Saturating.mul_cut, expand,
      List.length_flatten, List.map_replicate, List.sum_replicate_nat, Nat.mul_comm]

/-- The count of a list is the number of its dispatches, cut down once, where its counts fit. -/
theorem dispatchCountAll_eq (ss : List Step) (fits : CountsFit ss) :
    dispatchCountAll ss = Saturating.cut (expandAll ss).length := by
  cases ss with
  | nil => rfl
  | cons s rest =>
    -- a count that fits is not changed by cutting it down
    have le : dispatchCountAll (s :: rest) ≤ Saturating.limit := by
      rw [dispatchCountAll_eq_countSum (fits _ List.mem_cons_self)]
      exact fits _ List.mem_cons_self
    rw [← Saturating.cut_of_le le, fits.dispatchCountAll_cons, dispatchCount_eq s fits.head,
      dispatchCountAll_eq rest fits.tail, expandAll, List.length_append]
    exact Saturating.add_cut _ _

end

/-- **A step's count is zero exactly if the step dispatches nothing**, where the counts inside it
fit. -/
theorem dispatchCount_eq_zero_iff (s : Step)
    (fits : ∀ body ∈ s.walk.filterMap body?, countSum body ≤ Size.greatest64) :
    dispatchCount s = 0 ↔ expand s = [] := by
  refine ⟨fun zero => ?_, dispatchCount_eq_zero_of_expand s⟩
  rw [dispatchCount_eq s fits, Saturating.cut, Saturating.limit] at zero
  exact List.length_eq_zero_iff.mp (by unfold Size.greatest64 at zero; omega)

/-! ## Adding up waits -/

theorem waited_append (xs ys : List Dispatch) : waited (xs ++ ys) = waited xs + waited ys := by
  induction xs with
  | nil => exact (zero_add (waited ys)).symm
  | cons d xs ih =>
    cases d with
    | relay id o p => exact ih
    | wait id span =>
      show span.bounds + waited (xs ++ ys) = span.bounds + waited xs + waited ys
      rw [ih, add_assoc]

theorem waited_flatten_replicate (n : Nat) (ds : List Dispatch) :
    waited (List.replicate n ds).flatten = n • waited ds := by
  induction n with
  | zero => exact (zero_nsmul (waited ds)).symm
  | succ n ih => rw [List.replicate_succ, List.flatten_cons, waited_append, ih, succ_nsmul']

/-- The bounds of a single wait fit into 64 bits. -/
theorem cut_bounds (span : Span) :
    span.bounds.map Saturating.cut Saturating.cut = span.bounds := by
  have fits : ∀ n : UInt64, Saturating.cut n.toNat = n.toNat := fun n =>
    Saturating.cut_of_le (Nat.le_of_lt_succ n.toNat_lt)
  cases span with
  | fixed seconds => exact Prod.ext (fits _) (fits _)
  | random min max => exact Prod.ext (fits _) (fits _)

mutual

/-- **The bounds of a step are the bounds of its waits added up**, cut down once. -/
theorem durationBounds_eq (s : Step) :
    durationBounds s = (waited (expand s)).map Saturating.cut Saturating.cut := by
  cases s with
  | relay id o p => rfl
  | wait id span => exact (cut_bounds span).symm
  | loop id n body =>
    -- what the body comes to may have been cut down, and is multiplied all the same
    have each : ∀ a, Saturating.mul (Saturating.cut a) n.toNat = Saturating.cut (n.toNat • a) :=
      fun a => (Saturating.mul_cut a n.toNat).trans (congrArg _ (Nat.mul_comm a n.toNat))
    rw [expand, waited_flatten_replicate, durationBounds, durationBoundsAll_eq]
    exact Prod.ext (each _) (each _)

/-- The bounds of a list are the bounds of its waits added up, cut down once. -/
theorem durationBoundsAll_eq (ss : List Step) :
    durationBoundsAll ss = (waited (expandAll ss)).map Saturating.cut Saturating.cut := by
  cases ss with
  | nil => rfl
  | cons s rest =>
    rw [expandAll, waited_append, durationBoundsAll, durationBounds_eq, durationBoundsAll_eq]
    exact Prod.ext (Saturating.add_cut _ _) (Saturating.add_cut _ _)

end

/-! ## Waits of a valid program -/

mutual

/-- A wait that a step dispatches is one of the steps in it. -/
theorem wait_mem_walk {id : StepId} {span : Span} {s : Step}
    (h : Dispatch.wait id span ∈ expand s) : wait id span ∈ walk s := by
  cases s with
  | relay i o p => cases List.mem_singleton.mp h
  | wait i q =>
    cases List.mem_singleton.mp h
    exact List.mem_singleton_self _
  | loop i n body =>
    obtain ⟨pass, hpass, hmem⟩ := List.mem_flatten.mp h
    rw [List.eq_of_mem_replicate hpass] at hmem
    exact List.mem_cons_of_mem _ (wait_mem_walkAll hmem)

/-- A wait that a list of steps dispatches is one of the steps in it. -/
theorem wait_mem_walkAll {id : StepId} {span : Span} {ss : List Step}
    (h : Dispatch.wait id span ∈ expandAll ss) : wait id span ∈ walkAll ss := by
  cases ss with
  | nil => cases h
  | cons s rest =>
    rcases List.mem_append.mp h with h | h
    · exact List.mem_append_left _ (wait_mem_walk h)
    · exact List.mem_append_right _ (wait_mem_walkAll h)

end

end Step

/-! ## The lists of steps of a program -/

/-- **The lists of steps of a program**: its own, and the body of each loop in it. -/
def Program.lists (p : Program) : List (List Step) := p.steps :: p.walk.filterMap Step.body?

/-- **The bounds of a dispatch are in order.** -/
def Dispatch.IsOrdered : Dispatch → Prop
  | .wait _ (.random min max) => min ≤ max
  | _ => True

/-- Whatever a valid program dispatches has its bounds in order. -/
theorem Program.Valid.isOrdered {p : Program} (h : p.Valid) {d : Dispatch} (hd : d ∈ p.expand) :
    d.IsOrdered := by
  cases d with
  | relay id output power => trivial
  | wait id span =>
    cases span with
    | fixed seconds => trivial
    | random min max =>
      exact UInt64.not_lt.mp (Step.not_lt_of_sound (h.steps_sound _ (Step.wait_mem_walkAll hd)))

/-! ## Steps that a cursor leaves out -/

/-- The counts of every list that is gone through fit where those of the program do. -/
theorem Frame.Linked.countsFit {steps : List Step} {f : Frame} {below : List Frame}
    (h : Linked steps (f :: below)) (fits : Step.CountsFit steps) : Step.CountsFit f.steps := by
  induction below generalizing f with
  | nil =>
    cases h with
    | program le => exact fits
  | cons g below ih =>
    cases h with
    | loop outer stands pos lt le => exact (ih outer).body (List.mem_of_getElem? stands)

namespace Cursor

/-- **A step that dispatches nothing is not found** by a cursor that goes through it. -/
theorem resolve_start_eq_none_iff (s : Step) :
    (start [s]).resolve.1 = none ↔ s.dispatchCount = 0 := by
  rw [← Step.routed_eq_nil_iff 0]
  have hahead : (start [s]).ahead = Step.routed 0 s := by
    rw [ahead_start, Step.routedAll, Step.routedAll, List.append_nil]
  obtain ⟨hnil, hr⟩ | ⟨d, found, hr, hs, he⟩ := (inside_start [s]).resolve_cases
  · rw [hr]
    exact iff_of_true rfl (hahead ▸ hnil)
  · rw [hr]
    refine iff_of_false (Option.some_ne_none d) fun hnil => ?_
    rw [hs.ahead_eq, hahead, hnil] at he
    exact List.cons_ne_nil _ _ he

/-- **What becomes of a loop at which a cursor stands**, for the frames of the cursor. -/
structure StepsOver (f : Frame) (below : List Frame) (id : StepId) (n : UInt32)
    (body : List Step) : Prop where
  /-- The loop is stepped over exactly if carrying it out dispatches nothing. -/
  skips : Cursor.pass ⟨f :: below⟩ = .moved ⟨{ f with index := f.index + 1 } :: below⟩
    ↔ (Step.loop id n body).expand = []
  /-- It is entered otherwise. -/
  enters : Cursor.pass ⟨f :: below⟩ = .moved ⟨⟨body, 0, .loop n.toNat 0⟩ :: f :: below⟩
    ↔ (Step.loop id n body).expand ≠ []
  /-- Stepping over it leaves what lies ahead as it is in that case, and in no other. -/
  spares : ahead ⟨{ f with index := f.index + 1 } :: below⟩ = ahead ⟨f :: below⟩
    ↔ (Step.loop id n body).expand = []

variable {f : Frame} {below : List Frame}

/-- What lies ahead of a cursor that stands at a loop begins with what is found in the loop. -/
theorem ahead_of_loop {s : Step} (here : f.steps[f.index]? = some s) :
    ahead ⟨f :: below⟩
      = Step.routed below.length s ++ ahead ⟨{ f with index := f.index + 1 } :: below⟩ := by
  simp [ahead, Frame.ahead, drop_of_here here, Step.routedAll]

/-- **A loop is stepped over exactly when it dispatches nothing**, which is exactly when nothing is
lost, where the counts of its body fit. -/
theorem stepsOver {id : StepId} {n : UInt32} {body : List Step} (fits : Step.CountsFit body)
    (here : f.steps[f.index]? = some (.loop id n body)) : StepsOver f below id n body := by
  have hzero := Step.dispatchCount_eq_zero_iff (.loop id n body) fits
  have hpass : Cursor.pass ⟨f :: below⟩ = if (Step.loop id n body).expand = []
      then .moved ⟨{ f with index := f.index + 1 } :: below⟩
      else .moved ⟨⟨body, 0, .loop n.toNat 0⟩ :: f :: below⟩ := by
    simp only [Cursor.pass, here, hzero]
  -- a cursor that has entered the loop has one frame more
  have hne : (Pass.moved ⟨{ f with index := f.index + 1 } :: below⟩)
      ≠ .moved ⟨⟨body, 0, .loop n.toNat 0⟩ :: f :: below⟩ := fun heq => by
    injection heq with heq
    have hlength := congrArg depth heq
    exact Nat.succ_ne_self below.length (Nat.succ.inj hlength).symm
  constructor
  · rw [hpass]
    split
    · exact iff_of_true rfl ‹_›
    · exact iff_of_false hne.symm ‹_›
  · rw [hpass]
    split
    · exact iff_of_false hne (not_not_intro ‹_›)
    · exact iff_of_true rfl ‹_›
  · rw [ahead_of_loop here, List.self_eq_append_left, Step.routed_eq_nil_iff, hzero]

end Cursor

end Switchboard
