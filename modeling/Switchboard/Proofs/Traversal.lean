import Switchboard.Engine.Cursor

/-!
# A cursor walks the expansion of its steps

`Step.expandAll` writes the dispatches of a program out by plain recursion. A
cursor finds them one at a time, on a stack of frames that it grows and shrinks
as it enters and leaves loops. This module proves that the two agree.

They do not agree on all programs. A cursor steps over loops whose count is
zero, and counts are added as 64 bits add: those of a list may come to zero
although its steps dispatch something. What a cursor finds is therefore a
recursion of its own, `Step.routedAll`. It is the expansion where counts fit
(`Program.CountsFit.route_eq`), and may be another list where they do not
(`Program.route_spill`). Counts err on one side alone: a loop whose count is not
zero dispatches something, and something is found in it.

The idea is to read off a stack what it has yet to yield. `Frame.ahead` does
so: the rest of the innermost list, the passes through it that are still to
come, and then what the frames below yield behind the loop they stand at. A
look at the innermost frame either finds the head of that list or moves the
cursor without changing it (`Cursor.ahead_of_moved`).

That a search finds the head within its budget is a matter of phases. A search
first leaves lists that hold nothing more, then restarts at most one body, and
from there only enters loops in whose bodies something is found; it never
leaves a list again. `Frame.Linked` is what that rests on: every frame goes
through the body of the loop at which the frame below it stands.
-/

namespace Switchboard

/-! ## The expansion, with the loops around each dispatch -/

namespace Step

mutual

/-- **The dispatches of a step**, each with the number of loops around it, for a
step that lies inside some loops itself. -/
def nested (around : Nat) : Step → List (Dispatch × Nat)
  | relay id o p => [(.relay id o p, around)]
  | wait id s => [(.wait id s, around)]
  | loop _ n body => (List.replicate n.toNat (nestedAll (around + 1) body)).flatten

/-- The dispatches of a list of steps, each with the number of loops around it. -/
def nestedAll (around : Nat) : List Step → List (Dispatch × Nat)
  | [] => []
  | s :: rest => nested around s ++ nestedAll around rest

end

mutual

/-- Without the loops around them, these are the dispatches of the step. -/
theorem map_fst_nested (around : Nat) (s : Step) :
    (nested around s).map Prod.fst = expand s := by
  cases s with
  | relay id o p => rfl
  | wait id s => rfl
  | loop id n body =>
    rw [nested, expand, List.map_flatten, List.map_replicate, map_fst_nestedAll]

/-- Without the loops around them, these are the dispatches of the list. -/
theorem map_fst_nestedAll (around : Nat) (ss : List Step) :
    (nestedAll around ss).map Prod.fst = expandAll ss := by
  cases ss with
  | nil => rfl
  | cons s rest =>
    rw [nestedAll, expandAll, List.map_append, map_fst_nested, map_fst_nestedAll]

end

/-! ## Counts -/

theorem mul_eq_zero_iff {a b : Nat} : Saturating.mul a b = 0 ↔ a = 0 ∨ b = 0 := by
  unfold Saturating.mul Saturating.cut Saturating.limit Size.greatest64
  rw [← Nat.mul_eq_zero]
  omega

/-- A list's count is the sum of the counts of its steps, as 64 bits add. -/
theorem dispatchCountAll_eq_wrap64 (ss : List Step) :
    dispatchCountAll ss = Size.wrap64 (countSum ss) := by
  induction ss with
  | nil => rfl
  | cons s rest ih => rw [dispatchCountAll, ih, Size.wrap64_add, countSum]

/-- **Where the counts of a list fit, its count is their sum.** -/
theorem dispatchCountAll_eq_countSum {ss : List Step} (fits : countSum ss ≤ Size.greatest64) :
    dispatchCountAll ss = countSum ss := by
  rw [dispatchCountAll_eq_wrap64, Size.wrap64_of_le fits]

mutual

/-- **A step that dispatches nothing has the count zero.** Cutting a product down does not make it
zero. -/
theorem dispatchCount_eq_zero_of_expand (s : Step) (nil : expand s = []) : dispatchCount s = 0 := by
  cases s with
  | relay id o p => cases nil
  | wait id s => cases nil
  | loop id n body =>
    rw [dispatchCount, mul_eq_zero_iff]
    by_cases hn : n.toNat = 0
    · exact .inr hn
    · have body_nil := List.flatten_eq_nil_iff.mp nil _ (List.mem_replicate.mpr ⟨hn, rfl⟩)
      exact .inl (dispatchCountAll_eq_zero_of_expandAll body body_nil)

/-- A list that dispatches nothing has the count zero. -/
theorem dispatchCountAll_eq_zero_of_expandAll (ss : List Step) (nil : expandAll ss = []) :
    dispatchCountAll ss = 0 := by
  cases ss with
  | nil => rfl
  | cons s rest =>
    obtain ⟨first, later⟩ := List.append_eq_nil_iff.mp nil
    rw [dispatchCountAll, dispatchCount_eq_zero_of_expand s first,
      dispatchCountAll_eq_zero_of_expandAll rest later]
    rfl

end

/-! ## The steps that a cursor finds -/

mutual

/-- **The dispatches that a cursor finds in a step**, each with the number of loops around it. A
loop whose count is zero is stepped over. -/
def routed (around : Nat) : Step → List (Dispatch × Nat)
  | relay id o p => [(.relay id o p, around)]
  | wait id s => [(.wait id s, around)]
  | loop id n body =>
    if dispatchCount (loop id n body) = 0 then []
    else (List.replicate n.toNat (routedAll (around + 1) body)).flatten

/-- The dispatches that a cursor finds in a list of steps, each with the number of loops around
it. -/
def routedAll (around : Nat) : List Step → List (Dispatch × Nat)
  | [] => []
  | s :: rest => routed around s ++ routedAll around rest

end

mutual

/-- **A cursor finds nothing in a step exactly if its count is zero.** -/
theorem routed_eq_nil_iff (around : Nat) (s : Step) :
    routed around s = [] ↔ dispatchCount s = 0 := by
  cases s with
  | relay id o p => simp [dispatchCount, routed]
  | wait id s => simp [dispatchCount, routed]
  | loop id n body =>
    rw [routed]
    split
    · exact iff_of_true rfl ‹_›
    · rename_i pos
      refine iff_of_false (fun nil => ?_) pos
      rw [dispatchCount, mul_eq_zero_iff, not_or] at pos
      exact routedAll_ne_nil (around + 1) body pos.1
        (List.flatten_eq_nil_iff.mp nil _ (List.mem_replicate.mpr ⟨pos.2, rfl⟩))

/-- **A cursor finds something in a list whose count is not zero.** It may find something in other
lists too: their counts may add up to a multiple of what 64 bits keep. -/
theorem routedAll_ne_nil (around : Nat) (ss : List Step) (pos : dispatchCountAll ss ≠ 0) :
    routedAll around ss ≠ [] := by
  cases ss with
  | nil => exact absurd rfl pos
  | cons s rest =>
    intro nil
    obtain ⟨first, later⟩ := List.append_eq_nil_iff.mp nil
    refine routedAll_ne_nil around rest (fun zero => pos ?_) later
    rw [dispatchCountAll, (routed_eq_nil_iff around s).mp first, zero]
    rfl

end

/-- A loop whose count is not zero has an iteration, and something is found in its body. -/
theorem of_dispatchCount_loop_ne_zero {id : StepId} {n : UInt32} {body : List Step}
    (h : (loop id n body).dispatchCount ≠ 0) :
    0 < n.toNat ∧ ∀ around, routedAll around body ≠ [] := by
  rw [dispatchCount, ne_eq, mul_eq_zero_iff, not_or] at h
  exact ⟨Nat.pos_of_ne_zero h.2, fun around => routedAll_ne_nil around body h.1⟩

/-- In a list whose counts fit and come to zero, nothing is found. -/
theorem routedAll_eq_nil {ss : List Step} (around : Nat)
    (fits : countSum ss ≤ Size.greatest64) (zero : dispatchCountAll ss = 0) :
    routedAll around ss = [] := by
  rw [dispatchCountAll_eq_countSum fits] at zero
  clear fits
  induction ss with
  | nil => rfl
  | cons s rest ih =>
    obtain ⟨first, later⟩ := Nat.add_eq_zero_iff.mp zero
    rw [routedAll, (routed_eq_nil_iff around s).mpr first, ih later, List.append_nil]

mutual

/-- **Where the counts inside a step fit, a cursor finds all dispatches of the step.** -/
theorem routed_eq_nested (around : Nat) (s : Step)
    (fits : ∀ body ∈ s.walk.filterMap body?, countSum body ≤ Size.greatest64) :
    routed around s = nested around s := by
  cases s with
  | relay id o p => rfl
  | wait id s => rfl
  | loop id n body =>
    have fits_body := fits body List.mem_cons_self
    have eq := routedAll_eq_nestedAll (around + 1) body fun b mem =>
      fits b (List.mem_cons_of_mem _ mem)
    rw [routed, nested, ← eq]
    split
    · rename_i zero
      -- stepping over the loop loses nothing
      rcases mul_eq_zero_iff.mp zero with h | h
      · rw [routedAll_eq_nil _ fits_body h, List.flatten_replicate_nil]
      · rw [h]
        rfl
    · rfl

/-- Where the counts of the bodies in a list fit, a cursor finds all dispatches of the list. -/
theorem routedAll_eq_nestedAll (around : Nat) (ss : List Step)
    (fits : ∀ body ∈ (walkAll ss).filterMap body?, countSum body ≤ Size.greatest64) :
    routedAll around ss = nestedAll around ss := by
  cases ss with
  | nil => rfl
  | cons s rest =>
    rw [walkAll, List.filterMap_append] at fits
    rw [routedAll, nestedAll,
      routed_eq_nested around s fun b mem => fits b (List.mem_append_left _ mem),
      routedAll_eq_nestedAll around rest fun b mem => fits b (List.mem_append_right _ mem)]

end

/-- **Where the counts of a list fit, a cursor finds all its dispatches.** -/
theorem CountsFit.routedAll_eq {ss : List Step} (fits : CountsFit ss) (around : Nat) :
    routedAll around ss = nestedAll around ss :=
  routedAll_eq_nestedAll around ss fun body mem => fits body (List.mem_cons_of_mem _ mem)

end Step

/-- **The dispatches that a cursor finds in a program**, in order. -/
def Program.route (p : Program) : List Dispatch := (Step.routedAll 0 p.steps).map Prod.fst

/-- **Where the counts of a program fit, a cursor finds its expansion.** -/
theorem Program.CountsFit.route_eq {p : Program} (fits : p.CountsFit) : p.route = p.expand := by
  rw [route, Step.CountsFit.routedAll_eq fits, Step.map_fst_nestedAll, expand]

/-- A program with a loop whose count is the greatest number there is, behind a step that makes the
count of the body begin at zero again. -/
def Program.spill : Program :=
  ⟨"spill", "Spill", true,
    [.loop "once" 1 [.relay "on" .first .on, .loop "outer" 4294967295 [.loop "inner" 4294967295
      [.loop "innermost" 4294967295 [.wait "pause" (.fixed 1)]]]],
    .relay "off" ⟨1, by decide⟩ .on]⟩

/-- The outer loop of `spill` switches an output first, but is stepped over. -/
theorem Program.route_spill :
    ¬ spill.CountsFit ∧ spill.expand.head? = some (.relay "on" .first .on)
      ∧ spill.route = [.relay "off" ⟨1, by decide⟩ .on] :=
  ⟨by decide, rfl, by decide⟩

/-! ## What lies ahead of a stack of frames -/

/-- **What frames have yet to yield**, innermost first, once the innermost has
gone past some steps more. Behind the passes of a loop that are left comes what
the frame below yields once it has gone past that loop. -/
def Frame.ahead (skipped : Nat) : List Frame → List (Dispatch × Nat)
  | [] => []
  | f :: below =>
    Step.routedAll below.length (f.steps.drop (f.index + skipped)) ++
      match f.kind with
      | .program => []
      | .loop iterations completed =>
        (List.replicate (iterations - (completed + 1))
          (Step.routedAll below.length f.steps)).flatten ++ ahead 1 below

namespace Cursor

/-- **What a cursor has yet to yield.** -/
def ahead (c : Cursor) : List (Dispatch × Nat) := Frame.ahead 0 c.frames

@[simp] theorem ahead_nil : ahead ⟨[]⟩ = [] := rfl

/-- Before its first step, a cursor has everything to yield. -/
@[simp] theorem ahead_start (steps : List Step) :
    (start steps).ahead = Step.routedAll 0 steps := by
  simp [ahead, start, Frame.ahead]

/-- Going past a step is what `Frame.ahead` reckons with. -/
theorem ahead_advance (frames : List Frame) :
    (advance ⟨frames⟩).ahead = Frame.ahead 1 frames := by
  cases frames with
  | nil => rfl
  | cons f below => rfl

/-! ## What a look at the innermost frame shows -/

/-- **What a look at the innermost frame can show, and when.** One case for each
branch of `Cursor.pass`; everything below is read off it. -/
inductive Sight (f : Frame) (below : List Frame) : Pass → Prop where
  /-- The frame stands at a step that switches an output. -/
  | relay {id : StepId} {o : Relay} {p : Power}
      (here : f.steps[f.index]? = some (.relay id o p)) :
      Sight f below (.at (.relay id o p))
  /-- The frame stands at a step that waits. -/
  | wait {id : StepId} {span : Span} (here : f.steps[f.index]? = some (.wait id span)) :
      Sight f below (.at (.wait id span))
  /-- The frame stands at a loop that dispatches nothing. -/
  | skips {id : StepId} {n : UInt32} {body : List Step}
      (here : f.steps[f.index]? = some (.loop id n body))
      (zero : (Step.loop id n body).dispatchCount = 0) :
      Sight f below (.moved ⟨{ f with index := f.index + 1 } :: below⟩)
  /-- The frame stands at any other loop. -/
  | enters {id : StepId} {n : UInt32} {body : List Step}
      (here : f.steps[f.index]? = some (.loop id n body))
      (pos : (Step.loop id n body).dispatchCount ≠ 0) :
      Sight f below (.moved ⟨⟨body, 0, .loop n.toNat 0⟩ :: f :: below⟩)
  /-- The program is at its end. -/
  | completes (here : f.steps[f.index]? = none) (kind : f.kind = .program) :
      Sight f below .complete
  /-- The last pass through a body is at its end. -/
  | leaves {n k : Nat} (here : f.steps[f.index]? = none) (kind : f.kind = .loop n k)
      (last : n ≤ k + 1) : Sight f below (.moved (advance ⟨below⟩))
  /-- A pass through a body is at its end, and another follows. -/
  | restarts {n k : Nat} (here : f.steps[f.index]? = none) (kind : f.kind = .loop n k)
      (more : k + 1 < n) :
      Sight f below (.moved ⟨{ f with index := 0, kind := .loop n (k + 1) } :: below⟩)

theorem sight {f : Frame} {below : List Frame} {p : Pass} (h : Cursor.pass ⟨f :: below⟩ = p) :
    Sight f below p := by
  subst h
  dsimp only [Cursor.pass]
  cases hs : f.steps[f.index]? with
  | none =>
    cases hk : f.kind with
    | program => exact .completes hs hk
    | loop n k =>
      dsimp only
      split
      · exact .leaves hs hk (by assumption)
      · exact .restarts hs hk (by omega)
  | some s =>
    cases s with
    | relay id o p => exact .relay hs
    | wait id span => exact .wait hs
    | loop id n body =>
      dsimp only
      split
      · exact .skips hs (by assumption)
      · exact .enters hs (by assumption)

theorem drop_of_here {f : Frame} {s : Step} (here : f.steps[f.index]? = some s) :
    f.steps.drop f.index = s :: f.steps.drop (f.index + 1) := by
  obtain ⟨hi, rfl⟩ := List.getElem?_eq_some_iff.mp here
  exact List.drop_eq_getElem_cons hi

theorem drop_of_end {f : Frame} (here : f.steps[f.index]? = none) :
    f.steps.drop f.index = [] :=
  List.drop_eq_nil_of_le (List.getElem?_eq_none_iff.mp here)

/-- **A cursor that stands at a step has that step ahead**, and behind it what
it has ahead once it has gone past the step. -/
theorem ahead_of_at {c : Cursor} {d : Dispatch} (h : c.pass = .at d) :
    c.ahead = (d, c.depth - 1) :: c.advance.ahead := by
  obtain ⟨frames⟩ := c
  cases frames with
  | nil => cases h
  | cons f below =>
    rw [ahead_advance]
    cases sight h with
    | relay here =>
      simp [ahead, Frame.ahead, drop_of_here here, Step.routedAll, Step.routed, depth]
    | wait here =>
      simp [ahead, Frame.ahead, drop_of_here here, Step.routedAll, Step.routed, depth]

/-- A cursor that is complete has nothing ahead. -/
theorem ahead_of_complete {c : Cursor} (h : c.pass = .complete) : c.ahead = [] := by
  obtain ⟨frames⟩ := c
  cases frames with
  | nil => rfl
  | cons f below =>
    cases sight h with
    | completes here kind =>
      simp [ahead, Frame.ahead, drop_of_end here, kind, Step.routedAll]

/-- **A move changes nothing about what lies ahead.** -/
theorem ahead_of_moved {c next : Cursor} (h : c.pass = .moved next) : next.ahead = c.ahead := by
  obtain ⟨frames⟩ := c
  cases frames with
  | nil => cases h
  | cons f below =>
    cases sight h with
    | @skips id n body here zero =>
      have hn := (Step.routed_eq_nil_iff below.length _).mpr zero
      simp [ahead, Frame.ahead, drop_of_here here, Step.routedAll, hn]
    | @enters id n body here pos =>
      -- the pass that begins is one of the iterations of the loop
      obtain ⟨m, hm⟩ := Nat.exists_eq_succ_of_ne_zero
        (Nat.pos_iff_ne_zero.mp (Step.of_dispatchCount_loop_ne_zero pos).1)
      simp [ahead, Frame.ahead, drop_of_here here, Step.routedAll, Step.routed, pos, hm,
        List.replicate_succ]
    | leaves here kind last =>
      rw [ahead_advance]
      simp [ahead, Frame.ahead, drop_of_end here, kind, Step.routedAll,
        Nat.sub_eq_zero_of_le last]
    | @restarts n k here kind more =>
      have hm : n - (k + 1) = (n - (k + 1 + 1)) + 1 := by omega
      simp [ahead, Frame.ahead, drop_of_end here, kind, Step.routedAll, hm,
        List.replicate_succ]

end Cursor

/-! ## How frames hang together -/

/-- **Frames that go through a program**, innermost first. The outermost goes
through the steps of the program, and every other through the body of the loop
at which the frame below it stands. Such a loop dispatches something, and the
pass through its body that is going on is one of its iterations. -/
inductive Frame.Linked (steps : List Step) : List Frame → Prop where
  /-- The steps of the program. -/
  | program {index : Nat} (le : index ≤ steps.length) : Linked steps [⟨steps, index, .program⟩]
  /-- The body of a loop. -/
  | loop {f : Frame} {below : List Frame} {id : StepId} {n : UInt32} {body : List Step}
      {index completed : Nat} (outer : Linked steps (f :: below))
      (stands : f.steps[f.index]? = some (.loop id n body))
      (pos : (Step.loop id n body).dispatchCount ≠ 0) (lt : completed < n.toNat)
      (le : index ≤ body.length) :
      Linked steps (⟨body, index, .loop n.toNat completed⟩ :: f :: below)

namespace Frame.Linked

open Cursor

variable {steps : List Step} {f : Frame} {below : List Frame}

/-- The innermost frame may stand anywhere in its list. -/
theorem reindex (h : Linked steps (f :: below)) {i : Nat} (hi : i ≤ f.steps.length) :
    Linked steps ({ f with index := i } :: below) := by
  cases h with
  | program le => exact .program hi
  | loop outer stands pos lt le => exact .loop outer stands pos lt hi

/-- Going past a step of the innermost frame leaves frames linked. -/
theorem advance (h : Linked steps (f :: below)) {s : Step}
    (here : f.steps[f.index]? = some s) :
    Linked steps ({ f with index := f.index + 1 } :: below) :=
  h.reindex (List.getElem?_eq_some_iff.mp here).1

/-- **A move leaves frames linked.** -/
theorem move (h : Linked steps (f :: below)) {next : Cursor}
    (hp : Cursor.pass ⟨f :: below⟩ = .moved next) : Linked steps next.frames := by
  cases sight hp with
  | skips here zero => exact h.advance here
  | enters here pos =>
    exact .loop h here pos (Step.of_dispatchCount_loop_ne_zero pos).1 (Nat.zero_le _)
  | leaves here kind last =>
    cases h with
    | program le => cases kind
    | loop outer stands pos lt le => exact outer.advance stands
  | restarts here kind more =>
    cases h with
    | program le => cases kind
    | loop outer stands pos lt le =>
      cases kind
      exact .loop outer stands pos more (Nat.zero_le _)

end Frame.Linked

/-! ## Searches that come to their end -/

namespace Cursor

/-- **A search that comes to its end**: after how many passes, with what, and
where the cursor is then. -/
inductive Settles : Nat → Cursor → Option Dispatch → Cursor → Prop where
  /-- The cursor stands at a step. -/
  | at {c : Cursor} {d : Dispatch} (here : c.pass = .at d) : Settles 1 c (some d) c
  /-- The cursor is complete. -/
  | complete {c : Cursor} (here : c.pass = .complete) : Settles 1 c none ⟨[]⟩
  /-- The cursor moves first. -/
  | moved {n : Nat} {c next last : Cursor} {d : Option Dispatch} (here : c.pass = .moved next)
      (later : Settles n next d last) : Settles (n + 1) c d last

namespace Settles

variable {n : Nat} {c last : Cursor} {d : Option Dispatch}

/-- **With enough passes, `Cursor.search` finds what the search ends with.** -/
theorem search_eq (h : Settles n c d last) {m : Nat} (hm : n ≤ m) :
    search m c = (d, last) := by
  induction h generalizing m with
  | «at» here =>
    obtain ⟨m, rfl⟩ := Nat.exists_eq_succ_of_ne_zero (Nat.ne_of_gt hm)
    rw [search, here]
  | complete here =>
    obtain ⟨m, rfl⟩ := Nat.exists_eq_succ_of_ne_zero (Nat.ne_of_gt hm)
    rw [search, here]
  | moved here later ih =>
    obtain ⟨m, rfl⟩ := Nat.exists_eq_succ_of_ne_zero (Nat.ne_of_gt (Nat.zero_lt_of_lt hm))
    rw [search, here]
    exact ih (Nat.le_of_succ_le_succ hm)

/-- A search changes nothing about what lies ahead. -/
theorem ahead_eq (h : Settles n c d last) : last.ahead = c.ahead := by
  induction h with
  | «at» here => rfl
  | complete here => rw [ahead_of_complete here, ahead_nil]
  | moved here later ih => rw [ih, ahead_of_moved here]

/-- A search that finds a step stands at it. -/
theorem pass_eq {d : Dispatch} (h : Settles n c (some d) last) : last.pass = .at d := by
  generalize hd : some d = o at h
  induction h with
  | «at» here =>
    cases hd
    exact here
  | complete here => cases hd
  | moved here later ih => exact ih hd

/-- A search that finds nothing leaves no frames. -/
theorem eq_nil (h : Settles n c none last) : last = ⟨[]⟩ := by
  generalize hd : none = o at h
  induction h with
  | «at» here => cases hd
  | complete here => rfl
  | moved here later ih => exact ih hd

/-- A search that finds a step leaves frames linked. -/
theorem linked {steps : List Step} {d : Dispatch} (h : Settles n c (some d) last)
    (hl : Frame.Linked steps c.frames) : Frame.Linked steps last.frames := by
  generalize hd : some d = o at h
  induction h with
  | «at» here => exact hl
  | complete here => cases hd
  | @moved n c next last d here later ih =>
    obtain ⟨frames⟩ := c
    cases frames with
    | nil => cases here
    | cons f below => exact ih (hl.move here) hd

end Settles

end Cursor

/-! ## How long a search takes -/

namespace Cursor

theorem sizeOfSteps_drop_of_here {f : Frame} {s : Step} (here : f.steps[f.index]? = some s) :
    sizeOfSteps (f.steps.drop f.index)
      = sizeOfStep s + sizeOfSteps (f.steps.drop (f.index + 1)) := by
  rw [drop_of_here here, sizeOfSteps]

theorem sizeOfSteps_drop_le (steps : List Step) (i : Nat) :
    sizeOfSteps (steps.drop i) ≤ sizeOfSteps steps := by
  induction steps generalizing i with
  | nil => exact Nat.le_of_eq (congrArg sizeOfSteps List.drop_nil)
  | cons s rest ih =>
    cases i with
    | zero => exact Nat.le_refl _
    | succ i =>
      rw [List.drop_succ_cons, sizeOfSteps]
      exact Nat.le_trans (ih i) (Nat.le_add_left _ _)

theorem sizeOfStep_pos (s : Step) : 0 < sizeOfStep s := by
  cases s <;> simp [sizeOfStep]

/-- The loop that a frame stands at holds its body and is not all there is. -/
theorem sizeOfSteps_body_lt {f : Frame} {id : StepId} {n : UInt32} {body : List Step}
    (here : f.steps[f.index]? = some (.loop id n body)) :
    sizeOfSteps body + sizeOfSteps (f.steps.drop (f.index + 1)) < sizeOfSteps f.steps := by
  have h := sizeOfSteps_drop_le f.steps f.index
  rw [sizeOfSteps_drop_of_here here, sizeOfStep] at h
  omega

end Cursor

namespace Frame.Linked

open Cursor

variable {steps : List Step} {f : Frame} {below : List Frame}

theorem size_le (h : Linked steps (f :: below)) : sizeOfSteps f.steps ≤ sizeOfSteps steps := by
  induction below generalizing f with
  | nil =>
    cases h with
    | program le => exact Nat.le_refl _
  | cons g below ih =>
    cases h with
    | loop outer stands pos lt le =>
      have := sizeOfSteps_body_lt stands
      have := ih outer
      dsimp only
      omega

/-- **The size of a cursor is that of its program.** -/
theorem size_eq (h : Linked steps (f :: below)) :
    Cursor.size ⟨f :: below⟩ = sizeOfSteps steps := by
  induction below generalizing f with
  | nil =>
    cases h with
    | program le => rfl
  | cons g below ih =>
    cases h with
    | loop outer stands pos lt le => exact ih outer

/-- **A list in which something is found is searched by entering loops alone**: the
search takes no more passes than the list has steps. -/
theorem settles_of_ne_nil (h : Linked steps (f :: below))
    (ne : Step.routedAll below.length (f.steps.drop f.index) ≠ []) :
    ∃ n d last, Settles n ⟨f :: below⟩ (some d) last
      ∧ n ≤ sizeOfSteps (f.steps.drop f.index) := by
  -- entering a loop leaves fewer steps to look at, just as stepping over one does
  induction hm : sizeOfSteps (f.steps.drop f.index) using Nat.strongRecOn
    generalizing f below with
  | _ m ih =>
    subst hm
    have hs := @sight f below _ rfl
    generalize hp : Cursor.pass ⟨f :: below⟩ = p at hs
    cases hs with
    | relay here =>
      exact ⟨1, _, _, .at hp, by rw [sizeOfSteps_drop_of_here here, sizeOfStep]; omega⟩
    | wait here =>
      exact ⟨1, _, _, .at hp, by rw [sizeOfSteps_drop_of_here here, sizeOfStep]; omega⟩
    | @skips id k body here zero =>
      rw [sizeOfSteps_drop_of_here here] at ih ⊢
      have hpos := sizeOfStep_pos (.loop id k body)
      have hnil := (Step.routed_eq_nil_iff below.length _).mpr zero
      rw [drop_of_here here, Step.routedAll, hnil, List.nil_append] at ne
      obtain ⟨n, d, last, hn, hle⟩ := ih _ (by dsimp only; omega) (h.advance here) ne rfl
      exact ⟨n + 1, d, last, .moved hp hn, by dsimp only at hle; omega⟩
    | @enters id k body here pos =>
      rw [sizeOfSteps_drop_of_here here, sizeOfStep] at ih ⊢
      obtain ⟨n, d, last, hn, hle⟩ := ih _ (by simp only [List.drop_zero]; omega) (h.move hp)
        ((Step.of_dispatchCount_loop_ne_zero pos).2 _) rfl
      exact ⟨n + 1, d, last, .moved hp hn, by simp only [List.drop_zero] at hle; omega⟩
    | completes here kind => exact absurd (by rw [drop_of_end here]; rfl) ne
    | leaves here kind last => exact absurd (by rw [drop_of_end here]; rfl) ne
    | restarts here kind more => exact absurd (by rw [drop_of_end here]; rfl) ne

/-- **A list in which nothing is found is gone through to its end**, with at most one
pass for each of its steps. -/
theorem settles_of_eq_nil (below : List Frame) {n : Nat} {d : Option Dispatch} {last : Cursor}
    (le : f.index ≤ f.steps.length) (nil : Step.routedAll below.length (f.steps.drop f.index) = [])
    (later : Settles n ⟨{ f with index := f.steps.length } :: below⟩ d last) :
    ∃ k, Settles (n + k) ⟨f :: below⟩ d last ∧ k ≤ sizeOfSteps (f.steps.drop f.index) := by
  induction hm : f.steps.length - f.index generalizing f with
  | zero =>
    have hi : f.steps.length = f.index := by omega
    rw [hi] at later
    exact ⟨0, later, Nat.zero_le _⟩
  | succ m ih =>
    have hs := @sight f below _ rfl
    generalize hp : Cursor.pass ⟨f :: below⟩ = p at hs
    have hlt : ¬ f.steps[f.index]? = none := by
      rw [List.getElem?_eq_none_iff]
      omega
    cases hs with
    | relay here => simp [drop_of_here here, Step.routedAll, Step.routed] at nil
    | wait here => simp [drop_of_here here, Step.routedAll, Step.routed] at nil
    | @skips id n body here zero =>
      have hnil := (Step.routed_eq_nil_iff below.length _).mpr zero
      rw [drop_of_here here, Step.routedAll, hnil, List.nil_append] at nil
      obtain ⟨k, hk, hle⟩ := ih (f := { f with index := f.index + 1 })
        (List.getElem?_eq_some_iff.mp here).1 nil later (by dsimp only; omega)
      refine ⟨k + 1, .moved hp hk, ?_⟩
      have hpos := sizeOfStep_pos (.loop id n body)
      rw [sizeOfSteps_drop_of_here here]
      dsimp only at hle
      omega
    | enters here pos =>
      rw [drop_of_here here, Step.routedAll, List.append_eq_nil_iff, Step.routed_eq_nil_iff] at nil
      exact absurd nil.1 pos
    | completes here kind => exact absurd here hlt
    | leaves here kind last => exact absurd here hlt
    | restarts here kind more => exact absurd here hlt

/-- **A search comes to its end.** What it leaves behind before it restarts a body
lies outside that body, so that each step of the program counts at most twice:
once on the way out and once on the way in. -/
theorem settles (h : Linked steps (f :: below)) :
    ∃ n d last, Settles n ⟨f :: below⟩ d last
      ∧ n + sizeOfSteps f.steps
        ≤ sizeOfSteps (f.steps.drop f.index) + 2 * sizeOfSteps steps + 1 := by
  -- a list in which nothing is found sends the search back to the frames below
  induction below generalizing f with
  | nil =>
    by_cases nil : Step.routedAll 0 (f.steps.drop f.index) = []
    · cases h with
      | @program index le =>
        have hp : Cursor.pass ⟨[⟨steps, steps.length, .program⟩]⟩ = .complete := by
          simp [Cursor.pass]
        obtain ⟨k, hk, hle⟩ := settles_of_eq_nil [] (f := ⟨steps, index, .program⟩) le nil
          (.complete hp)
        exact ⟨_, _, _, hk, by dsimp only at hle ⊢; omega⟩
    · obtain ⟨n, d, last, hn, hle⟩ := h.settles_of_ne_nil nil
      have := h.size_le
      exact ⟨n, _, last, hn, by omega⟩
  | cons g below ih =>
    by_cases nil : Step.routedAll (below.length + 1) (f.steps.drop f.index) = []
    · cases h with
      | @loop _ _ id n body index completed outer stands pos lt le =>
        have hin := sizeOfSteps_body_lt stands
        have hout := outer.size_le
        -- at the end of the body, the loop is either left or restarted
        suffices hend : ∃ m d last,
            Settles m ⟨⟨body, body.length, .loop n.toNat completed⟩ :: g :: below⟩ d last
              ∧ m + sizeOfSteps body ≤ 2 * sizeOfSteps steps + 1 by
          obtain ⟨m, d, last, hm, hle⟩ := hend
          obtain ⟨k, hk, hle'⟩ := settles_of_eq_nil (g :: below)
            (f := ⟨body, index, .loop n.toNat completed⟩) le nil hm
          exact ⟨_, d, last, hk, by dsimp only at hle' ⊢; omega⟩
        by_cases hl : completed + 1 ≥ n.toNat
        · have hp : Cursor.pass ⟨⟨body, body.length, .loop n.toNat completed⟩ :: g :: below⟩
              = .moved (Cursor.advance ⟨g :: below⟩) := by
            simp [Cursor.pass, hl]
          obtain ⟨m, d, last, hm, hle⟩ := ih (outer.advance stands)
          exact ⟨m + 1, d, last, .moved hp hm, by dsimp only at hle; omega⟩
        · have hp : Cursor.pass ⟨⟨body, body.length, .loop n.toNat completed⟩ :: g :: below⟩
              = .moved ⟨⟨body, 0, .loop n.toNat (completed + 1)⟩ :: g :: below⟩ := by
            simp [Cursor.pass, hl]
          have hre : Linked steps (⟨body, 0, .loop n.toNat (completed + 1)⟩ :: g :: below) :=
            .loop outer stands pos (by omega) (Nat.zero_le _)
          obtain ⟨m, d, last, hm, hle⟩ :=
            hre.settles_of_ne_nil ((Step.of_dispatchCount_loop_ne_zero pos).2 _)
          exact ⟨m + 1, _, last, .moved hp hm, by simp only [List.drop_zero] at hle; omega⟩
    · obtain ⟨n, d, last, hn, hle⟩ := h.settles_of_ne_nil nil
      have := h.size_le
      exact ⟨n, _, last, hn, by omega⟩

/-- **A search comes to its end within the budget** of its cursor. -/
theorem settles_in_budget (h : Linked steps (f :: below)) :
    ∃ n d last, Settles n ⟨f :: below⟩ d last ∧ n ≤ budget ⟨f :: below⟩ := by
  obtain ⟨n, d, last, hn, hle⟩ := h.settles
  have := sizeOfSteps_drop_le f.steps f.index
  refine ⟨n, d, last, hn, ?_⟩
  rw [budget, h.size_eq]
  omega

end Frame.Linked

/-! ## Resolving and advancing in turn -/

namespace Cursor

variable {steps : List Step} {c : Cursor} {d : Dispatch}

/-- **A cursor goes through some steps**, or is done with them. -/
def Inside (steps : List Step) (c : Cursor) : Prop :=
  c.frames = [] ∨ Frame.Linked steps c.frames

/-- **A cursor stands at a step of a program.** This is how resolving leaves it. -/
structure Stands (steps : List Step) (c : Cursor) (d : Dispatch) : Prop where
  /-- The cursor goes through the program. -/
  linked : Frame.Linked steps c.frames
  /-- The step is the one it looks at. -/
  here : c.pass = .at d

theorem inside_start (steps : List Step) : (start steps).Inside steps :=
  .inr (.program (Nat.zero_le _))

/-- A cursor that stands at a step stays there when it is resolved. -/
theorem Stands.resolve_eq (h : Stands steps c d) : c.resolve = (some d, c) :=
  (Settles.at h.here).search_eq (Nat.le_add_left 1 _)

theorem Stands.ahead_eq (h : Stands steps c d) :
    c.ahead = (d, c.depth - 1) :: c.advance.ahead :=
  ahead_of_at h.here

theorem Stands.depth_pos (h : Stands steps c d) : 0 < c.depth := by
  obtain ⟨frames⟩ := c
  cases frames with
  | nil => cases h.here
  | cons f below => exact Nat.succ_pos _

/-- Past a step, a cursor still goes through its program. -/
theorem Stands.inside_advance (h : Stands steps c d) : c.advance.Inside steps := by
  obtain ⟨frames⟩ := c
  cases frames with
  | nil => exact .inl rfl
  | cons f below =>
    cases sight h.here with
    | relay here => exact .inr (h.linked.advance here)
    | wait here => exact .inr (h.linked.advance here)

/-- **What resolving does.** A cursor with nothing ahead completes; any other one
comes to stand at the head of what it has ahead, which stays as it is. -/
theorem Inside.resolve_cases (h : c.Inside steps) :
    (c.ahead = [] ∧ c.resolve = (none, ⟨[]⟩))
      ∨ ∃ d found, c.resolve = (some d, found) ∧ Stands steps found d ∧ found.ahead = c.ahead := by
  obtain ⟨frames⟩ := c
  cases frames with
  | nil => exact .inl ⟨rfl, (Settles.complete rfl).search_eq (Nat.le_add_left 1 _)⟩
  | cons f below =>
    have hl : Frame.Linked steps (f :: below) := h.resolve_left (List.cons_ne_nil _ _)
    obtain ⟨n, d, last, hn, hle⟩ := hl.settles_in_budget
    have hr : Cursor.resolve ⟨f :: below⟩ = (d, last) := hn.search_eq hle
    cases d with
    | none =>
      have hlast := hn.eq_nil
      subst hlast
      exact .inl ⟨hn.ahead_eq.symm, hr⟩
    | some d => exact .inr ⟨d, last, hr, ⟨hn.linked hl, hn.pass_eq⟩, hn.ahead_eq⟩

/-- **The cursor after a number of rounds**, each of which resolves it and moves
it past the step found. -/
def rounds (c : Cursor) : Nat → Cursor
  | 0 => c
  | k + 1 => (rounds c k).resolve.2.advance

/-- **Every round takes one dispatch off what lies ahead**, for as long as there is
one. -/
theorem rounds_ahead (steps : List Step) {k : Nat}
    (hk : k ≤ (Step.routedAll 0 steps).length) :
    ((start steps).rounds k).Inside steps
      ∧ ((start steps).rounds k).ahead = (Step.routedAll 0 steps).drop k := by
  induction k with
  | zero => exact ⟨inside_start steps, by rw [rounds, ahead_start, List.drop_zero]⟩
  | succ k ih =>
    obtain ⟨hin, hah⟩ := ih (Nat.le_of_succ_le hk)
    rw [List.drop_eq_getElem_cons hk] at hah
    obtain ⟨hnil, -⟩ | ⟨d, found, hr, hs, he⟩ := hin.resolve_cases
    · rw [hah] at hnil
      exact absurd hnil (List.cons_ne_nil _ _)
    · rw [rounds, hr]
      refine ⟨hs.inside_advance, ?_⟩
      rw [hs.ahead_eq, hah] at he
      exact (List.cons.inj he).2

/-- **A cursor yields the expansion of its steps**, however deep they are nested and
however often their loops run, where their counts fit. The rounds of resolving and
advancing find the dispatches of the recursive expansion one by one, each at a depth
of one plus the number of loops around it; resolving again finds the same one in the
same place. Once there have been as many rounds as dispatches, resolving finds
nothing, at depth 0, and so it does from then on. -/
theorem resolve_rounds_start {steps : List Step} (fits : Step.CountsFit steps) :
    (Step.nestedAll 0 steps).map Prod.fst = Step.expandAll steps
      ∧ (∀ (k : Nat) (hk : k < (Step.nestedAll 0 steps).length), ∃ found : Cursor,
          ((start steps).rounds k).resolve = (some (Step.nestedAll 0 steps)[k].1, found)
            ∧ found.depth = (Step.nestedAll 0 steps)[k].2 + 1
            ∧ found.resolve = (some (Step.nestedAll 0 steps)[k].1, found))
      ∧ ∃ found : Cursor,
          ((start steps).rounds (Step.expandAll steps).length).resolve = (none, found)
            ∧ found.depth = 0 ∧ found.resolve = (none, found) := by
  have hmap := Step.map_fst_nestedAll 0 steps
  have hrounds {k : Nat} (hk : k ≤ (Step.nestedAll 0 steps).length) :
      ((start steps).rounds k).Inside steps
        ∧ ((start steps).rounds k).ahead = (Step.nestedAll 0 steps).drop k := by
    rw [← fits.routedAll_eq 0] at hk ⊢
    exact rounds_ahead steps hk
  refine ⟨hmap, fun k hk => ?_, ?_⟩
  · obtain ⟨hin, hah⟩ := hrounds (Nat.le_of_lt hk)
    rw [List.drop_eq_getElem_cons hk] at hah
    obtain ⟨hnil, -⟩ | ⟨d, found, hr, hs, he⟩ := hin.resolve_cases
    · rw [hah] at hnil
      exact absurd hnil (List.cons_ne_nil _ _)
    · rw [hs.ahead_eq, hah] at he
      have hd := (List.cons.inj he).1
      have hpos := hs.depth_pos
      refine ⟨found, ?_, ?_, ?_⟩
      · rw [hr, ← hd]
      · rw [← hd]
        dsimp only
        omega
      · rw [hs.resolve_eq, ← hd]
  · have hlen : (Step.expandAll steps).length = (Step.nestedAll 0 steps).length := by
      rw [← hmap, List.length_map]
    obtain ⟨hin, hah⟩ := hrounds (Nat.le_of_eq hlen)
    rw [List.drop_eq_nil_of_le (Nat.le_of_eq hlen.symm)] at hah
    obtain ⟨-, hr⟩ | ⟨d, found, -, hs, he⟩ := hin.resolve_cases
    · exact ⟨⟨[]⟩, hr, rfl, rfl⟩
    · rw [hs.ahead_eq, hah] at he
      cases he

/-- A loop around one that runs not at all and one that runs twice, and a step behind it. -/
def ripple : List Step :=
  [.loop "ripple" 2 [.loop "calm" 0 [.wait "rest" (.fixed 1)],
      .loop "swell" 2 [.relay "in" .first .on]],
    .relay "out" .first .off]

/-- The fourth dispatch lies inside two loops, the fifth inside none, and there is no sixth. -/
theorem resolve_rounds_start_ripple :
    Step.CountsFit ripple
      ∧ (∃ found, ((start ripple).rounds 3).resolve = (some (.relay "in" .first .on), found)
          ∧ found.depth = 3 ∧ found.resolve = (some (.relay "in" .first .on), found))
      ∧ (∃ found, ((start ripple).rounds 4).resolve = (some (.relay "out" .first .off), found)
          ∧ found.depth = 1 ∧ found.resolve = (some (.relay "out" .first .off), found))
      ∧ ∃ found, ((start ripple).rounds 5).resolve = (none, found)
          ∧ found.depth = 0 ∧ found.resolve = (none, found) := by
  have fits : Step.CountsFit ripple := by decide
  obtain ⟨-, each, last⟩ := resolve_rounds_start fits
  exact ⟨fits, each 3 (by decide), each 4 (by decide), last⟩

end Cursor

end Switchboard
