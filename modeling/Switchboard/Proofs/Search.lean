import Switchboard.Proofs.Positions

/-!
# The phases of a search

Resolving a cursor means looking at its innermost frame again and again, until a look shows a step
that is carried out, or the end of the program. In between, frames come and go and indices go back
to zero, so there is nothing about the stack that only ever gets smaller. Still, no search takes
longer than the program is large, however often its loops run.

The reason is that a search has two phases. At first its innermost list holds no dispatch any more,
and loops are stepped over or left. Once that list holds one (`Cursor.IsDescending`), the search
leads to it, past loops whose count is zero and into others. There is no way back: in a loop that
is entered there is something to be found, or else it would have been stepped over, and so the list
that takes the place of the innermost one holds a dispatch again. A body that is restarted does so
too, for it was entered once. So the second phase begins with a restart or without one, but never
has one in it.

`Cursor.resolve` stops when its budget is spent. `Cursor.Trail` knows no budget: it is any number of
moves that follow one another. What is shown of trails is therefore also why the budget is never
spent.
-/

namespace Switchboard

/-! ## The size of a program -/

namespace Cursor

mutual

theorem length_walk (s : Step) : s.walk.length = sizeOfStep s := by
  cases s with
  | relay id o p => rfl
  | wait id s => rfl
  | loop id n body => rw [Step.walk, List.length_cons, length_walkAll, sizeOfStep]

/-- **The size of a list is the number of its steps**, those inside its loops included. -/
theorem length_walkAll (ss : List Step) : (Step.walkAll ss).length = sizeOfSteps ss := by
  cases ss with
  | nil => rfl
  | cons s rest => rw [Step.walkAll, List.length_append, length_walk, length_walkAll, sizeOfSteps]

end

variable {steps : List Step} {c next last : Cursor}

/-! ## What a move does -/

/-- **What a move does to the frames.** -/
inductive Change where
  /-- The innermost frame goes past a step. -/
  | skip
  /-- A frame is put on top, for the body of a loop. -/
  | enter
  /-- The innermost frame is taken off, and the one below it goes past its step. -/
  | leave
  /-- The innermost frame goes back to the beginning of its list, for the next iteration. -/
  | restart
deriving Repr, DecidableEq

/-- **A change takes one position to another**, whatever the reason for it. -/
inductive Change.Takes : Change → Cursor → Cursor → Prop where
  /-- One step is gone past. -/
  | skip {f : Frame} {below : List Frame} :
      Takes .skip ⟨f :: below⟩ ⟨{ f with index := f.index + 1 } :: below⟩
  /-- There is one frame more. -/
  | enter {f : Frame} {below : List Frame} {id : StepId} {n : UInt32} {body : List Step}
      (here : f.steps[f.index]? = some (.loop id n body)) :
      Takes .enter ⟨f :: below⟩ ⟨⟨body, 0, .loop n.toNat 0⟩ :: f :: below⟩
  /-- There is one frame less. -/
  | leave {f g : Frame} {below : List Frame} :
      Takes .leave ⟨f :: g :: below⟩ ⟨{ g with index := g.index + 1 } :: below⟩
  /-- One iteration more is complete. -/
  | restart {f : Frame} {below : List Frame} {iterations completed : Nat}
      (kind : f.kind = .loop iterations completed) :
      Takes .restart ⟨f :: below⟩
        ⟨{ f with index := 0, kind := .loop iterations (completed + 1) } :: below⟩

/-- The change from one position to another, as far as the number of frames and the innermost index
tell. -/
def seen (c next : Cursor) : Change :=
  if c.depth < next.depth then .enter
  else if next.depth < c.depth then .leave
  else if next.frames.head?.map Frame.index = some 0 then .restart
  else .skip

theorem Change.Takes.eq_seen {change : Change} (takes : change.Takes c next) :
    change = seen c next := by
  cases takes with
  | skip => simp [seen, depth]
  | enter here => simp [seen, depth]
  | leave => simp [seen, depth]
  | restart kind => simp [seen, depth]

/-- **No two changes look alike.** -/
theorem Change.Takes.unique {change other : Change} (takes : change.Takes c next)
    (likewise : other.Takes c next) : change = other :=
  takes.eq_seen.trans likewise.eq_seen.symm

/-- A frame that goes through the body of a loop is not the outermost one, and there is something to
be found in its list. -/
theorem Inside.of_loop {f : Frame} {below : List Frame} (inside : Inside steps ⟨f :: below⟩)
    {iterations completed : Nat} (kind : f.kind = .loop iterations completed) :
    (∃ outer rest, below = outer :: rest) ∧ ∀ around, Step.routedAll around f.steps ≠ [] := by
  cases inside.resolve_left (List.cons_ne_nil _ _) with
  | program le => cases kind
  | loop outer stands pos lt le =>
    exact ⟨⟨_, _, rfl⟩, (Step.of_dispatchCount_loop_ne_zero pos).2⟩

/-- **Every move is one of the four changes.** -/
theorem Inside.exists_change (inside : c.Inside steps) (moves : c.Moves next) :
    ∃ change : Change, change.Takes c next := by
  obtain ⟨frames⟩ := c
  cases frames with
  | nil => cases moves
  | cons f below =>
    cases sight moves with
    | skips here zero => exact ⟨.skip, .skip⟩
    | enters here pos => exact ⟨.enter, .enter here⟩
    | leaves here kind last =>
      obtain ⟨⟨outer, rest, rfl⟩, -⟩ := inside.of_loop kind
      exact ⟨.leave, .leave⟩
    | restarts here kind more => exact ⟨.restart, .restart kind⟩

/-! ## On the way to a dispatch -/

/-- **A position whose innermost list holds a dispatch to be found**, at its index or behind. -/
def IsDescending (c : Cursor) : Prop :=
  ∃ (f : Frame) (below : List Frame),
    c.frames = f :: below ∧ Step.routedAll below.length (f.steps.drop f.index) ≠ []

/-- **Where the innermost list holds a dispatch, no list is left or begun anew**, and the next
innermost list holds one too. -/
theorem IsDescending.move (descending : c.IsDescending) (moves : c.Moves next) {change : Change}
    (takes : change.Takes c next) :
    next.IsDescending ∧ (change = .skip ∨ change = .enter) := by
  obtain ⟨frames⟩ := c
  obtain ⟨f, below, rfl, holds⟩ := descending
  -- a list is left or begun anew at its end alone, where it holds nothing
  have not_end : f.steps[f.index]? ≠ none := fun nothing => holds (by rw [drop_of_end nothing]; rfl)
  cases sight moves with
  | @skips id n body here zero =>
    rw [drop_of_here here, Step.routedAll, (Step.routed_eq_nil_iff _ _).mpr zero,
      List.nil_append] at holds
    exact ⟨⟨_, below, rfl, holds⟩, .inl (takes.unique .skip)⟩
  | enters here pos =>
    exact ⟨⟨_, f :: below, rfl, (Step.of_dispatchCount_loop_ne_zero pos).2 _⟩,
      .inr (takes.unique (.enter here))⟩
  | leaves here kind last => exact absurd here not_end
  | restarts here kind more => exact absurd here not_end

/-- **Entering or restarting a body leads to a dispatch.** Only loops that dispatch something are
entered, and a body that is gone through again dispatches what it did before. -/
theorem Inside.isDescending (inside : c.Inside steps) (moves : c.Moves next) {change : Change}
    (takes : change.Takes c next) (begins : change = .enter ∨ change = .restart) :
    next.IsDescending := by
  obtain ⟨frames⟩ := c
  cases frames with
  | nil => cases moves
  | cons f below =>
    cases sight moves with
    | skips here zero =>
      rw [takes.unique .skip] at begins
      exact absurd begins (by decide)
    | enters here pos =>
      exact ⟨_, f :: below, rfl, (Step.of_dispatchCount_loop_ne_zero pos).2 _⟩
    | leaves here kind last =>
      obtain ⟨⟨outer, rest, rfl⟩, -⟩ := inside.of_loop kind
      rw [takes.unique .leave] at begins
      exact absurd begins (by decide)
    | restarts here kind more => exact ⟨_, below, rfl, (inside.of_loop kind).2 _⟩

/-! ## Moves that follow one another -/

/-- **Moves that follow one another**, by what each of them does. -/
inductive Trail : Cursor → List Change → Cursor → Prop where
  /-- No move is made. -/
  | nil {c : Cursor} : Trail c [] c
  /-- One move is made before the others. -/
  | cons {c mid next : Cursor} {change : Change} {changes : List Change} (moves : c.Moves mid)
      (takes : change.Takes c mid) (later : Trail mid changes next) :
      Trail c (change :: changes) next

/-- **A position at which a search ends**, with what it found and where it leaves the cursor. -/
inductive Rests (c : Cursor) : Option Dispatch × Cursor → Prop where
  /-- The cursor stands at a step. -/
  | at {d : Dispatch} (here : c.pass = .at d) : Rests c (some d, c)
  /-- The program is complete. -/
  | complete (here : c.pass = .complete) : Rests c (none, ⟨[]⟩)

namespace Trail

variable {changes : List Change}

/-- **Behind a position whose innermost list holds a dispatch, loops are only stepped over and
entered.** -/
theorem of_isDescending (trail : Trail c changes next) (descending : c.IsDescending) :
    ∀ change ∈ changes, change = .skip ∨ change = .enter := by
  induction trail with
  | nil => exact fun change mem => absurd mem List.not_mem_nil
  | cons moves takes _ ih =>
    obtain ⟨onward, first⟩ := descending.move moves takes
    intro change mem
    rcases List.mem_cons.mp mem with rfl | mem
    · exact first
    · exact ih onward change mem

/-- **The phases of a search.** Once a body is entered or restarted, loops are only stepped over
and entered. -/
theorem pairwise (trail : Trail c changes next) (inside : c.Inside steps) :
    changes.Pairwise fun earlier later =>
      earlier = .enter ∨ earlier = .restart → later = .skip ∨ later = .enter := by
  induction trail with
  | nil => exact .nil
  | cons moves takes later ih =>
    -- of the first move, the moves behind it have to be known; `ih` compares those with one another
    refine .cons (fun change mem begins => ?_) (ih (inside.move moves))
    exact later.of_isDescending (inside.isDescending moves takes begins) change mem

/-- **A search restarts at most one body**: two restarts would be one after the other. -/
theorem count_restart_le (trail : Trail c changes next) (inside : c.Inside steps) :
    changes.count .restart ≤ 1 := by
  by_contra many
  have both : (List.replicate 2 Change.restart).Sublist changes :=
    List.replicate_sublist_iff.mpr (Nat.not_le.mp many)
  have after := List.rel_of_pairwise_cons ((trail.pairwise inside).sublist both)
    (List.mem_singleton.mpr rfl) (.inr rfl)
  exact absurd after (by decide)

/-- No trail is as long as the search that it is a part of. -/
theorem length_lt {n : Nat} {d : Option Dispatch} (trail : Trail c changes next)
    (settles : Settles n c d last) : changes.length < n := by
  induction trail generalizing n with
  | nil =>
    cases settles with
    | «at» here => exact Nat.one_pos
    | complete here => exact Nat.one_pos
    | moved here later => exact Nat.succ_pos _
  | cons moves takes _ ih =>
    cases settles with
    | «at» here => cases moves.symm.trans here
    | complete here => cases moves.symm.trans here
    | moved here later =>
      cases moves.symm.trans here
      exact Nat.succ_lt_succ (ih later)

end Trail

/-! ## How a search ends -/

/-- A search that comes to its end is a trail to where it ends. -/
theorem Settles.exists_trail {n : Nat} {d : Option Dispatch} (settles : Settles n c d last)
    (inside : c.Inside steps) :
    ∃ changes stop, Trail c changes stop ∧ Rests stop (d, last) := by
  induction settles with
  | «at» here => exact ⟨[], _, .nil, .at here⟩
  | complete here => exact ⟨[], _, .nil, .complete here⟩
  | moved moves _ ih =>
    obtain ⟨change, takes⟩ := inside.exists_change moves
    obtain ⟨changes, stop, trail, rests⟩ := ih (inside.move moves)
    exact ⟨change :: changes, stop, .cons moves takes trail, rests⟩

/-- **A search comes to its end** within two passes for each step of the program and two more, and
that is what resolving gives. -/
theorem Inside.settles (inside : c.Inside steps) :
    ∃ n d last, Settles n c d last ∧ n ≤ 2 * (Step.walkAll steps).length + 2
      ∧ c.resolve = (d, last) := by
  obtain ⟨frames⟩ := c
  cases frames with
  | nil => exact ⟨1, none, ⟨[]⟩, .complete rfl, Nat.le_add_left _ _, rfl⟩
  | cons f below =>
    have linked : Frame.Linked steps (f :: below) := inside.resolve_left (List.cons_ne_nil _ _)
    obtain ⟨n, d, last, settles, le⟩ := linked.settles_in_budget
    refine ⟨n, d, last, settles, ?_, settles.search_eq le⟩
    rw [length_walkAll, ← linked.size_eq]
    exact le

/-- **How long a cursor is resolved depends on the size of its program alone.** Wherever a cursor
comes to, its search ends with what `Cursor.resolve` gives, and takes at most two passes for each
step of the program, at any depth, and two more; the last pass makes no move. However often loops
run, a search restarts at most one body, and once it has entered or restarted one, it leaves and
restarts none. -/
theorem resolve_in_phases {behind : Nat} {found : Bool} (reached : Reached steps behind found c) :
    (∃ changes last, Trail c changes last ∧ Rests last c.resolve)
      ∧ ∀ changes next, Trail c changes next →
          changes.length + 1 ≤ 2 * (Step.walkAll steps).length + 2
            ∧ changes.count .restart ≤ 1
            ∧ changes.Pairwise fun earlier later =>
                earlier = .enter ∨ earlier = .restart → later = .skip ∨ later = .enter := by
  have inside := reached.accounted.inside
  obtain ⟨n, d, last, settles, le, resolves⟩ := inside.settles
  constructor
  · rw [resolves]
    exact settles.exists_trail inside
  · intro changes next trail
    exact ⟨Nat.le_trans (trail.length_lt settles) le, trail.count_restart_le inside,
      trail.pairwise inside⟩

/-- With two rounds behind it, the cursor stands at the end of the inner loop: it leaves that loop,
restarts the outer one, steps over the loop that runs not at all, and enters the inner one anew. -/
theorem resolve_in_phases_ebb :
    ∃ c last : Cursor, Reached ebb 2 false c
      ∧ Trail c [.leave, .restart, .skip, .enter] last ∧ Rests last c.resolve
      ∧ [Change.leave, .restart, .skip, .enter].length + 1 ≤ 2 * (Step.walkAll ebb).length + 2 := by
  have once : Reached ebb 0 true (start ebb).resolve.2 := .resolve .start
  have twice : Reached ebb 1 true ((start ebb).rounds 1).resolve.2 := .resolve (.advance once)
  have reached : Reached ebb 2 false ((start ebb).rounds 2) := .advance twice
  have trail : Trail ((start ebb).rounds 2) [.leave, .restart, .skip, .enter]
      ((start ebb).rounds 2).resolve.2 :=
    .cons rfl .leave (.cons rfl (.restart rfl) (.cons rfl .skip (.cons rfl (.enter rfl) .nil)))
  exact ⟨_, _, reached, trail, .at rfl, ((resolve_in_phases reached).2 _ _ trail).1⟩

end Cursor

end Switchboard
