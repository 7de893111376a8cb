import Mathlib.Data.List.Chain
import Mathlib.Logic.Relation
import Switchboard.Proofs.Traversal

/-!
# The positions that a cursor comes to

A cursor is resolved any number of times, and advanced only where it has been found to stand at a
step. In every position that it comes to (`Cursor.Reached`), its frames form the stack that they
should: the outermost goes through the program, and every other one through the body of the loop
at which the frame below it stands.

`Frame.Linked` builds such stacks from the outermost frame on. `Cursor.IsNested` says what can be
seen of one frame and the one below it, and of every frame alone, and is read off it.

While a cursor is resolved it moves many times, and loops are counted up on the way. What is said
of positions is therefore said of those in between too: whatever moves lead away from a position
(`Cursor.Moves`), they keep frames linked.
-/

namespace Switchboard

/-- **A frame goes through a loop at which another one stands**: through the body of that loop,
which dispatches something, in one of its iterations. -/
def Frame.Within (f outer : Frame) : Prop :=
  ∃ (id : StepId) (n : UInt32) (completed : Nat),
    outer.steps[outer.index]? = some (.loop id n f.steps)
      ∧ Step.expand (.loop id n f.steps) ≠ []
      ∧ f.kind = .loop n.toNat completed ∧ completed < n.toNat

namespace Cursor

variable {steps : List Step} {c next : Cursor}

/-- **A position in a program whose frames lie inside one another.** -/
structure IsNested (steps : List Step) (c : Cursor) : Prop where
  /-- The outermost frame goes through the steps of the program. -/
  outermost : ∃ index, c.frames.getLast? = some ⟨steps, index, .program⟩
  /-- Every other frame goes through the loop at which the frame below it stands. -/
  within : c.frames.IsChain Frame.Within
  /-- No frame is past the end of its list. -/
  index_le : ∀ f ∈ c.frames, f.index ≤ f.steps.length
  /-- The iterations of a loop are counted with 32 bits, the one that is going on included. -/
  counted : ∀ f ∈ c.frames, ∀ iterations completed, f.kind = .loop iterations completed →
    completed < iterations ∧ completed + 1 < UInt32.size

/-- **Frames that are linked lie inside one another.** -/
theorem isNested_of_linked {frames : List Frame} (h : Frame.Linked steps frames) :
    IsNested steps ⟨frames⟩ := by
  induction h with
  | program le =>
    refine ⟨⟨_, rfl⟩, .singleton _, fun f mem => ?_, fun f mem n k kind => ?_⟩
    · rw [List.mem_singleton.mp mem]
      exact le
    · rw [List.mem_singleton.mp mem] at kind
      cases kind
  | @loop f below id n body index completed outer stands pos lt le ih =>
    have body_ne : Step.expand (.loop id n body) ≠ [] :=
      fun nil => pos (Step.dispatchCount_eq_zero_of_expand _ nil)
    refine ⟨?_, .cons_cons ⟨id, n, completed, stands, body_ne, rfl, lt⟩ ih.within,
      fun g mem => ?_, fun g mem m k kind => ?_⟩
    · obtain ⟨i, last⟩ := ih.outermost
      exact ⟨i, List.getLast?_cons_cons.trans last⟩
    · rcases List.mem_cons.mp mem with rfl | mem
      · exact le
      · exact ih.index_le g mem
    · rcases List.mem_cons.mp mem with rfl | mem
      · obtain ⟨rfl, rfl⟩ := Frame.Kind.loop.inj kind
        exact ⟨lt, Nat.lt_of_le_of_lt lt n.toNat_lt⟩
      · exact ih.counted g mem m k kind

/-! ## Moving -/

/-- **A move** that resolving makes on its way. -/
def Moves (c next : Cursor) : Prop := c.pass = .moved next

/-- A move stays inside the program. -/
theorem Inside.move (h : c.Inside steps) (moves : c.Moves next) : next.Inside steps := by
  obtain ⟨frames⟩ := c
  cases frames with
  | nil => cases moves
  | cons f below =>
    have linked : Frame.Linked steps (f :: below) := h.resolve_left (List.cons_ne_nil _ _)
    exact .inr (linked.move moves)

/-- **Moves stay inside the program**, and change nothing about what lies ahead. -/
theorem Inside.moves (h : c.Inside steps) (moves : Relation.ReflTransGen Moves c next) :
    next.Inside steps ∧ next.ahead = c.ahead := by
  induction moves with
  | refl => exact ⟨h, rfl⟩
  | tail _ move ih => exact ⟨ih.1.move move, (ahead_of_moved move).trans ih.2⟩

/-! ## Positions that are reached -/

/-- **The positions that a cursor comes to**: how many dispatches lie behind it there, and whether
it has just been found to stand at a step. Only then is it advanced. -/
inductive Reached (steps : List Step) : Nat → Bool → Cursor → Prop where
  /-- Nothing has been done. -/
  | start : Reached steps 0 false (start steps)
  /-- The cursor is resolved, again or for the first time. -/
  | resolve {behind : Nat} {found : Bool} {c : Cursor} (before : Reached steps behind found c) :
      Reached steps behind c.resolve.1.isSome c.resolve.2
  /-- The cursor is moved past the step at which it was found to stand. -/
  | advance {behind : Nat} {c : Cursor} (before : Reached steps behind true c) :
      Reached steps (behind + 1) false c.advance

/-- **What holds of a position with a number of dispatches behind it.** -/
structure Accounted (steps : List Step) (behind : Nat) (found : Bool) (c : Cursor) : Prop where
  /-- The cursor goes through the program, or is done with it. -/
  inside : c.Inside steps
  /-- What lies behind and what lies ahead are all dispatches that there are to be found. -/
  ahead_eq : c.ahead = (Step.routedAll 0 steps).drop behind
  /-- No more lie behind than there are. -/
  behind_le : behind ≤ (Step.routedAll 0 steps).length
  /-- A cursor that was found to stand at a step does so. -/
  stands : found = true → ∃ d, Stands steps c d

/-- **Every position that is reached is accounted for.** -/
theorem Reached.accounted {behind : Nat} {found : Bool} (h : Reached steps behind found c) :
    Accounted steps behind found c := by
  induction h with
  | start => exact ⟨inside_start steps, by rw [ahead_start, List.drop_zero], Nat.zero_le _, nofun⟩
  | @resolve behind found c _ ih =>
    obtain ⟨nil, none⟩ | ⟨d, last, some, stands, same⟩ := ih.inside.resolve_cases
    · rw [none]
      exact ⟨.inl rfl, ahead_nil.trans (nil.symm.trans ih.ahead_eq), ih.behind_le, nofun⟩
    · rw [some]
      exact ⟨.inr stands.linked, same.trans ih.ahead_eq, ih.behind_le, fun _ => ⟨d, stands⟩⟩
  | @advance behind c _ ih =>
    obtain ⟨d, stands⟩ := ih.stands rfl
    have next : (d, c.depth - 1) :: c.advance.ahead = (Step.routedAll 0 steps).drop behind :=
      stands.ahead_eq.symm.trans ih.ahead_eq
    refine ⟨stands.inside_advance, ?_, ?_, nofun⟩
    · rw [← List.tail_drop, ← next, List.tail_cons]
    · have ne : (Step.routedAll 0 steps).drop behind ≠ [] := next ▸ List.cons_ne_nil _ _
      rw [ne_eq, List.drop_eq_nil_iff, Nat.not_le] at ne
      exact ne

/-- **Wherever a cursor comes to, its frames lie inside one another**, unless it is finished, with
every dispatch of its program behind it if their counts fit. This also holds on the way of a
resolve, so that no loop is ever counted beyond 32 bits, however often it runs, and no frame passes
the end of its list. -/
theorem isNested_of_reached {behind : Nat} {found : Bool}
    (reached : Reached steps behind found c) (moves : Relation.ReflTransGen Moves c next) :
    next.frames = [] ∧ (Step.CountsFit steps → behind = (Step.expandAll steps).length)
      ∨ IsNested steps next := by
  have accounted := reached.accounted
  obtain ⟨finished | linked, same⟩ := accounted.inside.moves moves
  · have nil : next.ahead = [] := by rw [ahead, finished, Frame.ahead]
    have all : (Step.routedAll 0 steps).length ≤ behind := by
      rw [← List.drop_eq_nil_iff, ← accounted.ahead_eq, ← same, nil]
    refine .inl ⟨finished, fun fits => ?_⟩
    rw [← Step.map_fst_nestedAll 0 steps, List.length_map, ← fits.routedAll_eq 0]
    exact Nat.le_antisymm accounted.behind_le all
  · exact .inr (isNested_of_linked linked)

/-- A loop that runs as often as can be counted, around one that runs not at all and one that
runs twice. -/
def ebb : List Step :=
  [.loop "ebb" 4294967295 [.loop "calm" 0 [.relay "out" .first .off],
    .loop "swell" 2 [.relay "in" .first .on]]]

/-- Before the first step is found, both loops that dispatch something are entered. -/
theorem isNested_of_reached_ebb :
    ∃ c : Cursor, Reached ebb 0 false (start ebb) ∧ Relation.ReflTransGen Moves (start ebb) c
      ∧ c.depth = 3 ∧ IsNested ebb c := by
  have reached : Reached ebb 0 false (start ebb) := .start
  have enters (c : Cursor) (moves : (start ebb).Moves c) :
      Relation.ReflTransGen Moves (start ebb) c := .single moves
  have moves : Relation.ReflTransGen Moves (start ebb) (start ebb).resolve.2 :=
    ((enters _ rfl).tail rfl).tail rfl
  have nested := isNested_of_reached reached moves
  exact ⟨_, reached, moves, rfl,
    nested.resolve_left fun finished => List.cons_ne_nil _ _ finished.1⟩

end Cursor

end Switchboard
