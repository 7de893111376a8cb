import Switchboard.Engine.Rig
import Switchboard.Proofs.Course

/-!
# A stop switches the board off

When a stop is answered, every output of the board is off, except those whose
off command the report lists as failed; and the last four commands that the
board received are the off commands in board order. This holds on a board that
nothing but the engine commands, whatever else befalls it: outputs may begin and
cease to refuse commands at any time, and the controller may report failures
that never were (`Rig.Untouched` says what may change by itself).

What carries the result is `Swept`: the outputs that a sweep has attempted are
the last that the board was commanded to switch, and they are off unless their
command failed. It cannot be broken by a command of an earlier run that comes
late, since the engine has at most one command on its way and awaits the answer
of each before it sends the next (`Course.awaits`).
-/

namespace Switchboard

/-! ## Commands and the board -/

namespace Board

variable {b : Board} {output other : Relay} {power : Power}

/-- Every command is received, also one that is refused. -/
theorem command_commands : (b.command output power).2.commands = (output, power) :: b.commands := by
  unfold command
  dsimp only
  split
  · rfl
  · rfl

/-- A command leaves the other outputs alone. -/
theorem command_power_of_ne (h : output ≠ other) :
    (b.command output power).2.power other = b.power other := by
  unfold command
  dsimp only
  split
  · rfl
  · exact PerRelay.of_put_ne _ _ h

/-- A command that is confirmed was carried out. -/
theorem command_power_of_ok (h : (b.command output power).1 = .ok ()) :
    (b.command output power).2.power output = power := by
  unfold command at h ⊢
  dsimp only at h ⊢
  split at h
  · cases h
  · rename_i hfaulty
    rw [if_neg hfaulty]
    exact PerRelay.of_put_self _ _ _

end Board

namespace Engine

/-- The outputs whose off command failed. -/
def Sweep.failed (sweep : Sweep) : List Relay := sweep.failures.map Prod.fst

namespace Rig

variable {r r' : Rig} {number : Nat} {output : Relay} {power : Power}

/-- **What nothing but a command changes** about a rig. -/
structure Untouched (r r' : Rig) : Prop where
  /-- The state of every output. -/
  outputs : r'.board.outputs = r.board.outputs
  /-- The commands received. -/
  commands : r'.board.commands = r.board.commands

theorem switch_board : (r.switch number output power).2.board = (r.board.command output power).2 := by
  unfold switch
  dsimp only
  split
  · rfl
  · rfl

/-- The controller confirms no command that failed. -/
theorem command_ok_of_switch (h : (r.switch number output power).1 = .ok ()) :
    (r.board.command output power).1 = .ok () := by
  unfold switch at h
  dsimp only at h
  split at h
  · cases h
  · exact h

theorem record_board (clock : Nat) : (r.record clock output power).board = r.board := by
  unfold record
  split
  · rfl
  · rfl

theorem draw_board (min max : Nat) : (r.draw min max).2.board = r.board := by
  unfold draw
  split
  rfl

end Rig

/-! ## What a sweep has reached -/

/-- **What a sweep has reached** on a board. -/
structure Swept (r : Rig) (sweep : Sweep) : Prop where
  /-- The last commands of the board are the off commands of the sweep. -/
  last : (sweep.attempted.map fun output => (output, Power.off)).reverse <+: r.board.commands
  /-- The outputs it has attempted are off, unless their command failed. -/
  off : ∀ output ∈ sweep.attempted, output ∉ sweep.failed → r.board.power output = .off

variable {r r' : Rig} {sweep : Sweep}

/-- A sweep that has not begun has reached nothing. -/
theorem Swept.empty (r : Rig) : Swept r .empty :=
  ⟨List.nil_prefix, fun _ h => absurd h List.not_mem_nil⟩

/-- What may change by itself does not undo a sweep. -/
theorem Swept.untouched (h : Swept r sweep) (u : Rig.Untouched r r') : Swept r' sweep := by
  refine ⟨?_, fun output ha hf => ?_⟩
  · rw [u.commands]
    exact h.last
  · rw [Board.power, u.outputs]
    exact h.off output ha hf

@[simp] theorem Sweep.attempted_record (output : Relay) (result : Except ActuatorFault Unit) :
    (sweep.record output result).attempted = sweep.attempted ++ [output] := by
  cases result <;> rfl

/-- An output has not failed if it had not before and does not now. -/
theorem Sweep.not_mem_failed_record {output other : Relay} {result : Except ActuatorFault Unit} :
    other ∉ (sweep.record output result).failed
      ↔ other ∉ sweep.failed ∧ (other = output → result = .ok ()) := by
  cases result with
  | ok u => simp [Sweep.record, Sweep.failed]
  | error f => simp [Sweep.record, Sweep.failed]

/-- **An off command brings a sweep further**, whatever comes of it. -/
theorem Swept.switch (h : Swept r sweep) (number : Nat) (output : Relay) :
    Swept (r.switch number output .off).2
      (sweep.record output (r.switch number output .off).1) := by
  refine ⟨?_, fun other ha hf => ?_⟩
  · rw [Rig.switch_board, Board.command_commands, Sweep.attempted_record, List.map_append,
      List.reverse_append]
    exact (List.prefix_cons_inj _).mpr h.last
  · rw [Rig.switch_board]
    obtain ⟨hbefore, hnow⟩ := Sweep.not_mem_failed_record.mp hf
    by_cases heq : other = output
    · subst heq
      exact Board.command_power_of_ok (Rig.command_ok_of_switch (hnow rfl))
    · rw [Board.command_power_of_ne (Ne.symm heq)]
      rw [Sweep.attempted_record, List.mem_append, List.mem_singleton] at ha
      exact h.off other (ha.resolve_right heq) hbefore

/-- **A sweep that has attempted every output** leaves the board off. -/
theorem Swept.all_off (h : Swept r sweep) (all : sweep.attempted = Relay.all) :
    (∀ output, output ∉ sweep.failed → r.board.power output = .off)
      ∧ r.board.commands.take 4 = (Relay.all.map fun output => (output, Power.off)).reverse := by
  refine ⟨fun output hf => h.off output (all ▸ Relay.mem_all output) hf, ?_⟩
  have hlast := h.last
  rw [all] at hlast
  exact (List.prefix_iff_eq_take.mp hlast).symm

/-! ## Steps of a sweep -/

/-- Whether outputs are being switched off. -/
def Phase.isSweeping : Phase → Bool
  | .sweeping .. => true
  | _ => false

theorem Phase.not_sweeping_of_listening {phase : Phase} (h : phase.isListening = true) :
    phase.isSweeping = false := by
  cases phase with
  | sweeping current rest report caller => cases h
  | _ => rfl

/-- No stop is answered. -/
def LeavesStops (effects : List Effect) : Prop :=
  ∀ t report, Effect.answer t (.stopped report) ∉ effects

@[simp] theorem leavesStops_nil : LeavesStops [] := fun _ _ h => nomatch h

@[simp] theorem leavesStops_cons {e : Effect} {es : List Effect} :
    LeavesStops (e :: es)
      ↔ (∀ t report, Effect.answer t (.stopped report) ≠ e) ∧ LeavesStops es := by
  simp only [LeavesStops, List.mem_cons, not_or, forall_and, ne_eq]

@[simp] theorem leavesStops_append {es fs : List Effect} :
    LeavesStops (es ++ fs) ↔ LeavesStops es ∧ LeavesStops fs := by
  simp only [LeavesStops, List.mem_append, not_or, forall_and]

/-- **What a step has to do with sweeps**: it begins one, it continues one, or it has
nothing to do with any. -/
inductive SweepStep (phase : Phase) (signal : Signal) : Phase → List Effect → Prop where
  /-- A sweep begins. -/
  | begins (caller : Option Ticket) {effects : List Effect} (leaves : LeavesStops effects) :
      SweepStep phase signal (Engine.sweep caller).1 effects
  /-- An off command was answered. -/
  | continues {current : Relay} {rest : List Relay} {report : Sweep} {caller : Option Ticket}
      {result : Except ActuatorFault Unit} {next : Phase} {effects : List Effect}
      (swept : phase = .sweeping current rest report caller)
      (answered : signal = .answered result)
      (goes : sweepOn current rest report caller result = (next, effects)) :
      SweepStep phase signal next effects
  /-- No output is being switched off, and no stop is answered. -/
  | aside {next : Phase} {effects : List Effect} (other : next.isSweeping = false)
      (leaves : LeavesStops effects) : SweepStep phase signal next effects

theorem Run.leaves_wait (run : Run) (n : Nat) :
    (run.wait n).1.isSweeping = false ∧ LeavesStops (run.wait n).2 := by
  unfold Run.wait
  split
  · exact ⟨rfl, leavesStops_nil⟩
  · exact ⟨rfl, by simp⟩

theorem Run.leaves_carryOut (run : Run) (d : Dispatch) :
    (run.carryOut d).1.isSweeping = false ∧ LeavesStops (run.carryOut d).2 := by
  cases d with
  | relay id output power => exact ⟨rfl, by simp [Run.carryOut]⟩
  | wait id span =>
    cases span with
    | fixed seconds => exact run.leaves_wait _
    | random min max =>
      dsimp only [Run.carryOut]
      split
      · exact ⟨rfl, leavesStops_nil⟩
      · exact run.leaves_wait _

/-- A run that goes on has nothing to do with sweeps. -/
theorem Run.leaves_proceed (panel : Panel) (run : Run) {effects : List Effect}
    (leaves : LeavesStops effects) :
    (run.proceed panel effects).1.isSweeping = false
      ∧ LeavesStops (run.proceed panel effects).2 := by
  unfold Run.proceed
  split
  · refine ⟨rfl, leavesStops_append.mpr ⟨leaves, ?_⟩⟩
    simp
  · rename_i d cursor hr
    have hc := Run.leaves_carryOut { run with cursor } d
    refine ⟨hc.1, leavesStops_append.mpr ⟨leavesStops_append.mpr ⟨?_, leaves⟩, hc.2⟩⟩
    simp

variable {panel : Panel} {phase next : Phase} {signal : Signal} {effects : List Effect}

/-- **Every step begins a sweep, continues one or has nothing to do with any.** -/
theorem Transition.sweepStep (ht : Transition panel phase signal next effects) :
    SweepStep phase signal next effects := by
  cases ht with
  | declines none => exact .aside rfl (by simp)
  | @starts t p next effects ne goes =>
    have hl := Run.leaves_proceed panel ⟨p, .start p.steps⟩
      (show LeavesStops [.answer t .started] from by simp)
    rw [goes] at hl
    exact .aside hl.1 hl.2
  | refuses listens => exact .aside (Phase.not_sweeping_of_listening listens) (by simp)
  | @draws run min max n next effects ge le waits =>
    have hl := run.leaves_wait n
    rw [waits] at hl
    exact .aside hl.1 hl.2
  | confirms => exact .aside rfl (by simp)
  | fails => exact .aside rfl (by simp)
  | ticks pos => exact .aside rfl (by simp)
  | rings le => exact .aside rfl (by simp)
  | @proceeds run next effects goes =>
    have hl := Run.leaves_proceed panel { run with cursor := run.cursor.advance } leavesStops_nil
    rw [goes] at hl
    exact .aside hl.1 hl.2
  | cuts ends => exact .aside rfl (by simp [cancellation])
  | haltsWaiting ends => exact .begins _ (by simp [cancellation])
  | haltsBetween ends => exact .begins _ (by simp [cancellation])
  | sweeps => exact .begins _ (by simp)
  | lands => exact .begins _ (by simp)
  | sweepsOn => exact .continues rfl rfl rfl
  | reports => exact .continues rfl rfl rfl
  | sweepsUp => exact .continues rfl rfl rfl
  | ends => exact .aside rfl leavesStops_nil

/-! ## The board over a course -/

namespace Simulation

variable {tick latency : Nat} {drift : Rig → Rig → Prop} {x y z : Simulation Rig}

/-- What the engine notes leaves the board alone. -/
theorem foldl_worldAfter_board (clock : Nat) (r : Rig) (es : List Effect) :
    (es.foldl (worldAfter (Rig.surroundings panel tick latency) clock) r).board = r.board := by
  induction es generalizing r with
  | nil => rfl
  | cons e es ih =>
    rw [List.foldl_cons, ih]
    cases e with
    | record output power => exact Rig.record_board clock
    | _ => rfl

/-- Feeding a signal leaves the board alone. -/
theorem board_of_feed (h : feed (Rig.surroundings panel tick latency) x signal = some y) :
    y.world.board = x.world.board := by
  obtain ⟨es, hf⟩ := fed_of_feed h
  rw [hf.world]
  exact foldl_worldAfter_board _ _ es

/-- **The command on its way reaches the board when it is answered.** -/
theorem Happens.landed {result : Except ActuatorFault Unit}
    (h : Happens (Rig.surroundings panel tick latency) drift x (some (.answered result)) y) :
    ∃ number output power, x.onWay = some (output, power)
      ∧ result = (x.world.switch number output power).1
      ∧ y.world.board = (x.world.switch number output power).2.board := by
  obtain ⟨v, offers, fed⟩ := h.fed
  cases offers with
  | @answered c way due =>
    refine ⟨c.number, c.output, c.power, ?_, rfl, board_of_feed fed⟩
    rw [onWay, way]
    rfl

/-- Apart from that, a board stays as it is, unless something happens to it by itself. -/
theorem Happens.drifts_or_same {signal : Option Signal}
    (h : Happens (Rig.surroundings panel tick latency) drift x signal y)
    (other : ∀ result, signal ≠ some (.answered result)) :
    drift x.world y.world ∨ y.world.board = x.world.board := by
  cases signal with
  | none =>
    cases h with
    | drifts world may => exact .inl may
    | asks r may =>
      unfold submit
      split
      · exact .inr rfl
      · exact .inr rfl
    | _ => exact .inr rfl
  | some signal =>
    obtain ⟨v, offers, fed⟩ := h.fed
    have hboard : v.world.board = x.world.board := by
      cases offers with
      | answered way due => exact absurd rfl (other _)
      | @drawn run lo hi phase => exact Rig.draw_board lo hi
      | _ => rfl
    exact .inr ((board_of_feed fed).trans hboard)

/-- **Nothing else reaches the board.** -/
theorem Happens.untouched {signal : Option Signal}
    (h : Happens (Rig.surroundings panel tick latency) Rig.Untouched x signal y)
    (other : ∀ result, signal ≠ some (.answered result)) : Rig.Untouched x.world y.world := by
  obtain may | same := h.drifts_or_same other
  · exact may
  · exact ⟨congrArg Board.outputs same, congrArg Board.commands same⟩

/-- **What is known of the board in a phase**: a sweep in progress has attempted the
outputs before the current one, and has reached what its report says. -/
def Sweeps (r : Rig) : Phase → Prop
  | .sweeping current rest report _ =>
    report.attempted ++ current :: rest = Relay.all ∧ Swept r report
  | _ => True

theorem sweeps_of_not_sweeping (r : Rig) (h : next.isSweeping = false) : Sweeps r next := by
  cases next with
  | sweeping current rest report caller => cases h
  | _ => trivial

theorem Sweeps.untouched {r r' : Rig} (h : Sweeps r phase) (u : Rig.Untouched r r') :
    Sweeps r' phase := by
  cases phase with
  | sweeping current rest report caller => exact ⟨h.1, h.2.untouched u⟩
  | _ => trivial

/-- **A happening brings a sweep further**, and if it answers a stop, the sweep has
attempted every output. -/
theorem Sweeps.happens {signal : Option Signal} (h : Sweeps x.world x.phase)
    (aw : x.phase.Awaits x.onWay)
    (next : Happens (Rig.surroundings panel tick latency) Rig.Untouched x signal y) :
    Sweeps y.world y.phase
      ∧ ∀ {es}, y.effects = x.effects ++ es → ∀ {t report}, Effect.answer t (.stopped report) ∈ es →
        report.attempted = Relay.all ∧ Swept y.world report := by
  cases signal with
  | none =>
    have hn := next.unnoticed
    refine ⟨?_, fun hes _ _ hm => ?_⟩
    · rw [hn.phase]
      exact h.untouched (next.untouched fun _ he => nomatch he)
    · rw [hn.effects, List.self_eq_append_right] at hes
      rw [hes] at hm
      exact absurd hm List.not_mem_nil
  | some signal =>
    obtain ⟨effects, hn⟩ := next.noticed
    have hsame : ∀ {es}, y.effects = x.effects ++ es → effects = es :=
      fun hes => List.append_cancel_left (hn.effects.symm.trans hes)
    have hs := hn.step.sweepStep
    generalize hphase : y.phase = after at hs ⊢
    cases hs with
    | begins caller leaves =>
      exact ⟨⟨rfl, .empty _⟩, fun hes t report hm => absurd (hsame hes ▸ hm) (leaves t report)⟩
    | aside other leaves =>
      exact ⟨sweeps_of_not_sweeping _ other,
        fun hes t report hm => absurd (hsame hes ▸ hm) (leaves t report)⟩
    | @continues current rest report caller result _ _ swept answered goes =>
      subst answered
      rw [swept] at h aw
      obtain ⟨number, output, power, hway, hresult, hboard⟩ := next.landed
      obtain ⟨rfl, rfl⟩ : output = current ∧ power = .off := by
        rw [hway] at aw
        exact Prod.mk.inj (Option.some.inj aw)
      -- what the report says after this answer is true of the board
      have hswept : Swept y.world (report.record output result) := by
        rw [hresult]
        exact (h.2.switch number output).untouched
          ⟨congrArg Board.outputs hboard, congrArg Board.commands hboard⟩
      have hall : (report.record output result).attempted ++ rest = Relay.all := by
        rw [Sweep.attempted_record, List.append_assoc]
        exact h.1
      unfold sweepOn at goes
      cases rest with
      | nil =>
        rw [List.append_nil] at hall
        cases caller with
        | none =>
          cases goes
          refine ⟨trivial, fun hes _ _ hm => ?_⟩
          rw [← hsame hes] at hm
          exact absurd hm List.not_mem_nil
        | some ticket =>
          cases goes
          refine ⟨trivial, fun hes _ _ hm => ?_⟩
          rw [← hsame hes, List.mem_singleton] at hm
          cases hm
          exact ⟨hall, hswept⟩
      | cons following rest =>
        cases goes
        refine ⟨⟨hall, hswept⟩, fun hes _ _ hm => ?_⟩
        rw [← hsame hes, List.mem_singleton] at hm
        cases hm

/-- **Sweeps in progress are true to the board**, throughout every course. -/
theorem Course.sweeps {signals : List Signal}
    (h : Course (Rig.surroundings panel tick latency) Rig.Untouched x signals y)
    (hx : Sweeps x.world x.phase) (aw : x.phase.Awaits x.onWay) : Sweeps y.world y.phase := by
  induction h with
  | refl => exact hx
  | snoc before next ih => exact (ih.happens (before.awaits aw) next).1

/-- **A stop switches the board off.** Whatever has happened before on a board that
nothing but the engine commands, when a stop is answered every output is off
whose off command is not reported as failed, and the last four commands that the
board received are the off commands in board order. -/
theorem board_off_when_stopped {rig : Rig} {before : List Signal} {signal : Option Signal}
    {es : List Effect} {t : Ticket} {report : Sweep}
    (reach : Course (Rig.surroundings panel tick latency) Rig.Untouched { world := rig } before x)
    (next : Happens (Rig.surroundings panel tick latency) Rig.Untouched x signal y)
    (did : y.effects = x.effects ++ es) (answered : .answer t (.stopped report) ∈ es) :
    (∀ output, output ∉ report.failures.map Prod.fst → y.world.board.power output = .off)
      ∧ y.world.board.commands.take 4
        = (Relay.all.map fun output => (output, Power.off)).reverse := by
  have hsweeps := reach.sweeps trivial rfl
  obtain ⟨hall, hswept⟩ := (hsweeps.happens (reach.awaits rfl) next).2 did answered
  exact hswept.all_off hall

/-- A board with everything on, of which an output ceases to obey while a stop is
being carried out. Another command is reported as failed although it was not. -/
theorem board_off_when_stopped_refusing :
    ∃ rig before x signal y es report,
      Course (Rig.surroundings .unlabelled 1000 0) Rig.Untouched { world := rig } before x
        ∧ Happens (Rig.surroundings .unlabelled 1000 0) Rig.Untouched x signal y
        ∧ y.effects = x.effects ++ es ∧ Effect.answer 0 (.stopped report) ∈ es
        ∧ report.failures.map Prod.fst = [1, 2]
        ∧ (∀ output, output ∉ report.failures.map Prod.fst → y.world.board.power output = .off)
        ∧ y.world.board.commands.take 4
          = (Relay.all.map fun output => (output, Power.off)).reverse := by
  suffices h : ∃ rig before x signal y es report,
      Course (Rig.surroundings .unlabelled 1000 0) Rig.Untouched { world := rig } before x
        ∧ Happens (Rig.surroundings .unlabelled 1000 0) Rig.Untouched x signal y
        ∧ y.effects = x.effects ++ es ∧ Effect.answer 0 (.stopped report) ∈ es
        ∧ report.failures.map Prod.fst = [1, 2] by
    obtain ⟨rig, before, x, signal, y, es, report, reach, next, did, answered, failures⟩ := h
    exact ⟨rig, before, x, signal, y, es, report, reach, next, did, answered, failures,
      board_off_when_stopped reach next did answered⟩
  let planned : List (Nat × (Relay → ActuatorFault)) := [(3, .rejected)]
  have h₀ : Course (Rig.surroundings .unlabelled 1000 0) Rig.Untouched
      { world := { board := ⟨.same .on, .same false, []⟩, planned } } [] _ := .refl
  have h₁ := h₀.snoc (.asks (.stop 0) (.inl rfl))
  have h₂ := h₁.snoc (.takes rfl rfl)
  have h₃ := h₂.snoc (.lands rfl rfl)
  have h₄ := h₃.snoc (.drifts
    { board := ⟨.put (.same .on) 0 .off, .put (.same false) 1 true, [(0, .off)]⟩, planned }
    ⟨rfl, rfl⟩)
  have h₅ := h₄.snoc (.lands rfl rfl)
  have h₆ := h₅.snoc (.lands rfl rfl)
  exact ⟨_, _, _, _, _, _, _, h₆, .lands rfl rfl, rfl, List.mem_singleton_self _, rfl⟩

end Simulation

end Engine

end Switchboard
