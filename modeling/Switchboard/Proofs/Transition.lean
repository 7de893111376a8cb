import Switchboard.Engine.Machine

/-!
# The transitions of the engine

`step` is written for whoever runs the engine: it looks at the phase and the
signal, and says what comes next. Here the same is written for whoever reasons
about it. `Transition` has one rule for each thing that the engine does, and the
two agree (`step_eq_some_iff`), so that an invariant of the engine is proved rule
by rule, without a look at how `step` finds out which rule applies.

Signals that the engine treats alike share a rule: a start is refused in the same
way wherever it is refused, and a run ends in the same way whether somebody
stops it or everybody has left.
-/

namespace Switchboard.Engine

/-- **Whether a phase belongs to a run** that has not ended. -/
def Phase.isActive : Phase → Bool
  | .drawing .. => true
  | .calling .. => true
  | .waiting .. => true
  | .between _ => true
  | .idle => false
  | .landing _ => false
  | .sweeping .. => false
  | .ended => false

/-- **Whether a run listens to requests** in a phase. It does unless it is about to
draw a length. -/
def Phase.isListening : Phase → Bool
  | .calling .. => true
  | .waiting .. => true
  | .between _ => true
  | _ => false

/-- **The signals that end a run**, and whom the answer is for that is owed then:
the one who asks for a stop, or nobody if the engine is abandoned. -/
inductive Signal.Halts : Signal → Option Ticket → Prop where
  /-- A stop. -/
  | stop (t : Ticket) : Halts (.request (.stop t)) (some t)
  /-- The last one has left. -/
  | abandoned : Halts .abandoned none

/-- Whether a signal ends a run. -/
def Signal.isHalt : Signal → Bool
  | .request (.stop _) => true
  | .abandoned => true
  | _ => false

/-- **What the engine does**, one rule for each thing. -/
inductive Transition (panel : Panel) : Phase → Signal → Phase → List Effect → Prop where
  /-- A program without steps is not run. -/
  | declines {t : Ticket} {p : Program} (none : p.steps = []) :
      Transition panel .idle (.request (.start t p)) .idle [.answer t .emptyProgram]
  /-- A run begins. -/
  | starts {t : Ticket} {p : Program} {next : Phase} {effects : List Effect} (ne : p.steps ≠ [])
      (goes : Run.proceed panel ⟨p, .start p.steps⟩ [.answer t .started] = (next, effects)) :
      Transition panel .idle (.request (.start t p)) next effects
  /-- A start is refused while a program runs. -/
  | refuses {phase : Phase} {t : Ticket} {p : Program} (listens : phase.isListening = true) :
      Transition panel phase (.request (.start t p)) phase [.answer t .alreadyRunning]
  /-- The length of a random wait is drawn, and the wait begins. -/
  | draws {run : Run} {min max n : Nat} {next : Phase} {effects : List Effect} (ge : min ≤ n)
      (le : n ≤ max) (waits : run.wait n = (next, effects)) :
      Transition panel (.drawing run min max) (.drawn n) next effects
  /-- A command of a run is confirmed. -/
  | confirms {run : Run} {output : Relay} {power : Power} :
      Transition panel (.calling run output power) (.answered (.ok ())) (.between run)
        [.record output power]
  /-- A command of a run has failed, and so has the run. -/
  | fails {run : Run} {output : Relay} {power : Power} {fault : ActuatorFault} :
      Transition panel (.calling run output power) (.answered (.error fault)) .idle
        [.status .idle, .event (.error fault.message)]
  /-- A second of a wait is over, and others are left. -/
  | ticks {run : Run} {n : Nat} (pos : 0 < n) :
      Transition panel (.waiting run (n + 1)) .tick (.waiting run n)
        [.status (.waiting run.program.id waitingWords n), .event (.tick n)]
  /-- The last second of a wait is over. -/
  | rings {run : Run} {n : Nat} (le : n ≤ 1) :
      Transition panel (.waiting run n) .tick (.between run) [.event (.tick 0)]
  /-- A run goes on to its next step. -/
  | proceeds {run : Run} {next : Phase} {effects : List Effect}
      (goes : Run.proceed panel { run with cursor := run.cursor.advance } [] = (next, effects)) :
      Transition panel (.between run) .quiet next effects
  /-- A run ends while its command is with the controller. -/
  | cuts {run : Run} {output : Relay} {power : Power} {signal : Signal}
      {caller : Option Ticket} (ends : signal.Halts caller) :
      Transition panel (.calling run output power) signal (.landing caller) cancellation
  /-- A run ends during a wait. -/
  | haltsWaiting {run : Run} {n : Nat} {signal : Signal} {caller : Option Ticket}
      (ends : signal.Halts caller) :
      Transition panel (.waiting run n) signal (.sweeping .first Relay.others .empty caller)
        (cancellation ++ [.command .first .off])
  /-- A run ends between two steps. -/
  | haltsBetween {run : Run} {signal : Signal} {caller : Option Ticket}
      (ends : signal.Halts caller) :
      Transition panel (.between run) signal (.sweeping .first Relay.others .empty caller)
        (cancellation ++ [.command .first .off])
  /-- A stop is taken while nothing runs. -/
  | sweeps {t : Ticket} :
      Transition panel .idle (.request (.stop t)) (.sweeping .first Relay.others .empty (some t))
        [.command .first .off]
  /-- The command of a run that was stopped is answered. -/
  | lands {caller : Option Ticket} {result : Except ActuatorFault Unit} :
      Transition panel (.landing caller) (.answered result)
        (.sweeping .first Relay.others .empty caller) [.command .first .off]
  /-- An off command is answered, and the next is sent. -/
  | sweepsOn {current following : Relay} {rest : List Relay} {report : Sweep}
      {caller : Option Ticket} {result : Except ActuatorFault Unit} :
      Transition panel (.sweeping current (following :: rest) report caller) (.answered result)
        (.sweeping following rest (report.record current result) caller)
        [.command following .off]
  /-- The last off command is answered, and so is the stop. -/
  | reports {current : Relay} {report : Sweep} {t : Ticket}
      {result : Except ActuatorFault Unit} :
      Transition panel (.sweeping current [] report (some t)) (.answered result) .idle
        [.answer t (.stopped (report.record current result))]
  /-- The last off command is answered, and nobody is left. -/
  | sweepsUp {current : Relay} {report : Sweep} {result : Except ActuatorFault Unit} :
      Transition panel (.sweeping current [] report none) (.answered result) .ended []
  /-- Everybody has left an engine that does nothing. -/
  | ends : Transition panel .idle .abandoned .ended []

variable {panel : Panel} {phase next : Phase} {signal : Signal} {effects : List Effect}

/-- **A step follows one of the rules.** -/
theorem transition_of_step (h : step panel phase signal = some (next, effects)) :
    Transition panel phase signal next effects := by
  cases phase with
  | idle =>
    cases signal with
    | request r =>
      cases r with
      | start t p =>
        dsimp only [step] at h
        by_cases none : p.steps = []
        · rw [if_pos (List.isEmpty_iff.mpr none)] at h
          cases h
          exact .declines none
        · rw [if_neg (by rwa [List.isEmpty_iff])] at h
          exact .starts none (Option.some.inj h)
      | stop t =>
        cases h
        exact .sweeps
    | abandoned =>
      cases h
      exact .ends
    | _ => cases h
  | drawing run min max =>
    cases signal with
    | drawn n =>
      dsimp only [step] at h
      by_cases hn : min ≤ n ∧ n ≤ max
      · rw [if_pos hn] at h
        exact .draws hn.1 hn.2 (Option.some.inj h)
      · rw [if_neg hn] at h
        cases h
    | _ => cases h
  | calling run output power =>
    cases signal with
    | request r =>
      cases r with
      | start t p =>
        cases h
        exact .refuses rfl
      | stop t =>
        cases h
        exact .cuts (.stop t)
    | abandoned =>
      cases h
      exact .cuts .abandoned
    | answered result =>
      cases result with
      | ok u =>
        cases h
        exact .confirms
      | error fault =>
        cases h
        exact .fails
    | _ => cases h
  | waiting run n =>
    cases signal with
    | request r =>
      cases r with
      | start t p =>
        cases h
        exact .refuses rfl
      | stop t =>
        cases h
        exact .haltsWaiting (.stop t)
    | abandoned =>
      cases h
      exact .haltsWaiting .abandoned
    | tick =>
      dsimp only [step] at h
      by_cases hn : n ≤ 1
      · rw [if_pos hn] at h
        cases h
        exact .rings hn
      · rw [if_neg hn] at h
        cases h
        obtain ⟨m, rfl⟩ := Nat.exists_eq_succ_of_ne_zero (show n ≠ 0 by omega)
        exact .ticks (by omega)
    | _ => cases h
  | between run =>
    cases signal with
    | request r =>
      cases r with
      | start t p =>
        cases h
        exact .refuses rfl
      | stop t =>
        cases h
        exact .haltsBetween (.stop t)
    | abandoned =>
      cases h
      exact .haltsBetween .abandoned
    | quiet => exact .proceeds (Option.some.inj h)
    | _ => cases h
  | landing caller =>
    cases signal with
    | answered result =>
      cases h
      exact .lands
    | _ => cases h
  | sweeping current rest report caller =>
    cases signal with
    | answered result =>
      cases rest with
      | cons following rest =>
        cases h
        exact .sweepsOn
      | nil =>
        cases caller with
        | some t =>
          cases h
          exact .reports
        | none =>
          cases h
          exact .sweepsUp
    | _ => cases h
  | ended => cases signal <;> cases h

/-- **Every rule is followed.** -/
theorem step_of_transition (h : Transition panel phase signal next effects) :
    step panel phase signal = some (next, effects) := by
  cases h with
  | declines none => simp [step, none]
  | starts ne goes => simp [step, ne, goes]
  | refuses listens =>
    cases phase with
    | calling run output power => rfl
    | waiting run n => rfl
    | between run => rfl
    | _ => cases listens
  | draws ge le waits => simp [step, ge, le, waits]
  | confirms => rfl
  | fails => rfl
  | ticks pos => simp [step, Nat.ne_of_gt pos]
  | rings le => simp [step, le]
  | proceeds goes => simp [step, goes]
  | cuts ends => cases ends <;> rfl
  | haltsWaiting ends => cases ends <;> rfl
  | haltsBetween ends => cases ends <;> rfl
  | sweeps => rfl
  | lands => rfl
  | sweepsOn => rfl
  | reports => rfl
  | sweepsUp => rfl
  | ends => rfl

/-- **The machine does exactly what the rules say.** -/
theorem step_eq_some_iff :
    step panel phase signal = some (next, effects) ↔ Transition panel phase signal next effects :=
  ⟨transition_of_step, step_of_transition⟩

end Switchboard.Engine
