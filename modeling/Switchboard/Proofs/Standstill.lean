import Switchboard.Proofs.Answers
import Switchboard.Proofs.Clocks

/-!
# When the engine has nothing to do

The simulation lets time pass when the engine has no turn to take (`Simulation.turn`). What it waits
for then lies ahead (`clock_lt_nextDue`), so that time does not go back. If it waits for nothing
either, it is idle and every request has been taken (`idle_of_standstill`): a run never comes to a
standstill, nor does a stop.
-/

namespace Switchboard.Engine

variable {σ : Type}

/-! ## The clock of a wait -/

variable {panel : Panel} {phase next : Phase} {signal : Signal} {effects : List Effect}

/-- **Whether seconds are counted** in a phase. -/
def Phase.isWaiting : Phase → Bool
  | .waiting .. => true
  | _ => false

/-- A wait that begins begins to count seconds. -/
theorem Run.countdown_wait {run : Run} {n : Nat} (begins : run.wait n = (next, effects))
    (waits : next.isWaiting = true) : .countdown ∈ effects := by
  unfold Run.wait at begins
  split at begins
  · cases begins
    cases waits
  · cases begins
    exact List.mem_cons_of_mem _ List.mem_cons_self

theorem Run.countdown_carryOut {run : Run} {d : Dispatch}
    (begins : run.carryOut d = (next, effects)) (waits : next.isWaiting = true) :
    .countdown ∈ effects := by
  cases d with
  | relay id output power =>
    cases begins
    cases waits
  | wait id span =>
    cases span with
    | fixed seconds => exact Run.countdown_wait begins waits
    | random min max =>
      dsimp only [Run.carryOut] at begins
      split at begins
      · cases begins
        cases waits
      · exact Run.countdown_wait begins waits

theorem Run.countdown_proceed {run : Run} {told : List Effect}
    (goes : run.proceed panel told = (next, effects)) (waits : next.isWaiting = true) :
    .countdown ∈ effects := by
  unfold Run.proceed at goes
  split at goes
  · cases goes
    cases waits
  · cases goes
    exact List.mem_append_right _ (Run.countdown_carryOut rfl waits)

/-- **A wait begins with a countdown**, or it goes on. -/
theorem Transition.countdown (ht : Transition panel phase signal next effects)
    (waits : next.isWaiting = true) : .countdown ∈ effects ∨ phase.isWaiting = true := by
  cases ht with
  | starts ne goes => exact .inl (Run.countdown_proceed goes waits)
  | draws ge le begins => exact .inl (Run.countdown_wait begins waits)
  | proceeds goes => exact .inl (Run.countdown_proceed goes waits)
  | refuses listens => exact .inr waits
  | ticks pos => exact .inr rfl
  | _ => cases waits

/-- Once a countdown has begun, its next second is over at some instant. -/
theorem isSome_alarm {instant : Nat} {timer : Option Nat} {es : List Effect}
    (h : .countdown ∈ es ∨ timer.isSome = true) :
    (es.foldl (Effect.alarm instant) timer).isSome = true := by
  induction es generalizing timer with
  | nil => exact h.resolve_left List.not_mem_nil
  | cons e es ih =>
    refine ih ?_
    obtain h | h := h
    · obtain rfl | h := List.mem_cons.mp h
      · exact .inr rfl
      · exact .inl h
    · refine .inr ?_
      cases e with
      | countdown => rfl
      | _ => exact h

namespace Simulation

variable {s : Surroundings σ} {drift : σ → σ → Prop} {x y : Simulation σ}

/-- **Seconds are counted** exactly during a wait. -/
theorem Course.isSome_timer {world : σ} {signals : List Signal}
    (h : Course s drift { world } signals x) : x.timer.isSome = x.phase.isWaiting := by
  generalize hfirst : ({ world } : Simulation σ) = first at h
  induction h with
  | refl =>
    subst hfirst
    rfl
  | @snoc signals signal y z before next ih =>
    cases signal with
    | none =>
      rw [next.unnoticed.phase, next.still.2.1]
      exact ih
    | some signal =>
      obtain ⟨effects, hn⟩ := next.noticed
      have ht := next.timed hn
      cases hphase : z.phase with
      | waiting run n =>
        have hcounts := hn.step.countdown (hphase ▸ rfl)
        rw [← ih] at hcounts
        by_cases ticks : signal = .tick
        · obtain ⟨v, offers, -⟩ := next.fed
          subst ticks
          cases offers with
          | tick timer due =>
            rw [(ht.rung rfl timer).2 hphase]
            exact isSome_alarm (.inr rfl)
        · rw [ht.timer ticks hphase]
          exact isSome_alarm hcounts
      | _ =>
        rw [ht.stopped (hphase ▸ nofun)]
        rfl

/-! ## Waiting for something -/

/-- Nothing is due at any instant exactly if nothing is waited for. -/
theorem nextDue_eq_none_iff : x.nextDue = none ↔ x.call = none ∧ x.timer = none := by
  unfold nextDue
  cases x.call <;> cases x.timer <;> simp

/-- An engine that does nothing about a signal is in a phase that does not take it. -/
theorem step_eq_none {signal : Signal} (h : feed s x signal = none) :
    step s.panel x.phase signal = none := by
  by_contra listens
  exact Option.isSome_iff_ne_none.mp (isSome_feed (Option.isSome_iff_ne_none.mpr listens)) h

/-- A command that is due comes back, if the phase takes answers. -/
theorem clock_lt_of_land? {c : Call} (listens : ∀ a, step s.panel x.phase (.answered a) ≠ none)
    (way : x.call = some c) (none : land? s x = none) : x.clock < c.due := by
  by_contra late
  simp only [land?, way, if_pos (Nat.le_of_not_lt late)] at none
  have hstep := step_eq_none none
  exact listens _ hstep

/-- A second that is over is noticed, if the phase takes ticks. -/
theorem clock_lt_of_ring? {instant : Nat} (listens : step s.panel x.phase .tick ≠ none)
    (timer : x.timer = some instant) (none : ring? s x = none) : x.clock < instant := by
  by_contra late
  simp only [ring?, timer, if_pos (Nat.le_of_not_lt late)] at none
  have hstep := step_eq_none none
  exact listens hstep

/-- **What is due next lies ahead** of an engine that has nothing to do. -/
theorem clock_lt_nextDue {due : Nat} (sound : Sound x)
    (timed : x.timer.isSome = x.phase.isWaiting) (rests : turn s x = none)
    (next : x.nextDue = some due) : x.clock < due := by
  have aw := sound.awaits
  unfold turn at rests
  cases phase : x.phase with
  | waiting run n =>
    rw [phase] at aw rests timed
    have hcall : x.call = none := Option.map_eq_none_iff.mp aw
    obtain ⟨instant, htimer⟩ := Option.isSome_iff_exists.mp timed
    rw [nextDue, hcall, htimer] at next
    cases next
    simp only [Option.orElse_eq_or, Option.or_eq_none_iff] at rests
    refine clock_lt_of_ring? ?_ htimer rests.1
    rw [phase]
    dsimp only [step]
    split
    · exact nofun
    · exact nofun
  | calling _ _ _ | landing _ | sweeping _ _ _ _ =>
    rw [phase] at rests timed
    have htimer : x.timer = none := Option.not_isSome_iff_eq_none.mp (Bool.eq_false_iff.mp timed)
    cases hcall : x.call with
    | none =>
      rw [nextDue, hcall, htimer] at next
      cases next
    | some c =>
      rw [nextDue, hcall, htimer] at next
      cases next
      simp only [Option.orElse_eq_or, Option.or_eq_none_iff] at rests
      exact clock_lt_of_land? (fun a => by rw [phase]; cases a <;> exact nofun) hcall rests.1
  | _ =>
    -- nothing else is waited for
    rw [phase] at aw timed
    have htimer : x.timer = none := Option.not_isSome_iff_eq_none.mp (Bool.eq_false_iff.mp timed)
    rw [nextDue_eq_none_iff.mpr ⟨Option.map_eq_none_iff.mp aw, htimer⟩] at next
    cases next

/-! ## Waiting for nothing -/

/-- A pause leaves nothing to pause for. -/
theorem isRestless_pause (x : Simulation σ) : x.pause.isRestless = false := by
  have hlength : (x.line.take (queueLength - x.queue.length)).length
      = min (queueLength - x.queue.length) x.line.length := List.length_take
  simp only [isRestless, pause, Bool.false_or, Bool.and_eq_false_imp, Bool.not_eq_true',
    List.isEmpty_eq_false_iff, decide_eq_false_iff_not, List.length_append, ne_eq,
    List.drop_eq_nil_iff]
  omega

/-- An idle engine takes whatever is in the queue. -/
theorem queue_eq_nil_of_take? (idle : x.phase = .idle) (none : take? s x = none) :
    x.queue = [] := by
  cases hq : x.queue with
  | nil => rfl
  | cons r rest =>
    simp only [take?, hq] at none
    have hstep := step_eq_none none
    rw [show Simulation.phase _ = Phase.idle from idle] at hstep
    cases r with
    | start t p =>
      dsimp only [step] at hstep
      split at hstep
      · cases hstep
      · cases hstep
    | stop t => cases hstep

/-- An engine that has nothing to pause for has nobody in line for an empty queue. -/
theorem pending_eq_nil_of_rest? (empty : x.queue = []) (none : rest? s x = none) :
    x.pending = [] := by
  unfold rest? at none
  split at none
  · cases none
  · rename_i calm
    rw [Bool.not_eq_true, isRestless, Bool.or_eq_false_iff, empty] at calm
    rw [pending, empty, List.nil_append]
    simpa [queueLength] using calm.2

/-- **An engine that has nothing to do and waits for nothing** is idle and has taken every request,
as long as someone holds on to it. -/
theorem idle_of_standstill (within : s.DrawsWithin) (sound : Sound x) (held : x.held = true)
    (timed : x.timer.isSome = x.phase.isWaiting) (rests : turn s x = none)
    (nothing : x.nextDue = none) : x.phase = .idle ∧ x.pending = [] := by
  obtain ⟨hcall, htimer⟩ := nextDue_eq_none_iff.mp nothing
  have aw := sound.awaits
  rw [onWay, hcall] at aw
  rw [htimer] at timed
  unfold turn at rests
  cases phase : x.phase with
  | idle =>
    rw [phase] at rests
    simp only [Option.orElse_eq_or, Option.or_eq_none_iff] at rests
    exact ⟨rfl, pending_eq_nil_of_rest? (queue_eq_nil_of_take? phase rests.1) rests.2⟩
  | drawing run lo hi =>
    have listens := within.listens phase (sound.ordered run lo hi phase) x.world
    simp only [phase] at rests
    have hstep := step_eq_none rests
    rw [phase] at listens
    rw [hstep] at listens
    cases listens
  | waiting run n =>
    rw [phase] at timed
    cases timed
  | between run =>
    have hheld : x.isAbandoned = false := by
      rw [isAbandoned, held]
      rfl
    simp only [phase, Option.orElse_eq_or, Option.or_eq_none_iff, hheld] at rests
    have hstep := step_eq_none rests.2
    rw [phase] at hstep
    cases hstep
  -- a command is on its way in these phases
  | calling _ _ _ | landing _ | sweeping _ _ _ _ =>
    rw [phase] at aw
    cases aw
  | ended =>
    rw [(sound.alone (phase ▸ rfl)).1] at held
    cases held

end Simulation

end Switchboard.Engine
