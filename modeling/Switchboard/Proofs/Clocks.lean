import Switchboard.Proofs.Transcript

/-!
# What happens at which instant

A happening that the engine notices takes no time. What the engine does about it bears the instant
at which it happened: events are published then, and a command that is sent and a second that
begins are due some time after it (`Happens.timed`). Time passes only in happenings of its own.

In general it may pass whenever it likes, so that anything can come late. A happening
`KeepsTime` if that is not so: time passes only while a run waits for something, and no longer
than until that is due. In a `Timely` run, every happening does. The simulation runs so, since it
lets time pass only when nothing is left to do (`turn_clock`).
-/

namespace Switchboard.Engine

variable {σ : Type}

/-- When the command on its way is due after an effect, if commands are due at some instant. -/
def Effect.due (instant : Nat) (due : Option Nat) : Effect → Option Nat
  | .command .. => some instant
  | _ => due

/-- When the next second is over after an effect, if a second that begins is over at some
instant. -/
def Effect.alarm (instant : Nat) (timer : Option Nat) : Effect → Option Nat
  | .countdown => some instant
  | _ => timer

/-- **Whether time passes in a phase** of a run: the run waits for the controller or for the end of
a second. -/
def Phase.takesTime : Phase → Bool
  | .calling .. => true
  | .waiting .. => true
  | _ => false

namespace Simulation

/-- **What the engine published and when**, oldest first. -/
def timeline (x : Simulation σ) : List (Nat × Event) :=
  x.trace.reverse.filterMap fun e => e.2.event?.map (Prod.mk e.1)

variable {s : Surroundings σ} {drift : σ → σ → Prop} {x y z v : Simulation σ} {signal : Signal}
  {signals : List Signal} {es : List Effect}

/-! ## What a happening does about time -/

/-- Effects take no time. -/
theorem clocks_foldl_perform (s : Surroundings σ) (x : Simulation σ) (es : List Effect) :
    (es.foldl (perform s) x).clock = x.clock
      ∧ (es.foldl (perform s) x).timeline = x.timeline ++ (events es).map (Prod.mk x.clock)
      ∧ (es.foldl (perform s) x).call.map Call.due
        = es.foldl (Effect.due (x.clock + s.latency)) (x.call.map Call.due)
      ∧ (es.foldl (perform s) x).timer
        = es.foldl (Effect.alarm (x.clock + s.tickPeriod)) x.timer := by
  induction es generalizing x with
  | nil => exact ⟨rfl, (List.append_nil _).symm, rfl, rfl⟩
  | cons e es ih =>
    obtain ⟨hclock, htimeline, hdue, htimer⟩ := ih (perform s x e)
    have hone : (perform s x e).clock = x.clock
        ∧ (perform s x e).timeline = x.timeline ++ (events [e]).map (Prod.mk x.clock)
        ∧ (perform s x e).call.map Call.due
          = Effect.due (x.clock + s.latency) (x.call.map Call.due) e
        ∧ (perform s x e).timer = Effect.alarm (x.clock + s.tickPeriod) x.timer e := by
      refine ⟨by cases e <;> rfl, ?_, by cases e <;> rfl, by cases e <;> rfl⟩
      cases e <;> simp [perform, timeline, events, Effect.event?]
    obtain ⟨hclock', htimeline', hdue', htimer'⟩ := hone
    rw [hclock'] at hclock htimeline hdue htimer
    rw [htimeline'] at htimeline
    rw [hdue'] at hdue
    rw [htimer'] at htimer
    refine ⟨hclock, ?_, hdue, htimer⟩
    rw [List.foldl_cons, htimeline, List.append_assoc, ← List.map_append, ← events_append]
    rfl

/-- **What a happening does about time** that the engine notices. -/
structure Timed (s : Surroundings σ) (x : Simulation σ) (signal : Signal) (es : List Effect)
    (y : Simulation σ) : Prop where
  /-- It takes none. -/
  clock : y.clock = x.clock
  /-- Events are published at that instant. -/
  timeline : y.timeline = x.timeline ++ (events es).map (Prod.mk x.clock)
  /-- A command that is sent is due when it has been carried out, and otherwise nothing changes
  unless the controller has answered. -/
  due : signal.answer? = none →
    y.call.map Call.due = es.foldl (Effect.due (x.clock + s.latency)) (x.call.map Call.due)
  /-- The controller does not answer before a command is due. -/
  landed : signal.answer?.isSome = true → ∀ {instant}, x.call.map Call.due = some instant →
    instant ≤ x.clock
  /-- A second that begins is over in due time, and otherwise nothing changes unless a second
  is over. -/
  timer : signal ≠ .tick → ∀ {run n}, y.phase = .waiting run n →
    y.timer = es.foldl (Effect.alarm (x.clock + s.tickPeriod)) x.timer
  /-- A second is not over before its end, and the next begins there. -/
  rung : signal = .tick → ∀ {instant}, x.timer = some instant → instant ≤ x.clock
    ∧ ∀ {run n}, y.phase = .waiting run n →
      y.timer = es.foldl (Effect.alarm (x.clock + s.tickPeriod)) (some (instant + s.tickPeriod))
  /-- No seconds are counted outside of waits. -/
  stopped : (∀ run n, y.phase ≠ .waiting run n) → y.timer = none

theorem clocks_of_feed (h : feed s v signal = some y)
    (hs : Engine.step s.panel v.phase signal = some (y.phase, es)) :
    y.clock = v.clock ∧ y.timeline = v.timeline ++ (events es).map (Prod.mk v.clock)
      ∧ y.call.map Call.due = es.foldl (Effect.due (v.clock + s.latency)) (v.call.map Call.due)
      ∧ (∀ {run n}, y.phase = .waiting run n →
        y.timer = es.foldl (Effect.alarm (v.clock + s.tickPeriod)) v.timer)
      ∧ ((∀ run n, y.phase ≠ .waiting run n) → y.timer = none) := by
  have hc := clocks_foldl_perform s { v with phase := y.phase } es
  unfold feed at h
  simp only [hs, Option.some.injEq] at h
  generalize es.foldl (perform s) { v with phase := y.phase } = u at h hc
  obtain ⟨hclock, htimeline, hdue, htimer⟩ := hc
  have key : y.clock = u.clock ∧ y.timeline = u.timeline ∧ y.call = u.call
      ∧ (∀ run n, y.phase = .waiting run n → y.timer = u.timer)
      ∧ ((∀ run n, y.phase ≠ .waiting run n) → y.timer = none) := by
    generalize y.phase = phase at h ⊢
    split at h
    · subst h
      exact ⟨rfl, rfl, rfl, by rintro run n rfl; rfl, timer_of_not_waiting _ _⟩
    · subst h
      exact ⟨rfl, rfl, rfl, by rintro run n rfl; rfl, timer_of_not_waiting _ _⟩
  obtain ⟨hclock', htimeline', hcall', htimer', hstopped⟩ := key
  exact ⟨hclock'.trans hclock, htimeline'.trans htimeline, hcall' ▸ hdue,
    fun hphase => (htimer' _ _ hphase).trans htimer, hstopped⟩

theorem Happens.timed (h : Happens s drift x (some signal) y) (hn : Noticed s x signal es y) :
    Timed s x signal es y := by
  obtain ⟨v, offers, fed⟩ := h.fed
  have hs := step_of_transition hn.step
  rw [← offers.same.1] at hs
  obtain ⟨hclock, htimeline, hdue, htimer, hstopped⟩ := clocks_of_feed fed hs
  cases offers with
  | answered way due =>
    refine ⟨hclock, htimeline, nofun, fun _ {instant} hinstant => ?_, fun _ => htimer, nofun,
      hstopped⟩
    rw [way] at hinstant
    cases hinstant
    exact due
  | tick timer due =>
    refine ⟨hclock, htimeline, fun _ => hdue, nofun, nofun, fun _ {instant} hinstant => ?_,
      hstopped⟩
    rw [timer] at hinstant
    cases hinstant
    exact ⟨due, htimer⟩
  | drawn phase => exact ⟨hclock, htimeline, fun _ => hdue, nofun, fun _ => htimer, nofun, hstopped⟩
  | request head =>
    exact ⟨hclock, htimeline, fun _ => hdue, nofun, fun _ => htimer, nofun, hstopped⟩
  | quiet empty held =>
    exact ⟨hclock, htimeline, fun _ => hdue, nofun, fun _ => htimer, nofun, hstopped⟩
  | abandoned alone =>
    exact ⟨hclock, htimeline, fun _ => hdue, nofun, fun _ => htimer, nofun, hstopped⟩

/-- What the engine does not notice leaves alone what it waits for. -/
theorem Happens.still (h : Happens s drift x none y) :
    y.call = x.call ∧ y.timer = x.timer ∧ y.timeline = x.timeline := by
  cases h with
  | asks r may =>
    unfold submit
    split
    · exact ⟨rfl, rfl, rfl⟩
    · exact ⟨rfl, rfl, rfl⟩
  | _ => exact ⟨rfl, rfl, rfl⟩

/-! ## Timely runs -/

/-- **A happening keeps time**: time stands still, or the run waits, and time passes until what it
waits for is due at most. -/
def KeepsTime (x y : Simulation σ) : Prop :=
  y.clock = x.clock
    ∨ x.phase.takesTime = true ∧ ∀ instant, x.nextDue = some instant → y.clock ≤ instant

/-- Time passes until something is due at most. -/
theorem keepsTime_of_nextDue {due : Nat} (waits : x.phase.takesTime = true)
    (next : x.nextDue = some due) (le : y.clock ≤ due) : KeepsTime x y := by
  refine .inr ⟨waits, fun instant hinstant => ?_⟩
  rw [next] at hinstant
  cases hinstant
  exact le

/-- **A run during which everything comes when it is due**, from the state in which its start is
taken to some later one. -/
inductive Timely (s : Surroundings σ) (drift : σ → σ → Prop) (t : Ticket) (p : Program)
    (x : Simulation σ) : List Signal → Simulation σ → Prop where
  /-- The start is taken. -/
  | begins {rest : List Request} {y : Simulation σ} (idle : x.phase = .idle)
      (head : x.queue = .start t p :: rest) (took : take? s x = some y) :
      Timely s drift t p x [] y
  /-- Something happens in time while the run goes on. -/
  | goesOn {signals : List Signal} {signal : Option Signal} {y z : Simulation σ}
      (before : Timely s drift t p x signals y) (active : y.phase.isActive = true)
      (next : Happens s drift y signal z) (keeps : KeepsTime y z) :
      Timely s drift t p x (signals ++ signal.toList) z

variable {t : Ticket} {p : Program}

theorem Timely.runs (h : Timely s drift t p x signals z) : Runs s drift t p x signals z := by
  induction h with
  | begins idle head took => exact .begins idle head took
  | goesOn before active next keeps ih => exact ih.goesOn active next

/-! ## Time in the simulation -/

theorem clock_of_feed (h : feed s x signal = some y) : y.clock = x.clock := by
  obtain ⟨es, hf⟩ := fed_of_feed h
  exact (clocks_of_feed h hf.step).1

/-- **No turn of the simulation takes any time.** -/
theorem turn_clock (h : turn s x = some y) : y.clock = x.clock := by
  have lands : land? s x = some y → y.clock = x.clock := by
    intro h
    obtain ⟨c, way, due, fed⟩ := land?_eq_some_iff.mp h
    exact (clock_of_feed fed).trans rfl
  have rings : ring? s x = some y → y.clock = x.clock := by
    intro h
    obtain ⟨instant, timer, due, fed⟩ := ring?_eq_some_iff.mp h
    exact (clock_of_feed fed).trans rfl
  have takes : take? s x = some y → y.clock = x.clock := by
    intro h
    obtain ⟨r, rest, head, fed⟩ := take?_eq_some_iff.mp h
    exact (clock_of_feed fed).trans rfl
  have rests : rest? s x = some y → y.clock = x.clock := by
    intro h
    unfold rest? at h
    split at h
    · cases h
      rfl
    · exact clock_of_feed (Option.ite_none_right_eq_some.mp h).2
  unfold turn at h
  cases hp : x.phase with
  | idle =>
    simp only [hp, Option.orElse_eq_or, Option.or_eq_some_iff] at h
    exact h.elim takes fun h => rests h.2
  | drawing run lo hi =>
    simp only [hp] at h
    exact (clock_of_feed h).trans rfl
  | calling run output power =>
    simp only [hp, Option.orElse_eq_or, Option.or_eq_some_iff] at h
    exact h.elim lands fun h => h.2.elim takes fun h => rests h.2
  | waiting run n =>
    simp only [hp, Option.orElse_eq_or, Option.or_eq_some_iff] at h
    exact h.elim rings fun h => h.2.elim takes fun h => rests h.2
  | between run =>
    simp only [hp, Option.orElse_eq_or, Option.or_eq_some_iff] at h
    obtain h | ⟨-, h⟩ := h
    · exact takes h
    · split at h
      · exact clock_of_feed h
      · exact clock_of_feed h
  | landing caller =>
    simp only [hp, Option.orElse_eq_or, Option.or_eq_some_iff, Option.ite_none_right_eq_some,
      Option.some.injEq] at h
    obtain h | ⟨-, -, rfl⟩ := h
    · exact lands h
    · rfl
  | sweeping current rest sweep caller =>
    simp only [hp, Option.orElse_eq_or, Option.or_eq_some_iff, Option.ite_none_right_eq_some,
      Option.some.injEq] at h
    obtain h | ⟨-, -, rfl⟩ := h
    · exact lands h
    · rfl
  | ended =>
    simp only [hp] at h
    cases h

end Simulation

end Switchboard.Engine
