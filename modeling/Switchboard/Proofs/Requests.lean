import Mathlib.Data.List.Forall2
import Switchboard.Proofs.Course

/-!
# What becomes of a request

A request is handed in, waits in the queue or in the line in front of it, is
taken, and is answered. A start is answered in the very step in which it is
taken; a stop is answered when the sweep that it asks for is over, and until then
the engine owes an answer (`Phase.owed`) and takes nothing else. This module keeps
the books: `Transition.handles` says what one step of the machine does about
requests, `Happens.keeps` what a happening leaves in the queue, and `Dealings`
follows both over a whole course, with the requests that were handed in.

Whether a run is going on is told from what the engine did, and not from its
phase: a run begins where a start is answered by `started`, and ends with the
next terminal event (`isRunning`). That the phase always agrees
(`Booked.running`) is what ties the answer to a start to the history before it.
-/

namespace Switchboard.Engine

variable {σ : Type}

/-! ## Answers -/

/-- The answer that an effect gives, and to whom. -/
def Effect.reply? : Effect → Option (Ticket × Reply)
  | .answer ticket reply => some (ticket, reply)
  | _ => none

/-- **The answers that effects give**, in order. -/
def replies (es : List Effect) : List (Ticket × Reply) := es.filterMap Effect.reply?

@[simp] theorem replies_append (es fs : List Effect) :
    replies (es ++ fs) = replies es ++ replies fs :=
  List.filterMap_append

/-- The request that a signal brings. -/
def Signal.request? : Signal → Option Request
  | .request r => some r
  | _ => none

/-- **The requests that the engine took**, in order. -/
def taken (signals : List Signal) : List Request := signals.filterMap Signal.request?

theorem taken_append (first second : List Signal) :
    taken (first ++ second) = taken first ++ taken second :=
  List.filterMap_append

theorem taken_toList (signal : Option Signal) :
    taken signal.toList = (signal.bind Signal.request?).toList := by
  cases signal with
  | none => rfl
  | some signal => cases signal <;> rfl

/-- **Whom the engine owes an answer** in a phase. -/
def Phase.owed : Phase → Option Ticket
  | .landing caller => caller
  | .sweeping _ _ _ caller => caller
  | _ => none

/-- **Whether the engine is closing** because nobody holds on to it. -/
def Phase.isClosing : Phase → Bool
  | .landing caller => caller.isNone
  | .sweeping _ _ _ caller => caller.isNone
  | .ended => true
  | _ => false

/-- **The answer to a start**, given whether a program runs already. -/
def verdict : Bool → Program → Reply
  | true, _ => .alreadyRunning
  | false, p => if p.steps.isEmpty then .emptyProgram else .started

/-- **The answers that a request can get.** -/
inductive Request.Answered : Request → Ticket × Reply → Prop where
  /-- A start is answered according to whether a program runs. -/
  | start (t : Ticket) (p : Program) (running : Bool) :
      Answered (.start t p) (t, verdict running p)
  /-- A stop is answered by a report. -/
  | stop (t : Ticket) (report : Sweep) : Answered (.stop t) (t, .stopped report)

/-! ## Whether a program runs -/

/-- Whether a run is going on after an effect. -/
def Effect.running (running : Bool) : Effect → Bool
  | .answer _ .started => true
  | .event e => running && !e.isTerminal
  | _ => running

/-- **Whether a run is going on** after some effects: it began where a start was
answered by `started`, and no event has ended it. -/
def isRunning (es : List Effect) : Bool := es.foldl Effect.running false

/-- An effect begins a run only when none is going on, and ends one only when one is. -/
def Effect.Timely (running : Bool) : Effect → Prop
  | .answer _ .started => running = false
  | .event e => e.isTerminal = true → running = true
  | _ => True

/-- **Runs begin and end in turn**, from a state in which one is going on or not. -/
def Alternate (running : Bool) : List Effect → Prop
  | [] => True
  | e :: es => e.Timely running ∧ Alternate (Effect.running running e) es

theorem alternate_append (running : Bool) (es fs : List Effect) :
    Alternate running (es ++ fs)
      ↔ Alternate running es ∧ Alternate (es.foldl Effect.running running) fs := by
  induction es generalizing running with
  | nil => exact (iff_of_eq (true_and _)).symm
  | cons e es ih =>
    rw [List.cons_append, Alternate, Alternate, ih, and_assoc, List.foldl_cons]

/-- Where runs begin and end in turn, each effect is timely. -/
theorem Alternate.timely {running : Bool} {es before after : List Effect} {e : Effect}
    (h : Alternate running es) (split : es = before ++ e :: after) :
    e.Timely (before.foldl Effect.running running) := by
  rw [split, alternate_append] at h
  exact h.2.1

/-! ## What the steps of a run do about requests -/

/-- **What beginning to carry out a step does about requests**: nothing. The run goes
on, and if a length has to be drawn, the bounds are in order. -/
structure Carries (next : Phase) (effects : List Effect) : Prop where
  /-- The phase is one of the run. -/
  active : next.isActive = true
  /-- No run begins, and none ends. -/
  running : Alternate true effects ∧ effects.foldl Effect.running true = true
  /-- No request is answered. -/
  silent : replies effects = []
  /-- There is a length to draw. -/
  ordered : ∀ run lo hi, next = .drawing run lo hi → lo ≤ hi

theorem Run.carries_wait (run : Run) (n : Nat) : Carries (run.wait n).1 (run.wait n).2 := by
  unfold Run.wait
  split
  · exact ⟨rfl, ⟨trivial, rfl⟩, rfl, nofun⟩
  · exact ⟨rfl, ⟨⟨trivial, trivial, trivial⟩, rfl⟩, rfl, nofun⟩

theorem Run.carries_carryOut (run : Run) (d : Dispatch) :
    Carries (run.carryOut d).1 (run.carryOut d).2 := by
  cases d with
  | relay id output power => exact ⟨rfl, ⟨⟨trivial, trivial⟩, rfl⟩, rfl, nofun⟩
  | wait id span =>
    cases span with
    | fixed seconds => exact run.carries_wait _
    | random min max =>
      dsimp only [Run.carryOut]
      split
      · rename_i lt
        refine ⟨rfl, ⟨trivial, rfl⟩, rfl, fun run lo hi h => ?_⟩
        cases h
        exact Nat.le_of_lt lt
      · exact run.carries_wait _

/-- **What a run that goes on does about requests**: it gives the answers that it is
told to give, and it is complete or really goes on. -/
structure Proceeds (running : Bool) (told : List Effect) (next : Phase) (effects : List Effect) :
    Prop where
  /-- Nothing runs any more, or the phase is one of the run. -/
  phase : next = .idle ∨ next.isActive = true
  /-- Runs begin and end in turn. -/
  running : Alternate running effects ∧ effects.foldl Effect.running running = next.isActive
  /-- The answers are those that it is told to give. -/
  replies : replies effects = replies told
  /-- There is a length to draw. -/
  ordered : ∀ run lo hi, next = .drawing run lo hi → lo ≤ hi

theorem Run.proceeds (panel : Panel) (run : Run) {running : Bool} {told : List Effect}
    (alternate : Alternate running told) (begun : told.foldl Effect.running running = true) :
    Proceeds running told (run.proceed panel told).1 (run.proceed panel told).2 := by
  unfold Run.proceed
  split
  · refine ⟨.inl rfl, ⟨(alternate_append _ _ _).mpr ⟨alternate, ?_⟩, ?_⟩, ?_, nofun⟩
    · rw [begun]
      exact ⟨trivial, fun _ => rfl, trivial⟩
    · rw [List.foldl_append, begun]
      rfl
    · rw [replies_append]
      exact List.append_nil _
  · rename_i d cursor hr
    have hc := Run.carries_carryOut { run with cursor } d
    -- the announcement of a step neither begins nor ends a run
    have hsame : ∀ (status : Status) (words : String),
        [Effect.status status, .event (.stepAdvanced words)].foldl Effect.running running
          = running := fun _ _ => Bool.and_true _
    refine ⟨.inr hc.active, ⟨?_, ?_⟩, ?_, hc.ordered⟩
    · rw [alternate_append, alternate_append, List.foldl_append, hsame, begun]
      exact ⟨⟨⟨trivial, nofun, trivial⟩, alternate⟩, hc.running.1⟩
    · rw [List.foldl_append, List.foldl_append, hsame, begun, hc.running.2, hc.active]
    · rw [replies_append, replies_append, hc.silent, List.append_nil]
      rfl

/-- A phase of a run owes no answer, and is not one of closing. -/
theorem Phase.of_isActive {phase : Phase} (h : phase.isActive = true) :
    phase.owed = none ∧ phase.isClosing = false := by
  cases phase with
  | drawing run min max => exact ⟨rfl, rfl⟩
  | calling run output power => exact ⟨rfl, rfl⟩
  | waiting run n => exact ⟨rfl, rfl⟩
  | between run => exact ⟨rfl, rfl⟩
  | _ => cases h

theorem Proceeds.free {running : Bool} {told : List Effect} {next : Phase}
    {effects : List Effect} (h : Proceeds running told next effects) :
    next.owed = none ∧ next.isClosing = false := by
  rcases h.phase with rfl | active
  · exact ⟨rfl, rfl⟩
  · exact Phase.of_isActive active

/-! ## What a step does about requests -/

variable {panel : Panel} {phase next : Phase} {signal : Signal} {effects : List Effect}

/-- **A step begins and ends runs in turn**, and leads to a phase of a run exactly if
one is going on. -/
theorem Transition.alternate (ht : Transition panel phase signal next effects) :
    Alternate phase.isActive effects
      ∧ effects.foldl Effect.running phase.isActive = next.isActive := by
  cases ht with
  | declines none => exact ⟨⟨trivial, trivial⟩, rfl⟩
  | @starts t p next effects ne goes =>
    have hp := Run.proceeds panel ⟨p, .start p.steps⟩
      (show Alternate false [.answer t .started] from ⟨rfl, trivial⟩) rfl
    rw [goes] at hp
    exact hp.running
  | refuses listens => exact ⟨⟨trivial, trivial⟩, rfl⟩
  | @draws run min max n next effects ge le waits =>
    have hw := run.carries_wait n
    rw [waits] at hw
    exact ⟨hw.running.1, hw.running.2.trans hw.active.symm⟩
  | confirms => exact ⟨⟨trivial, trivial⟩, rfl⟩
  | fails => exact ⟨⟨trivial, fun _ => rfl, trivial⟩, rfl⟩
  | ticks pos => exact ⟨⟨trivial, nofun, trivial⟩, rfl⟩
  | rings le => exact ⟨⟨nofun, trivial⟩, rfl⟩
  | @proceeds run next effects goes =>
    have hp := Run.proceeds panel { run with cursor := run.cursor.advance }
      (show Alternate true [] from trivial) rfl
    rw [goes] at hp
    exact hp.running
  | cuts ends => exact ⟨⟨trivial, fun _ => rfl, trivial⟩, rfl⟩
  | haltsWaiting ends => exact ⟨⟨trivial, fun _ => rfl, trivial, trivial⟩, rfl⟩
  | haltsBetween ends => exact ⟨⟨trivial, fun _ => rfl, trivial, trivial⟩, rfl⟩
  | sweeps => exact ⟨⟨trivial, trivial⟩, rfl⟩
  | lands => exact ⟨⟨trivial, trivial⟩, rfl⟩
  | sweepsOn => exact ⟨⟨trivial, trivial⟩, rfl⟩
  | reports => exact ⟨⟨trivial, trivial⟩, rfl⟩
  | sweepsUp => exact ⟨trivial, rfl⟩
  | ends => exact ⟨trivial, rfl⟩

/-- **What a step does about requests**: it answers a start that it takes, takes a
stop, answers the stop it was busy with, or does nothing about any. An engine
closes only when it is abandoned. -/
inductive Handles (phase : Phase) : Signal → Phase → List Effect → Prop where
  /-- A start is taken and answered. -/
  | start {t : Ticket} {p : Program} {next : Phase} {effects : List Effect}
      (free : phase.owed = none) (next_free : next.owed = none ∧ next.isClosing = false)
      (answers : replies effects = [(t, verdict phase.isActive p)]) :
      Handles phase (.request (.start t p)) next effects
  /-- A stop is taken. -/
  | stop {t : Ticket} {next : Phase} {effects : List Effect} (free : phase.owed = none)
      (owes : next.owed = some t ∧ next.isClosing = false) (silent : replies effects = []) :
      Handles phase (.request (.stop t)) next effects
  /-- The stop that the engine was busy with is answered. -/
  | report {t : Ticket} {result : Except ActuatorFault Unit} {report : Sweep}
      (owed : phase.owed = some t) :
      Handles phase (.answered result) .idle [.answer t (.stopped report)]
  /-- No request is taken, and none is answered. -/
  | aside {signal : Signal} {next : Phase} {effects : List Effect}
      (untaken : signal.request? = none) (same : next.owed = phase.owed)
      (silent : replies effects = [])
      (closes : next.isClosing = true → signal = .abandoned ∨ phase.isClosing = true) :
      Handles phase signal next effects

/-- A phase that listens is one of a run. -/
theorem Phase.isActive_of_isListening (h : phase.isListening = true) : phase.isActive = true := by
  cases phase with
  | calling run output power => rfl
  | waiting run n => rfl
  | between run => rfl
  | _ => cases h

/-- A run that ends leaves it to the next phase to answer. -/
theorem Handles.of_halts {caller : Option Ticket} (ends : signal.Halts caller)
    (free : phase.owed = none) (owes : next.owed = caller)
    (closing : next.isClosing = caller.isNone) (silent : replies effects = []) :
    Handles phase signal next effects := by
  cases ends with
  | stop t => exact .stop free ⟨owes, closing⟩ silent
  | abandoned => exact .aside rfl (owes.trans free.symm) silent fun _ => .inl rfl

/-- **What each step does about requests.** -/
theorem Transition.handles (ht : Transition panel phase signal next effects) :
    Handles phase signal next effects := by
  cases ht with
  | @declines t p empty =>
    refine .start rfl ⟨rfl, rfl⟩ ?_
    show [(t, Reply.emptyProgram)] = [(t, if p.steps.isEmpty then .emptyProgram else .started)]
    rw [if_pos (List.isEmpty_iff.mpr empty)]
  | @starts t p next effects ne goes =>
    have hp := Run.proceeds panel ⟨p, .start p.steps⟩
      (show Alternate false [.answer t .started] from ⟨rfl, trivial⟩) rfl
    rw [goes] at hp
    refine .start rfl hp.free (hp.replies.trans ?_)
    show [(t, Reply.started)] = [(t, if p.steps.isEmpty then .emptyProgram else .started)]
    rw [if_neg (by rwa [List.isEmpty_iff])]
  | refuses listens =>
    have active := Phase.isActive_of_isListening listens
    refine .start (Phase.of_isActive active).1 (Phase.of_isActive active) ?_
    rw [active]
    rfl
  | @draws run min max n next effects ge le waits =>
    have hw := run.carries_wait n
    rw [waits] at hw
    have hf := Phase.of_isActive hw.active
    refine .aside rfl hf.1 hw.silent fun hc => ?_
    rw [hf.2] at hc
    cases hc
  | @proceeds run next effects goes =>
    have hp := Run.proceeds panel { run with cursor := run.cursor.advance }
      (show Alternate true [] from trivial) rfl
    rw [goes] at hp
    refine .aside rfl hp.free.1 hp.replies fun hc => ?_
    rw [hp.free.2] at hc
    cases hc
  | cuts ends => exact .of_halts ends rfl rfl rfl rfl
  | haltsWaiting ends => exact .of_halts ends rfl rfl rfl rfl
  | haltsBetween ends => exact .of_halts ends rfl rfl rfl rfl
  | sweeps => exact .stop rfl ⟨rfl, rfl⟩ rfl
  | reports => exact .report rfl
  | confirms => exact .aside rfl rfl rfl nofun
  | fails => exact .aside rfl rfl rfl nofun
  | ticks pos => exact .aside rfl rfl rfl nofun
  | rings le => exact .aside rfl rfl rfl nofun
  | lands => exact .aside rfl rfl rfl .inr
  | sweepsOn => exact .aside rfl rfl rfl .inr
  | sweepsUp => exact .aside rfl rfl rfl fun _ => .inr rfl
  | ends => exact .aside rfl rfl rfl fun _ => .inl rfl

/-- A length is drawn only between bounds that are in order. -/
theorem Transition.ordered (ht : Transition panel phase signal next effects)
    (h : ∀ run lo hi, phase = .drawing run lo hi → lo ≤ hi) :
    ∀ run lo hi, next = .drawing run lo hi → lo ≤ hi := by
  cases ht with
  | @starts t p next effects ne goes =>
    have hp := Run.proceeds panel ⟨p, .start p.steps⟩
      (show Alternate false [.answer t .started] from ⟨rfl, trivial⟩) rfl
    rw [goes] at hp
    exact hp.ordered
  | refuses listens => exact h
  | @draws run min max n next effects ge le waits =>
    have hw := run.carries_wait n
    rw [waits] at hw
    exact hw.ordered
  | @proceeds run next effects goes =>
    have hp := Run.proceeds panel { run with cursor := run.cursor.advance }
      (show Alternate true [] from trivial) rfl
    rw [goes] at hp
    exact hp.ordered
  | _ => exact nofun

namespace Simulation

/-! ## Waiting requests -/

/-- **The requests that the engine has yet to take**, oldest first. -/
def pending (x : Simulation σ) : List Request := x.queue ++ x.line

variable {s : Surroundings σ} {drift : σ → σ → Prop} {x y z : Simulation σ}
  {asked : List Request} {signals : List Signal}

/-- A request that is handed in is the last to be taken. -/
theorem pending_submit (x : Simulation σ) (r : Request) :
    (x.submit r).pending = x.pending ++ [r] := by
  unfold submit
  split
  · rename_i room
    have hline : x.line = [] := List.isEmpty_iff.mp room.1
    show x.queue ++ [r] ++ x.line = x.queue ++ x.line ++ [r]
    rw [hline, List.append_nil, List.append_nil]
  · exact (List.append_assoc _ _ _).symm

/-- Handing in a request leaves alone what the engine did, and that it is held. -/
theorem submit_same (x : Simulation σ) (r : Request) :
    (x.submit r).effects = x.effects ∧ (x.submit r).held = x.held := by
  unfold submit
  split
  · exact ⟨rfl, rfl⟩
  · exact ⟨rfl, rfl⟩

/-- Requests that move up keep their places. -/
theorem pending_pause (x : Simulation σ) : x.pause.pending = x.pending := by
  show x.queue ++ x.line.take _ ++ x.line.drop _ = x.queue ++ x.line
  rw [List.append_assoc, List.take_append_drop]

/-- After a pause, the queue is empty only if nobody is waiting. -/
theorem queue_pause_ne_nil (h : x.pending ≠ []) : x.pause.queue ≠ [] := by
  intro hq
  obtain ⟨hqueue, htake⟩ := List.append_eq_nil_iff.mp
    (show x.queue ++ x.line.take (queueLength - x.queue.length) = [] from hq)
  rw [hqueue] at htake
  have hline : x.line = [] := by
    rcases List.take_eq_nil_iff.mp htake with hzero | hnil
    · exact absurd hzero (by decide)
    · exact hnil
  exact h (by rw [pending, hqueue, hline]; rfl)

/-- An engine that answers nobody leaves nobody lingering. -/
theorem lingering_foldl_perform {es : List Effect} (silent : replies es = [])
    (h : x.lingering = false) : (es.foldl (perform s) x).lingering = false := by
  induction es generalizing x with
  | nil => exact h
  | cons e es ih =>
    cases e with
    | answer ticket reply => cases silent
    | _ => exact ih silent h

/-- Whatever completes a step makes the engine pause, unless it is a request. -/
theorem pausesAt_of_completed {before : Phase} {signal : Signal} {run : Run}
    (untaken : signal.request? = none) : pausesAt before signal (.between run) = true := by
  unfold pausesAt
  cases before <;> cases signal <;> first | rfl | cases untaken

/-- **What a happening that the engine notices leaves of the requests.** -/
structure Keeps (x : Simulation σ) (signal : Signal) (y : Simulation σ) : Prop where
  /-- At most one request is taken, and it is the oldest. -/
  pending : x.pending = signal.request?.toList ++ y.pending
  /-- Whether the engine is held is left alone. -/
  held : y.held = x.held
  /-- Nobody lingers who has not been answered. -/
  lingering : x.lingering = false → replies y.effects = replies x.effects → y.lingering = false
  /-- When a step is complete, those who wait have moved up. -/
  paused : signal.request? = none → ∀ run, y.phase = .between run → y.pending ≠ [] →
    y.queue ≠ []

theorem keeps_of_feed {signal : Signal} (h : feed s x signal = some y) :
    y.pending = x.pending ∧ y.held = x.held
      ∧ (x.lingering = false → replies y.effects = replies x.effects → y.lingering = false)
      ∧ (signal.request? = none → ∀ run, y.phase = .between run → y.pending ≠ [] →
        y.queue ≠ []) := by
  unfold feed at h
  cases hs : step s.panel x.phase signal with
  | none => simp [hs] at h
  | some next =>
    obtain ⟨phase, es⟩ := next
    have hp := performed s { x with phase } es
    have hl : replies es = [] → x.lingering = false →
        (es.foldl (perform s) { x with phase }).lingering = false :=
      fun silent hx => lingering_foldl_perform silent
        (show Simulation.lingering { x with phase } = false from hx)
    simp only [hs, Option.some.injEq] at h
    generalize es.foldl (perform s) { x with phase } = z at h hp hl
    have hsilent : replies z.effects = replies x.effects → replies es = [] := by
      intro he
      rw [hp.effects, replies_append] at he
      exact List.self_eq_append_right.mp he.symm
    have hpending : z.pending = x.pending := by
      rw [pending, hp.queue, hp.line]
      rfl
    split at h
    · subst h
      exact ⟨(pending_pause _).trans hpending, hp.held, fun _ _ => rfl,
        fun _ _ _ hne => queue_pause_ne_nil fun hz => hne ((pending_pause _).trans hz)⟩
    · rename_i hpauses
      subst h
      refine ⟨hpending, hp.held, fun hx he => hl (hsilent he) hx, fun hr run hrun => ?_⟩
      obtain rfl : phase = .between run := by rw [← hrun, hp.phase]
      exact absurd (pausesAt_of_completed hr) hpauses

/-- A signal takes at most the oldest request, and leaves alone who waits in line and who holds
on to the engine. -/
theorem Offers.requests {signal : Signal} {v : Simulation σ} (h : Offers s x signal v) :
    x.pending = signal.request?.toList ++ v.pending ∧ v.line = x.line ∧ v.held = x.held
      ∧ v.lingering = x.lingering ∧ v.effects = x.effects := by
  cases h with
  | request head =>
    refine ⟨?_, rfl, rfl, rfl, rfl⟩
    rw [pending, head]
    rfl
  | _ => exact ⟨rfl, rfl, rfl, rfl, rfl⟩

theorem Happens.keeps {signal : Signal} (h : Happens s drift x (some signal) y) :
    Keeps x signal y := by
  obtain ⟨v, offers, fed⟩ := h.fed
  obtain ⟨hpending, -, hheld, hlingering, heffects⟩ := offers.requests
  obtain ⟨pending, held, lingering, paused⟩ := keeps_of_feed fed
  rw [hlingering, heffects] at lingering
  exact ⟨by rw [hpending, pending], held.trans hheld, lingering, paused⟩

/-- **A happening that the engine does not notice** hands in a request, or leaves the
requests and those who could hand one in as they are. -/
theorem Happens.asks_or_idles (h : Happens s drift x none y) :
    (∃ r, (x.held = true ∨ x.lingering = true) ∧ y = x.submit r)
      ∨ y.pending = x.pending ∧ (y.held = true → x.held = true)
        ∧ (y.lingering = true → x.lingering = true) := by
  cases h with
  | pauses => exact .inr ⟨pending_pause x, id, nofun⟩
  | asks r may => exact .inl ⟨r, may, rfl⟩
  | letsGo => exact .inr ⟨rfl, nofun, id⟩
  | passes instant le => exact .inr ⟨rfl, id, id⟩
  | drifts world may => exact .inr ⟨rfl, id, id⟩

/-! ## Sound states -/

/-- **What holds of every state that a course can reach.** -/
structure Sound (x : Simulation σ) : Prop where
  /-- The command on its way is the one that the phase awaits. -/
  awaits : x.phase.Awaits x.onWay
  /-- A length that is to be drawn has its bounds in order. -/
  ordered : ∀ run lo hi, x.phase = .drawing run lo hi → lo ≤ hi
  /-- Nobody is left to ask an engine that closes, and no request waits. -/
  alone : x.phase.isClosing = true → x.held = false ∧ x.lingering = false ∧ x.pending = []

theorem sound_start (world : σ) : Sound { world } := ⟨rfl, nofun, nofun⟩

/-- Nobody holds on to an abandoned engine. -/
theorem of_isAbandoned (h : x.isAbandoned = true) :
    x.held = false ∧ x.lingering = false ∧ x.pending = [] := by
  obtain ⟨⟨hheld, hpending⟩, hlingering⟩ :
      (x.held = false ∧ x.queue = [] ∧ x.line = []) ∧ x.lingering = false := by
    simpa [isAbandoned, isPending] using h
  exact ⟨hheld, hlingering, List.append_eq_nil_iff.mpr hpending⟩

theorem Sound.happens {signal : Option Signal} (h : Sound x)
    (next : Happens s drift x signal y) : Sound y := by
  cases signal with
  | none =>
    have hn := next.unnoticed
    refine ⟨?_, ?_, fun hc => ?_⟩
    · rw [hn.phase, onWay, hn.call]
      exact h.awaits
    · rw [hn.phase]
      exact h.ordered
    · rw [hn.phase] at hc
      obtain ⟨hheld, hlingering, hpending⟩ := h.alone hc
      rcases next.asks_or_idles with ⟨r, may, -⟩ | ⟨hp, hh, hl⟩
      · rw [hheld, hlingering] at may
        rcases may with hf | hf <;> cases hf
      · exact ⟨Bool.eq_false_iff.mpr fun ht => Bool.eq_false_iff.mp hheld (hh ht),
          Bool.eq_false_iff.mpr fun ht => Bool.eq_false_iff.mp hlingering (hl ht),
          hp.trans hpending⟩
  | some signal =>
    obtain ⟨effects, hn⟩ := next.noticed
    have hk := next.keeps
    refine ⟨?_, hn.step.ordered h.ordered, fun hc => ?_⟩
    · rw [hn.onWay]
      exact h.awaits.step hn.step
    · -- an engine that closes was abandoned just now, or was closing before
      have key : ∀ {phase}, y.phase = phase → Handles x.phase signal phase effects →
          (signal = .abandoned ∨ x.phase.isClosing = true) ∧ replies effects = [] := by
        intro phase hphase hh
        rw [hphase] at hc
        cases hh with
        | start free next_free answers => rw [next_free.2] at hc; cases hc
        | stop free owes silent => rw [owes.2] at hc; cases hc
        | report owed => cases hc
        | aside untaken same silent closes => exact ⟨closes hc, silent⟩
      obtain ⟨hcloses, hsilent⟩ := key rfl hn.step.handles
      have halone : x.held = false ∧ x.lingering = false ∧ x.pending = [] := by
        rcases hcloses with rfl | hx
        · cases next with
          | abandons alone fed => exact of_isAbandoned alone
        · exact h.alone hx
      obtain ⟨hheld, hlingering, hpending⟩ := halone
      refine ⟨hk.held.trans hheld, hk.lingering hlingering ?_, ?_⟩
      · rw [hn.effects, replies_append, hsilent, List.append_nil]
      · have hp := hk.pending
        rw [hpending] at hp
        exact (List.append_eq_nil_iff.mp hp.symm).2

theorem Course.sound (h : Course s drift x signals y) (hx : Sound x) : Sound y := by
  induction h with
  | refl => exact hx
  | snoc before next ih => exact ih.happens next

/-! ## The books -/

/-- **A course with the requests that were handed in**, oldest first. -/
inductive Dealings (s : Surroundings σ) (drift : σ → σ → Prop) (x : Simulation σ) :
    List Request → List Signal → Simulation σ → Prop where
  /-- Nothing has happened. -/
  | refl : Dealings s drift x [] [] x
  /-- Someone who holds on to the engine hands in a request. -/
  | asks {asked : List Request} {signals : List Signal} {y : Simulation σ}
      (before : Dealings s drift x asked signals y) (r : Request)
      (may : y.held = true ∨ y.lingering = true) :
      Dealings s drift x (asked ++ [r]) signals (y.submit r)
  /-- Something else happens. -/
  | befalls {asked : List Request} {signals : List Signal} {signal : Option Signal}
      {y z : Simulation σ} (before : Dealings s drift x asked signals y)
      (next : Happens s drift y signal z) (unasked : signal = none → z.pending = y.pending) :
      Dealings s drift x asked (signals ++ signal.toList) z

theorem Dealings.course (h : Dealings s drift x asked signals y) : Course s drift x signals y := by
  induction h with
  | refl => exact .refl
  | @asks asked signals y before r may ih =>
    have hc := ih.snoc (.asks r may)
    rwa [Option.toList_none, List.append_nil] at hc
  | befalls before next unasked ih => exact ih.snoc next

/-- Whatever happens next can be entered in the books. -/
theorem Dealings.snoc {signal : Option Signal} (h : Dealings s drift x asked signals y)
    (next : Happens s drift y signal z) :
    ∃ asked', asked <+: asked' ∧ Dealings s drift x asked' (signals ++ signal.toList) z := by
  cases signal with
  | none =>
    rcases next.asks_or_idles with ⟨r, may, rfl⟩ | ⟨hp, -⟩
    · refine ⟨asked ++ [r], List.prefix_append _ _, ?_⟩
      rw [Option.toList_none, List.append_nil]
      exact h.asks r may
    · exact ⟨asked, List.prefix_refl _, h.befalls next fun _ => hp⟩
  | some signal => exact ⟨asked, List.prefix_refl _, h.befalls next nofun⟩

/-- **Every course has its books.** -/
theorem Course.dealings (h : Course s drift x signals y) :
    ∃ asked, Dealings s drift x asked signals y := by
  induction h with
  | refl => exact ⟨[], .refl⟩
  | snoc before next ih =>
    obtain ⟨asked, hd⟩ := ih
    obtain ⟨asked', -, hd'⟩ := hd.snoc next
    exact ⟨asked', hd'⟩

/-- **What the books say**: which requests were taken and which of them answered, and
whether a run is going on. -/
structure Booked (asked : List Request) (signals : List Signal) (z : Simulation σ) : Prop where
  /-- Requests are taken in the order in which they were handed in. -/
  accepted : asked = taken signals ++ z.pending
  /-- They are answered in that order too, the one excepted whose answer is owed. -/
  answered : ∃ served, taken signals = served ++ (z.phase.owed.map Request.stop).toList
    ∧ List.Forall₂ Request.Answered served (replies z.effects)
  /-- Runs begin and end in turn. -/
  alternate : Alternate false z.effects
  /-- The phase is one of a run exactly if one is going on. -/
  running : isRunning z.effects = z.phase.isActive

theorem booked_start (world : σ) : Booked [] [] { world } :=
  ⟨rfl, ⟨[], rfl, .nil⟩, trivial, rfl⟩

/-- **The engine notices something**, and the books are kept. -/
theorem Booked.noticed {signal : Signal} {effects : List Effect} (h : Booked asked signals y)
    (hn : Noticed s y signal effects z) (hk : Keeps y signal z) :
    Booked asked (signals ++ [signal]) z := by
  obtain ⟨served, htaken, hserved⟩ := h.answered
  have hnew : taken (signals ++ [signal]) = taken signals ++ signal.request?.toList := by
    rw [taken_append]
    exact congrArg _ (taken_toList (some signal))
  have hrun := hn.step.alternate
  refine ⟨?_, ?_, ?_, ?_⟩
  · rw [h.accepted, hk.pending, hnew, List.append_assoc]
  · rw [hnew, hn.effects, replies_append]
    have hh := hn.step.handles
    generalize z.phase = next at hh ⊢
    cases hh with
    | @start t p _ effects free next_free answers =>
      rw [free] at htaken
      refine ⟨served ++ [.start t p], ?_, List.rel_append hserved ?_⟩
      · rw [htaken, next_free.1]
        show served ++ [] ++ [Request.start t p] = served ++ [.start t p] ++ []
        rw [List.append_nil, List.append_nil]
      · rw [answers]
        exact .cons (.start t p _) .nil
    | @stop t _ effects free owes silent =>
      rw [free] at htaken
      refine ⟨served, ?_, ?_⟩
      · rw [htaken, owes.1]
        exact congrArg (· ++ [Request.stop t]) (List.append_nil served)
      · rw [silent, List.append_nil]
        exact hserved
    | @report t result report owed =>
      rw [owed] at htaken
      refine ⟨served ++ [.stop t], ?_, List.rel_append hserved (.cons (.stop t report) .nil)⟩
      rw [htaken]
      rfl
    | aside untaken same silent closes =>
      refine ⟨served, ?_, ?_⟩
      · rw [htaken, untaken, same]
        exact List.append_nil _
      · rw [silent, List.append_nil]
        exact hserved
  · rw [hn.effects, alternate_append]
    refine ⟨h.alternate, ?_⟩
    rw [show y.effects.foldl Effect.running false = y.phase.isActive from h.running]
    exact hrun.1
  · rw [isRunning, hn.effects, List.foldl_append,
      show y.effects.foldl Effect.running false = y.phase.isActive from h.running]
    exact hrun.2

/-- What the engine does not notice concerns the books only where it hands in a
request. -/
theorem Booked.unnoticed {asked' : List Request} (h : Booked asked signals y)
    (hn : Unnoticed y z) (accepted : asked' = taken signals ++ z.pending) :
    Booked asked' signals z := by
  refine ⟨accepted, ?_, ?_, ?_⟩
  · rw [hn.phase, hn.effects]
    exact h.answered
  · rw [hn.effects]
    exact h.alternate
  · rw [hn.effects, hn.phase]
    exact h.running

/-- **The books are kept** throughout every course. -/
theorem Dealings.booked (h : Dealings s drift x asked signals z) (hx : Booked [] [] x) :
    Booked asked signals z := by
  induction h with
  | refl => exact hx
  | @asks asked signals y before r may ih =>
    refine ih.unnoticed (Happens.asks r may : Happens s drift y none _).unnoticed ?_
    rw [pending_submit, ih.accepted, List.append_assoc]
  | @befalls asked signals signal y z before next unasked ih =>
    cases signal with
    | none =>
      rw [Option.toList_none, List.append_nil]
      refine ih.unnoticed next.unnoticed ?_
      rw [unasked rfl]
      exact ih.accepted
    | some signal =>
      obtain ⟨effects, hn⟩ := next.noticed
      exact ih.noticed hn next.keeps

/-! ## Who is answered -/

/-- **What the engine did on the way** from one state to the next, with one answer at most. -/
theorem Happens.exists_effects {signal : Option Signal} (h : Happens s drift x signal y) :
    ∃ es, y.effects = x.effects ++ es ∧ (replies es).length ≤ 1 := by
  cases signal with
  | none => exact ⟨[], h.unnoticed.effects.trans (List.append_nil _).symm, Nat.zero_le 1⟩
  | some signal =>
    obtain ⟨effects, hn⟩ := h.noticed
    refine ⟨effects, hn.effects, ?_⟩
    have hh := hn.step.handles
    generalize y.phase = next at hh
    cases hh with
    | start free next_free answers =>
      rw [answers]
      exact Nat.le_refl 1
    | stop free owes silent =>
      rw [silent]
      exact Nat.zero_le 1
    | report owed => exact Nat.le_refl 1
    | aside untaken same silent closes =>
      rw [silent]
      exact Nat.zero_le 1

/-- What is related to a list, item by item, has something related to each item. -/
theorem exists_of_mem_left {α β : Type} {R : α → β → Prop} {as : List α} {bs : List β} {a : α}
    (h : List.Forall₂ R as bs) (ha : a ∈ as) : ∃ b ∈ bs, R a b := by
  induction h with
  | nil => exact absurd ha List.not_mem_nil
  | @cons a' b as bs first rest ih =>
    rcases List.mem_cons.mp ha with rfl | ha
    · exact ⟨b, List.mem_cons_self, first⟩
    · obtain ⟨b', hb', hr⟩ := ih ha
      exact ⟨b', List.mem_cons_of_mem _ hb', hr⟩

/-- An answer goes to whoever asked. -/
theorem ticket_of_answered {r : Request} {a : Ticket × Reply} (h : r.Answered a) :
    r.ticket = a.1 := by
  cases h with
  | start t p running => rfl
  | stop t report => rfl

/-- **Every answer is one to a request** that was taken, and is not pending any more. -/
theorem Booked.exists_request (h : Booked asked signals z) {a : Ticket × Reply}
    (ha : a ∈ replies z.effects) :
    ∃ r before, r.Answered a ∧ r ∈ before ∧ asked = before ++ z.pending := by
  obtain ⟨served, htaken, hserved⟩ := h.answered
  obtain ⟨r, hr, hanswered⟩ := exists_of_mem_left (List.Forall₂.flip (R := flip _) hserved) ha
  exact ⟨r, taken signals, hanswered, htaken ▸ List.mem_append_left _ hr, h.accepted⟩

/-- **The first requests are answered** once there are as many answers. -/
theorem Booked.exists_answer {first : List Request} {r : Request} (h : Booked asked signals z)
    (behind : first <+: asked) (given : first.length ≤ (replies z.effects).length)
    (hr : r ∈ first) : ∃ a ∈ replies z.effects, r.Answered a := by
  obtain ⟨served, htaken, hserved⟩ := h.answered
  have hprefix : served <+: asked := by
    rw [h.accepted, htaken, List.append_assoc]
    exact List.prefix_append _ _
  rw [← hserved.length_eq] at given
  have hfirst := List.prefix_of_prefix_length_le behind hprefix given
  exact exists_of_mem_left hserved (hfirst.subset hr)

end Simulation

end Switchboard.Engine
