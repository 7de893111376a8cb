import Switchboard.Engine.Simulation
import Switchboard.Proofs.Transition

/-!
# What can happen to an engine

`Simulation.turn` picks, of everything that can happen at an instant, what
happens next; it looks at the command on its way before the clock of a wait and
at both before the queue. Nothing promises that order. An engine that waits for
several things at once takes whichever it notices first, and time, callers and
the controller keep to no schedule.

`Happens` therefore allows everything that is possible, in any order: the
command on its way takes effect as late as it likes, requests are handed in and
handles dropped at any instant, and the surroundings change by themselves as far
as a relation `drift` lets them. A `Course` is a succession of such happenings,
with the signals that the engine took notice of. What is proved of every course
holds of the order that the simulation picks, since each of its turns is a
happening (`Simulation.turn_happens`).

`Happens.fed` is all that is needed to know of a happening that the engine takes
notice of: the machine makes a step, and the effects of that step are added to
the trace, set the status and put a command on its way. Of any other happening
the engine notices nothing (`Happens.unnoticed`).
-/

namespace Switchboard.Engine

variable {σ : Type}

/-! ## Reading effects -/

/-- The event that an effect publishes. -/
def Effect.event? : Effect → Option Event
  | .event e => some e
  | _ => none

/-- The events that effects publish, in order. -/
def events (es : List Effect) : List Event := es.filterMap Effect.event?

@[simp] theorem events_append (es fs : List Effect) : events (es ++ fs) = events es ++ events fs :=
  List.filterMap_append

/-- The status that is shown after an effect. -/
def Status.after (shown : Status) : Effect → Status
  | .status s => s
  | _ => shown

/-- What a command on its way is for. -/
def Call.command (c : Call) : Relay × Power := (c.output, c.power)

/-- The command that is on its way after an effect. -/
def Effect.onWay (way : Option (Relay × Power)) : Effect → Option (Relay × Power)
  | .command output power => some (output, power)
  | _ => way

/-- The command on its way when the engine notices a signal: none once the
controller has answered it. -/
def Signal.leaves (signal : Signal) (way : Option (Relay × Power)) :
    Option (Relay × Power) :=
  match signal with
  | .answered _ => none
  | _ => way

/-- The requests left in the queue when the engine notices a signal: all but the
one it takes. -/
def Signal.queued (signal : Signal) (queue : List Request) : List Request :=
  match signal with
  | .request _ => queue.tail
  | _ => queue

namespace Simulation

/-- **What the engine did**, oldest first. -/
def effects (x : Simulation σ) : List Effect := (x.trace.map Prod.snd).reverse

/-- **What the engine published**, oldest first. -/
def published (x : Simulation σ) : List Event := events x.effects

/-- What the command on its way is for. -/
def onWay (x : Simulation σ) : Option (Relay × Power) := x.call.map Call.command

/-! ## Feeding a signal -/

/-- What the surroundings make of an effect. -/
def worldAfter (s : Surroundings σ) (clock : Nat) (world : σ) : Effect → σ
  | .record output power => s.record clock output power world
  | _ => world

/-- **What carrying out effects does.** -/
structure Performed (s : Surroundings σ) (x : Simulation σ) (es : List Effect)
    (y : Simulation σ) : Prop where
  /-- The phase is left alone. -/
  phase : y.phase = x.phase
  /-- So is the queue. -/
  queue : y.queue = x.queue
  /-- So is the line. -/
  line : y.line = x.line
  /-- So is whether the engine is held. -/
  held : y.held = x.held
  /-- The effects are noted. -/
  effects : y.effects = x.effects ++ es
  /-- The status is the last that an effect shows. -/
  status : y.status = es.foldl Status.after x.status
  /-- The command on its way is the last that an effect sends. -/
  onWay : y.onWay = es.foldl Effect.onWay x.onWay
  /-- The surroundings note what was switched. -/
  world : y.world = es.foldl (worldAfter s x.clock) x.world

theorem performed (s : Surroundings σ) (x : Simulation σ) (es : List Effect) :
    Performed s x es (es.foldl (perform s) x) := by
  induction es generalizing x with
  | nil => exact ⟨rfl, rfl, rfl, rfl, (List.append_nil _).symm, rfl, rfl, rfl⟩
  | cons e es ih =>
    have h := ih (perform s x e)
    have hclock : (perform s x e).clock = x.clock := by cases e <;> rfl
    have heffects : (perform s x e).effects = x.effects ++ [e] := by
      cases e <;> simp [perform, effects]
    rw [List.foldl_cons]
    refine ⟨h.phase.trans ?_, h.queue.trans ?_, h.line.trans ?_, h.held.trans ?_, ?_,
      h.status.trans ?_, h.onWay.trans ?_, h.world.trans ?_⟩
    · cases e <;> rfl
    · cases e <;> rfl
    · cases e <;> rfl
    · cases e <;> rfl
    · rw [h.effects, heffects, List.append_assoc, List.singleton_append]
    · cases e <;> rfl
    · cases e <;> rfl
    · rw [hclock]
      cases e <;> rfl

/-- The clock stands still unless the engine waits. -/
theorem timer_of_not_waiting (phase : Phase) (timer : Option Nat) :
    (∀ run n, phase ≠ .waiting run n) →
      (if phase matches .waiting .. then timer else none) = none := by
  intro other
  cases phase with
  | waiting run n => exact absurd rfl (other run n)
  | _ => rfl

/-- A clock that stands still unless the engine waits is left as it is. -/
theorem timer_of_stopped (phase : Phase) (timer : Option Nat) :
    ((∀ run n, phase ≠ .waiting run n) → timer = none) →
      (if phase matches .waiting .. then timer else none) = timer := by
  intro stopped
  cases phase with
  | waiting run n => rfl
  | _ => exact (stopped nofun).symm

/-- **What feeding a signal does**: the machine makes a step, whose effects are
carried out. Requests may move up behind those in the queue. -/
structure Fed (s : Surroundings σ) (x : Simulation σ) (signal : Signal) (es : List Effect)
    (y : Simulation σ) : Prop where
  /-- The step of the machine. -/
  step : Engine.step s.panel x.phase signal = some (y.phase, es)
  /-- The effects are noted. -/
  effects : y.effects = x.effects ++ es
  /-- The status is the last that an effect shows. -/
  status : y.status = es.foldl Status.after x.status
  /-- The command on its way is the last that an effect sends. -/
  onWay : y.onWay = es.foldl Effect.onWay x.onWay
  /-- The surroundings note what was switched. -/
  world : y.world = es.foldl (worldAfter s x.clock) x.world
  /-- No request is lost from the queue. -/
  queue : x.queue <+: y.queue

theorem fed_of_feed {s : Surroundings σ} {x y : Simulation σ} {signal : Signal}
    (h : feed s x signal = some y) : ∃ es, Fed s x signal es y := by
  unfold feed at h
  cases hs : step s.panel x.phase signal with
  | none => simp [hs] at h
  | some next =>
    obtain ⟨phase, es⟩ := next
    have hp := performed s { x with phase } es
    simp only [hs, Option.some.injEq] at h
    generalize es.foldl (perform s) { x with phase } = z at h hp
    have hphase : some (phase, es) = some (z.phase, es) := by rw [hp.phase]
    have hqueue : x.queue <+: z.queue := ⟨[], (List.append_nil _).trans hp.queue.symm⟩
    -- a pause and the clock of a wait touch nothing that is spoken of here
    split at h
    · subst h
      exact ⟨es, hs.trans hphase, hp.effects, hp.status, hp.onWay, hp.world,
        hqueue.trans (List.prefix_append _ _)⟩
    · subst h
      exact ⟨es, hs.trans hphase, hp.effects, hp.status, hp.onWay, hp.world, hqueue⟩

/-! ## Happenings -/

/-- **Something that can happen** to an engine in its surroundings, with the
signal that the engine takes notice of, if it is one that the engine notices.
The surroundings may change by themselves as `drift` says. -/
inductive Happens (s : Surroundings σ) (drift : σ → σ → Prop) (x : Simulation σ) :
    Option Signal → Simulation σ → Prop where
  /-- The command on its way takes effect and is answered. -/
  | lands {c : Call} {y : Simulation σ} (way : x.call = some c) (fed : land? s x = some y) :
      Happens s drift x
        (some (.answered (s.switch c.number c.output c.power x.world).1)) y
  /-- A second of a wait is over. -/
  | rings {y : Simulation σ} (fed : ring? s x = some y) : Happens s drift x (some .tick) y
  /-- The length of a random wait is drawn. -/
  | draws {run : Run} {lo hi : Nat} {y : Simulation σ} (phase : x.phase = .drawing run lo hi)
      (fed : feed s { x with world := (s.draw lo hi x.world).2 }
        (.drawn (s.draw lo hi x.world).1) = some y) :
      Happens s drift x (some (.drawn (s.draw lo hi x.world).1)) y
  /-- The engine takes the oldest request in the queue. -/
  | takes {r : Request} {rest : List Request} {y : Simulation σ} (head : x.queue = r :: rest)
      (fed : take? s x = some y) : Happens s drift x (some (.request r)) y
  /-- The engine finds the queue empty between two steps. -/
  | goesOn {y : Simulation σ} (empty : x.queue = []) (held : x.isAbandoned = false)
      (fed : feed s x .quiet = some y) : Happens s drift x (some .quiet) y
  /-- The engine finds that nobody holds on to it any more. -/
  | abandons {y : Simulation σ} (alone : x.isAbandoned = true)
      (fed : feed s x .abandoned = some y) : Happens s drift x (some .abandoned) y
  /-- The engine pauses. -/
  | pauses : Happens s drift x none x.pause
  /-- Someone who holds on to the engine hands in a request. -/
  | asks (r : Request) (may : x.held = true ∨ x.lingering = true) :
      Happens s drift x none (x.submit r)
  /-- The last one who holds on to the engine without a request lets go. -/
  | letsGo : Happens s drift x none x.release
  /-- Time passes. -/
  | passes (instant : Nat) (le : x.clock ≤ instant) :
      Happens s drift x none { x with clock := instant }
  /-- The surroundings change by themselves. -/
  | drifts (world : σ) (may : drift x.world world) : Happens s drift x none { x with world }

variable {s : Surroundings σ} {drift : σ → σ → Prop} {x y z : Simulation σ}

/-- **What a happening does that the engine notices.** -/
structure Noticed (s : Surroundings σ) (x : Simulation σ) (signal : Signal) (es : List Effect)
    (y : Simulation σ) : Prop where
  /-- The machine follows one of its rules. -/
  step : Transition s.panel x.phase signal y.phase es
  /-- The effects are noted. -/
  effects : y.effects = x.effects ++ es
  /-- The status is the last that an effect shows. -/
  status : y.status = es.foldl Status.after x.status
  /-- The command on its way is the last that an effect sends. -/
  onWay : y.onWay = es.foldl Effect.onWay (signal.leaves x.onWay)
  /-- No request is lost from the queue but the one that is taken. -/
  queue : signal.queued x.queue <+: y.queue

/-- **What a happening leaves alone that the engine does not notice.** -/
structure Unnoticed (x y : Simulation σ) : Prop where
  /-- The phase. -/
  phase : y.phase = x.phase
  /-- What the engine did. -/
  effects : y.effects = x.effects
  /-- The status. -/
  status : y.status = x.status
  /-- The command on its way. -/
  call : y.call = x.call
  /-- The requests in the queue, behind which others may be put. -/
  queue : x.queue <+: y.queue

/-- **What the engine is given a signal in**: the state before, less whatever the signal
stands for. -/
inductive Offers (s : Surroundings σ) (x : Simulation σ) : Signal → Simulation σ → Prop where
  /-- The command on its way has taken effect. -/
  | answered {c : Call} (way : x.call = some c) (due : c.due ≤ x.clock) :
      Offers s x (.answered (s.switch c.number c.output c.power x.world).1)
        { x with world := (s.switch c.number c.output c.power x.world).2, call := none }
  /-- The clock of a wait goes on to its next second. -/
  | tick {instant : Nat} (timer : x.timer = some instant) (due : instant ≤ x.clock) :
      Offers s x .tick { x with timer := some (instant + s.tickPeriod) }
  /-- The dice are rolled. -/
  | drawn {run : Run} {lo hi : Nat} (phase : x.phase = .drawing run lo hi) :
      Offers s x (.drawn (s.draw lo hi x.world).1) { x with world := (s.draw lo hi x.world).2 }
  /-- The oldest request leaves the queue. -/
  | request {r : Request} {rest : List Request} (head : x.queue = r :: rest) :
      Offers s x (.request r) { x with queue := rest }
  /-- The queue is empty, but somebody is there. -/
  | quiet (empty : x.queue = []) (held : x.isAbandoned = false) : Offers s x .quiet x
  /-- Nobody is there. -/
  | abandoned (alone : x.isAbandoned = true) : Offers s x .abandoned x

/-- The command on its way takes effect once it is due. -/
theorem land?_eq_some_iff :
    land? s x = some y ↔ ∃ c, x.call = some c ∧ c.due ≤ x.clock
      ∧ feed s { x with world := (s.switch c.number c.output c.power x.world).2, call := none }
        (.answered (s.switch c.number c.output c.power x.world).1) = some y := by
  unfold land?
  constructor
  · intro h
    split at h
    · rename_i c way
      obtain ⟨due, fed⟩ := Option.ite_none_right_eq_some.mp h
      exact ⟨c, way, due, fed⟩
    · cases h
  · rintro ⟨c, way, due, fed⟩
    simp only [way, if_pos due]
    exact fed

/-- A second of a wait is over once it is due. -/
theorem ring?_eq_some_iff :
    ring? s x = some y ↔ ∃ instant, x.timer = some instant ∧ instant ≤ x.clock
      ∧ feed s { x with timer := some (instant + s.tickPeriod) } .tick = some y := by
  unfold ring?
  constructor
  · intro h
    split at h
    · rename_i instant timer
      obtain ⟨due, fed⟩ := Option.ite_none_right_eq_some.mp h
      exact ⟨instant, timer, due, fed⟩
    · cases h
  · rintro ⟨instant, timer, due, fed⟩
    simp only [timer, if_pos due]
    exact fed

/-- The oldest request is taken if there is one. -/
theorem take?_eq_some_iff :
    take? s x = some y ↔ ∃ r rest, x.queue = r :: rest
      ∧ feed s { x with queue := rest } (.request r) = some y := by
  unfold take?
  constructor
  · intro h
    split at h
    · rename_i r rest head
      exact ⟨r, rest, head, h⟩
    · cases h
  · rintro ⟨r, rest, head, fed⟩
    simp only [head]
    exact fed

/-- **Whatever the engine takes notice of is a signal that it is given.** -/
theorem Happens.fed {signal : Signal} (h : Happens s drift x (some signal) y) :
    ∃ v, Offers s x signal v ∧ feed s v signal = some y := by
  cases h with
  | lands way fed =>
    obtain ⟨c, way', due, fed⟩ := land?_eq_some_iff.mp fed
    obtain rfl := Option.some.inj (way.symm.trans way')
    exact ⟨_, .answered way due, fed⟩
  | rings fed =>
    obtain ⟨instant, timer, due, fed⟩ := ring?_eq_some_iff.mp fed
    exact ⟨_, .tick timer due, fed⟩
  | draws phase fed => exact ⟨_, .drawn phase, fed⟩
  | takes head fed =>
    obtain ⟨r, rest, head', fed⟩ := take?_eq_some_iff.mp fed
    obtain ⟨rfl, rfl⟩ := List.cons.inj (head.symm.trans head')
    exact ⟨_, .request head, fed⟩
  | goesOn empty held fed => exact ⟨x, .quiet empty held, fed⟩
  | abandons alone fed => exact ⟨x, .abandoned alone, fed⟩

/-- **Whatever the engine is given and makes a step for, it takes notice of.** -/
theorem Offers.happens {signal : Signal} {v : Simulation σ} (h : Offers s x signal v)
    (fed : feed s v signal = some y) : Happens s drift x (some signal) y := by
  cases h with
  | answered way due => exact .lands way (land?_eq_some_iff.mpr ⟨_, way, due, fed⟩)
  | tick timer due => exact .rings (ring?_eq_some_iff.mpr ⟨_, timer, due, fed⟩)
  | drawn phase => exact .draws phase fed
  | request head => exact .takes head (take?_eq_some_iff.mpr ⟨_, _, head, fed⟩)
  | quiet empty held => exact .goesOn empty held fed
  | abandoned alone => exact .abandons alone fed

/-- A signal leaves everything alone that nothing is said of. -/
theorem Offers.same {signal : Signal} {v : Simulation σ} (h : Offers s x signal v) :
    v.phase = x.phase ∧ v.effects = x.effects ∧ v.status = x.status
      ∧ v.onWay = signal.leaves x.onWay ∧ v.queue = signal.queued x.queue := by
  cases h with
  | request head => exact ⟨rfl, rfl, rfl, rfl, by rw [Signal.queued, head]; rfl⟩
  | _ => exact ⟨rfl, rfl, rfl, rfl, rfl⟩

theorem Happens.noticed {signal : Signal} (h : Happens s drift x (some signal) y) :
    ∃ es, Noticed s x signal es y := by
  obtain ⟨v, offers, fed⟩ := h.fed
  obtain ⟨hphase, heffects, hstatus, hway, hqueue⟩ := offers.same
  obtain ⟨es, hf⟩ := fed_of_feed fed
  refine ⟨es, transition_of_step ?_, ?_, ?_, ?_, ?_⟩
  · rw [← hphase]
    exact hf.step
  · rw [hf.effects, heffects]
  · rw [hf.status, hstatus]
  · rw [hf.onWay, hway]
  · rw [← hqueue]
    exact hf.queue

theorem Happens.unnoticed (h : Happens s drift x none y) : Unnoticed x y := by
  cases h with
  | pauses => exact ⟨rfl, rfl, rfl, rfl, List.prefix_append _ _⟩
  | asks r may =>
    unfold submit
    split
    · exact ⟨rfl, rfl, rfl, rfl, List.prefix_append _ _⟩
    · exact ⟨rfl, rfl, rfl, rfl, List.prefix_refl _⟩
  | letsGo => exact ⟨rfl, rfl, rfl, rfl, List.prefix_refl _⟩
  | passes instant le => exact ⟨rfl, rfl, rfl, rfl, List.prefix_refl _⟩
  | drifts world may => exact ⟨rfl, rfl, rfl, rfl, List.prefix_refl _⟩

/-! ## Courses -/

/-- **A succession of happenings**, with the signals that the engine took notice
of, oldest first. -/
inductive Course (s : Surroundings σ) (drift : σ → σ → Prop) (x : Simulation σ) :
    List Signal → Simulation σ → Prop where
  /-- Nothing has happened. -/
  | refl : Course s drift x [] x
  /-- Something more happens. -/
  | snoc {signals : List Signal} {signal : Option Signal} {y z : Simulation σ}
      (before : Course s drift x signals y) (next : Happens s drift y signal z) :
      Course s drift x (signals ++ signal.toList) z

theorem Course.trans {first second : List Signal} (h : Course s drift x first y)
    (h' : Course s drift y second z) : Course s drift x (first ++ second) z := by
  induction h' with
  | refl =>
    rw [List.append_nil]
    exact h
  | snoc before next ih =>
    rw [← List.append_assoc]
    exact ih.snoc next

/-- What was done stays done. -/
theorem Course.effects_kept {signals : List Signal} (h : Course s drift x signals y) :
    x.effects <+: y.effects := by
  induction h with
  | refl => exact List.prefix_refl _
  | @snoc signals signal y z before next ih =>
    cases signal with
    | none => exact next.unnoticed.effects ▸ ih
    | some signal =>
      obtain ⟨es, hn⟩ := next.noticed
      exact hn.effects ▸ ih.trans (List.prefix_append _ _)

theorem Happens.course {signal : Option Signal} (h : Happens s drift x signal y) :
    Course s drift x signal.toList y :=
  Course.refl.snoc h

/-! ## The order that the simulation picks -/

/-- The engine rests. -/
theorem rest?_happens (h : rest? s x = some y) :
    x.isRestless = true ∧ y = x.pause ∨ ∃ signal, Happens s drift x (some signal) y := by
  unfold rest? at h
  split at h
  · cases h
    exact .inl ⟨by assumption, rfl⟩
  · split at h
    · exact .inr ⟨_, .abandons (by assumption) h⟩
    · cases h

theorem land?_happens (h : land? s x = some y) : ∃ signal, Happens s drift x (some signal) y := by
  obtain ⟨c, way, due, fed⟩ := land?_eq_some_iff.mp h
  exact ⟨_, (Offers.answered way due).happens fed⟩

theorem take?_happens (h : take? s x = some y) : ∃ signal, Happens s drift x (some signal) y := by
  obtain ⟨r, rest, head, fed⟩ := take?_eq_some_iff.mp h
  exact ⟨_, (Offers.request head).happens fed⟩

/-- In a turn of the simulation the engine pauses, if that changes anything, or it takes notice of
something. -/
theorem turn_cases (h : turn s x = some y) :
    x.isRestless = true ∧ y = x.pause ∨ ∃ signal, Happens s drift x (some signal) y := by
  unfold turn at h
  cases hp : x.phase with
  | idle =>
    simp only [hp, Option.orElse_eq_or, Option.or_eq_some_iff] at h
    obtain h | ⟨-, h⟩ := h
    · exact .inr (take?_happens h)
    · exact rest?_happens h
  | drawing run lo hi =>
    simp only [hp] at h
    rw [← hp] at h
    exact .inr ⟨_, .draws hp h⟩
  | calling run output power =>
    simp only [hp, Option.orElse_eq_or, Option.or_eq_some_iff] at h
    obtain h | ⟨-, h | ⟨-, h⟩⟩ := h
    · exact .inr (land?_happens h)
    · exact .inr (take?_happens h)
    · exact rest?_happens h
  | waiting run n =>
    simp only [hp, Option.orElse_eq_or, Option.or_eq_some_iff] at h
    obtain h | ⟨-, h | ⟨-, h⟩⟩ := h
    · exact .inr ⟨_, .rings h⟩
    · exact .inr (take?_happens h)
    · exact rest?_happens h
  | between run =>
    simp only [hp, Option.orElse_eq_or, Option.or_eq_some_iff] at h
    obtain h | ⟨hnone, h⟩ := h
    · exact .inr (take?_happens h)
    · by_cases alone : x.isAbandoned = true
      · rw [if_pos alone] at h
        exact .inr ⟨_, .abandons alone h⟩
      · rw [if_neg alone] at h
        -- a request in the queue would have been taken, since this phase takes them all
        cases hq : x.queue with
        | nil => exact .inr ⟨_, .goesOn hq (Bool.eq_false_iff.mpr alone) h⟩
        | cons r rest =>
          cases r <;> simp [take?, hq, feed, hp, step] at hnone
  | landing caller =>
    simp only [hp, Option.orElse_eq_or, Option.or_eq_some_iff, Option.ite_none_right_eq_some,
      Option.some.injEq] at h
    obtain h | ⟨-, restless, rfl⟩ := h
    · exact .inr (land?_happens h)
    · exact .inl ⟨restless, rfl⟩
  | sweeping current rest sweep caller =>
    simp only [hp, Option.orElse_eq_or, Option.or_eq_some_iff, Option.ite_none_right_eq_some,
      Option.some.injEq] at h
    obtain h | ⟨-, restless, rfl⟩ := h
    · exact .inr (land?_happens h)
    · exact .inl ⟨restless, rfl⟩
  | ended =>
    simp only [hp] at h
    cases h

/-- **Each turn of the simulation is a happening.** -/
theorem turn_happens (h : turn s x = some y) : ∃ signal, Happens s drift x signal y := by
  obtain ⟨-, rfl⟩ | ⟨signal, next⟩ := turn_cases h
  · exact ⟨none, .pauses⟩
  · exact ⟨some signal, next⟩

end Simulation

/-! ## The command on its way

A phase either waits for the controller to answer a certain command, or for
nothing from it. A command that a run has sent is awaited even after the run was
stopped, although the machine has forgotten by then which one it was. -/

/-- **The commands that may be on their way in a phase.** -/
def Phase.Awaits : Phase → Option (Relay × Power) → Prop
  | .idle, way => way = none
  | .drawing .., way => way = none
  | .calling _ output power, way => way = some (output, power)
  | .waiting .., way => way = none
  | .between _, way => way = none
  | .landing _, way => way.isSome = true
  | .sweeping current _ _ _, way => way = some (current, .off)
  | .ended, way => way = none

/-- A run has a command on its way only while it is carrying that command out. -/
theorem Phase.Awaits.flight {phase : Phase} {way : Option (Relay × Power)} (h : phase.Awaits way)
    (active : phase.isActive = true) :
    way = none ∨ ∃ run output power,
      phase = .calling run output power ∧ way = some (output, power) := by
  cases phase with
  | drawing run min max => exact .inl h
  | calling run output power => exact .inr ⟨run, output, power, rfl, h⟩
  | waiting run n => exact .inl h
  | between run => exact .inl h
  | _ => cases active

theorem Run.awaits_wait (run : Run) (n : Nat) :
    (run.wait n).1.Awaits ((run.wait n).2.foldl Effect.onWay none) := by
  unfold Run.wait
  split
  · rfl
  · rfl

theorem Run.awaits_carryOut (run : Run) (d : Dispatch) :
    (run.carryOut d).1.Awaits ((run.carryOut d).2.foldl Effect.onWay none) := by
  cases d with
  | relay id output power => rfl
  | wait id span =>
    cases span with
    | fixed seconds => exact run.awaits_wait _
    | random min max =>
      dsimp only [Run.carryOut]
      split
      · rfl
      · exact run.awaits_wait _

/-- A run that goes on sends at most the command of its next step. -/
theorem Run.awaits_proceed (panel : Panel) (run : Run) {effects : List Effect}
    (silent : effects.foldl Effect.onWay none = none) :
    (run.proceed panel effects).1.Awaits
      ((run.proceed panel effects).2.foldl Effect.onWay none) := by
  unfold Run.proceed
  split
  · rw [List.foldl_append, silent]
    rfl
  · rename_i d cursor hr
    rw [List.foldl_append, List.foldl_append]
    show Phase.Awaits _ (List.foldl _ (effects.foldl Effect.onWay none) _)
    rw [silent]
    exact Run.awaits_carryOut _ d

/-- **A step of the machine sends a command exactly if the next phase awaits it.** -/
theorem Phase.Awaits.step {panel : Panel} {phase next : Phase} {way : Option (Relay × Power)}
    {signal : Signal} {effects : List Effect} (h : phase.Awaits way)
    (ht : Transition panel phase signal next effects) :
    next.Awaits (effects.foldl Effect.onWay (signal.leaves way)) := by
  cases ht with
  | declines none => exact h
  | @starts t p next effects ne goes =>
    cases h
    have hp := Run.awaits_proceed panel ⟨p, .start p.steps⟩
      (show [Effect.answer t .started].foldl Effect.onWay none = none from rfl)
    rw [goes] at hp
    exact hp
  | refuses listens => exact h
  | @draws run min max n next effects ge le waits =>
    cases h
    have hw := run.awaits_wait n
    rw [waits] at hw
    exact hw
  | confirms => rfl
  | fails => rfl
  | ticks pos => exact h
  | rings le => exact h
  | @proceeds run next effects goes =>
    cases h
    have hp := Run.awaits_proceed panel { run with cursor := run.cursor.advance }
      (show [].foldl Effect.onWay none = none from rfl)
    rw [goes] at hp
    exact hp
  -- neither a stop nor the loss of the last handle calls a command back
  | cuts ends =>
    cases h
    cases ends <;> rfl
  | haltsWaiting ends => rfl
  | haltsBetween ends => rfl
  | sweeps => rfl
  | lands => rfl
  | sweepsOn => rfl
  | reports => rfl
  | sweepsUp => rfl
  | ends => exact h

namespace Simulation

variable {s : Surroundings σ} {drift : σ → σ → Prop} {x y : Simulation σ}

/-- **The command on its way is the one that the phase awaits**, throughout every
course. -/
theorem Course.awaits {signals : List Signal} (h : Course s drift x signals y)
    (hx : x.phase.Awaits x.onWay) : y.phase.Awaits y.onWay := by
  induction h with
  | refl => exact hx
  | @snoc signals signal y z before next ih =>
    cases signal with
    | none =>
      have hn := next.unnoticed
      rw [hn.phase, onWay, hn.call]
      exact ih
    | some signal =>
      obtain ⟨effects, hn⟩ := next.noticed
      rw [hn.onWay]
      exact ih.step hn.step

end Simulation

end Switchboard.Engine
