import Switchboard.Proofs.Transcript

/-!
# Stopping a run

A stop ends a run at once, but it is answered only after every output has been
sent an off command. In between lies what this module describes: a command of
the run that is still on its way comes back first, and its answer is ignored;
then the off commands are sent in board order, each once the one before has been
answered, whether it failed or not.

`Winding` says how far a stop has come after a number of answers of the
controller, and what it has done up to then. The engine takes notice of nothing
else meanwhile (`Winding.step`), so that this is all that can happen between the
stop and its answer, in every course (`Course.winding`). After the answer the
engine rests as it does after any run.

A stop that waits in the queue when a step is complete is reached before the next
step begins: `Draining` follows the requests in front of it.
-/

namespace Switchboard.Engine

/-! ## The off commands and their answers -/

/-- The off commands for outputs, in order. -/
def offCommands (outputs : List Relay) : List Effect := outputs.map fun r => .command r .off

/-- **The failures among the answers to off commands**, with the outputs they are
about. -/
def failures (outputs : List Relay) (results : List Answer) : List (Relay × ActuatorFault) :=
  (outputs.zip results).filterMap fun x =>
    match x.2 with
    | .ok () => none
    | .error fault => some (x.1, fault)

/-- Another answer adds its own failure, if it is one. -/
theorem record_failures {attempted : List Relay} {swept : List Answer}
    (each : attempted.length = swept.length) (current : Relay) (result : Answer) :
    Sweep.record ⟨attempted, failures attempted swept⟩ current result
      = ⟨attempted ++ [current], failures (attempted ++ [current]) (swept ++ [result])⟩ := by
  unfold failures
  rw [List.zip_append each, List.filterMap_append]
  cases result with
  | ok u =>
    show Sweep.mk _ _ = Sweep.mk _ (_ ++ [])
    rw [List.append_nil]
  | error fault => rfl

/-! ## How far a stop has come -/

/-- **How far a stop has come**, for the command that was on its way when it was
taken: after which answers of the controller the engine is in which phase, with
which command on its way, and what it has done since. -/
inductive Winding (t : Ticket) (flight : Option (Relay × Power)) :
    List Answer → Phase → Option (Relay × Power) → List Effect → Prop where
  /-- The run is over, and its last command is still on its way. -/
  | landing (inFlight : flight.isSome = true) :
      Winding t flight [] (.landing (some t)) flight cancellation
  /-- The last command of the run has been answered, if one was on its way, and
  some off commands after it. The next is on its way. -/
  | sweeping {ignored swept : List Answer} {attempted rest : List Relay} {current : Relay}
      (flew : ignored.length = flight.toList.length)
      (split : attempted ++ current :: rest = Relay.all)
      (each : attempted.length = swept.length) :
      Winding t flight (ignored ++ swept)
        (.sweeping current rest ⟨attempted, failures attempted swept⟩ (some t))
        (some (current, .off)) (cancellation ++ offCommands (attempted ++ [current]))
  /-- Every off command has been answered, and so has the stop. -/
  | answered {ignored swept : List Answer} (flew : ignored.length = flight.toList.length)
      (each : Relay.all.length = swept.length) :
      Winding t flight (ignored ++ swept) .idle none
        (cancellation ++ offCommands Relay.all
          ++ [.answer t (.stopped ⟨Relay.all, failures Relay.all swept⟩)])

variable {panel : Panel} {t : Ticket} {flight way : Option (Relay × Power)} {phase next : Phase}
  {as : List Answer} {es effects : List Effect} {signal : Signal}

/-- **A stop that a run takes** publishes that the run is cancelled, shows that
nothing runs, and has come as far as it can without an answer. -/
theorem Winding.ofStop (active : phase.isActive = true) (aw : phase.Awaits way)
    (ht : Transition panel phase (.request (.stop t)) next effects) :
    Winding t way [] next (effects.foldl Effect.onWay way) effects
      ∧ (∀ shown, effects.foldl Status.after shown = .idle) ∧ events effects = [.cancelled] := by
  have sweeps : Winding t none [] (.sweeping .first Relay.others .empty (some t))
      (some (.first, .off)) (cancellation ++ [.command .first .off]) :=
    @Winding.sweeping t none [] [] [] _ _ rfl rfl rfl
  cases ht with
  | cuts ends =>
    cases ends
    cases aw
    exact ⟨.landing rfl, fun _ => rfl, rfl⟩
  | haltsWaiting ends =>
    cases ends
    cases aw
    exact ⟨sweeps, fun _ => rfl, rfl⟩
  | haltsBetween ends =>
    cases ends
    cases aw
    exact ⟨sweeps, fun _ => rfl, rfl⟩
  | sweeps => cases active

/-- Nothing runs while a stop winds down. -/
theorem Winding.inactive (h : Winding t flight as phase way es) : phase.isActive = false := by
  cases h <;> rfl

/-- One off command more. -/
theorem offCommands_concat (outputs : List Relay) (output : Relay) :
    offCommands (outputs ++ [output]) = offCommands outputs ++ [.command output .off] :=
  List.map_append

/-- **Until the stop is answered, the engine takes notice of nothing but answers of
the controller**, each of which brings the stop further. -/
theorem Winding.step (h : Winding t flight as phase way es) (going : phase ≠ .idle)
    (ht : Transition panel phase signal next effects) :
    ∃ a, signal = .answered a
      ∧ Winding t flight (as ++ [a]) next (effects.foldl Effect.onWay none) (es ++ effects)
      ∧ effects.foldl Status.after .idle = .idle := by
  cases h with
  | landing inFlight =>
    obtain ⟨c, rfl⟩ := Option.isSome_iff_exists.mp inFlight
    cases ht with
    | @lands _ a => exact ⟨a, rfl, @Winding.sweeping t (some c) [a] [] [] _ _ rfl rfl rfl, rfl⟩
    | refuses listens => cases listens
  | @sweeping ignored swept attempted rest current flew split each =>
    have each' : ∀ a, (attempted ++ [current]).length = (swept ++ [a]).length := by
      intro a
      rw [List.length_append, List.length_append, each]
      rfl
    cases ht with
    | @sweepsOn _ following rest _ _ a =>
      refine ⟨a, rfl, ?_, rfl⟩
      rw [record_failures each, List.append_assoc ignored, List.append_assoc cancellation,
        ← offCommands_concat]
      refine .sweeping flew ?_ (each' a)
      rw [← split, List.append_assoc]
      rfl
    | @reports _ _ _ a =>
      refine ⟨a, rfl, ?_, rfl⟩
      have heach := each' a
      rw [record_failures each, List.append_assoc ignored]
      rw [split] at heach ⊢
      exact .answered flew heach
    | refuses listens => cases listens
  | answered flew each => exact absurd rfl going

namespace Simulation

variable {σ : Type} {s : Surroundings σ} {drift : σ → σ → Prop} {x y z : Simulation σ}
  {signals : List Signal}

/-! ## The course of a stop -/

/-- A signal that the machine takes is taken. -/
theorem isSome_feed {signal : Signal} (h : (step s.panel x.phase signal).isSome = true) :
    (feed s x signal).isSome = true := by
  obtain ⟨next, hn⟩ := Option.isSome_iff_exists.mp h
  simp [feed, hn]

/-- **The command that a stop waits for can come back** as soon as it is due. -/
theorem lands_of_winding {as : List Answer} {es : List Effect}
    (h : Winding t flight as x.phase x.onWay es) (going : x.phase ≠ .idle) :
    ∃ c, x.call = some c
      ∧ ∀ now, c.due ≤ now → (land? s { x with clock := now }).isSome = true := by
  -- the machine takes an answer in every phase in which a command is on its way
  have key : x.onWay.isSome = true
      ∧ ∀ a, (step s.panel x.phase (.answered a)).isSome = true := by
    generalize x.phase = phase at h going
    generalize x.onWay = way at h
    cases h with
    | landing inFlight => exact ⟨inFlight, fun _ => rfl⟩
    | sweeping flew split each => exact ⟨rfl, fun _ => rfl⟩
    | answered flew each => exact absurd rfl going
  obtain ⟨hway, hstep⟩ := key
  rw [onWay, Option.isSome_map] at hway
  obtain ⟨c, hc⟩ := Option.isSome_iff_exists.mp hway
  refine ⟨c, hc, fun now hdue => ?_⟩
  simp only [land?, hc, if_pos hdue]
  exact isSome_feed (hstep _)

/-- **What follows when a run takes a stop**, in the state that the stop is taken in
and the one that it leads to. -/
structure StopsRun (s : Surroundings σ) (drift : σ → σ → Prop) (t : Ticket)
    (x y : Simulation σ) : Prop where
  /-- The status is idle at once. -/
  status : y.status = .idle
  /-- The run is cancelled at once, and nothing else is published. -/
  published : y.published = x.published ++ [.cancelled]
  /-- A command is on its way only if the run is carrying it out. -/
  flight : x.onWay = none ∨ ∃ run output power,
    x.phase = .calling run output power ∧ x.onWay = some (output, power)
  /-- The engine takes notice of nothing but answers of the controller until the stop
  is answered. After each of them it has come as far as `Winding` says, and it
  can come further as soon as the command on its way is due. -/
  winds : ∀ {signals z}, Course s drift y signals z → ∃ as later w es,
    signals = as.map .answered ++ later ∧ Course s drift y (as.map .answered) w
      ∧ Course s drift w later z ∧ Winding t x.onWay as w.phase w.onWay es
      ∧ w.effects = x.effects ++ es ∧ w.status = .idle
      ∧ (w.phase = .idle ∨ later = [] ∧ z = w ∧ ∃ c, w.call = some c
        ∧ ∀ now, c.due ≤ now → (land? s { w with clock := now }).isSome = true)
  /-- From then on nothing is published or recorded and no step begins, until another
  start is taken. -/
  rests : ∀ {signals z}, Course s drift y signals z →
    (∀ t p, Signal.request (.start t p) ∉ signals) → Resting y z

/-- **A stop winds down**, however it is interleaved with everything else. -/
theorem Course.winding {es : List Effect} {before : List Effect}
    (h : Course s drift y signals z) (hw : Winding t flight [] y.phase y.onWay es)
    (heffects : y.effects = before ++ es) (hstatus : y.status = .idle) :
    ∃ as later w es, signals = as.map .answered ++ later ∧ Course s drift y (as.map .answered) w
      ∧ Course s drift w later z ∧ Winding t flight as w.phase w.onWay es
      ∧ w.effects = before ++ es ∧ w.status = .idle ∧ (w.phase = .idle ∨ later = [] ∧ z = w) := by
  induction h with
  | refl =>
    exact ⟨[], [], y, es, rfl, .refl, .refl, hw, heffects, hstatus, .inr ⟨rfl, rfl⟩⟩
  | @snoc signals signal v z course next ih =>
    obtain ⟨as, later, w, es, hsig, hyw, hwv, hwind, heff, hst, hend⟩ := ih
    by_cases hidle : w.phase = .idle
    · -- the stop was answered before, and what happens now comes after it
      refine ⟨as, later ++ signal.toList, w, es, ?_, hyw, hwv.snoc next, hwind, heff, hst,
        .inl hidle⟩
      rw [hsig, List.append_assoc]
    · obtain ⟨rfl, rfl⟩ := hend.resolve_left hidle
      rw [List.append_nil] at hsig
      cases signal with
      | none =>
        have hn := next.unnoticed
        refine ⟨as, [], z, es, ?_, ?_, .refl, ?_, hn.effects.trans heff, hn.status.trans hst,
          .inr ⟨rfl, rfl⟩⟩
        · rw [hsig]
          rfl
        · have hc := hyw.snoc next
          rwa [Option.toList_none, List.append_nil] at hc
        · rw [hn.phase, onWay, hn.call]
          exact hwind
      | some signal =>
        obtain ⟨effects, hn⟩ := next.noticed
        obtain ⟨a, rfl, hwind', hshown⟩ := hwind.step hidle hn.step
        refine ⟨as ++ [a], [], z, es ++ effects, ?_, ?_, .refl, ?_, ?_, ?_, .inr ⟨rfl, rfl⟩⟩
        · rw [hsig, List.map_append, List.append_nil]
          rfl
        · rw [List.map_append]
          exact hyw.snoc next
        · rw [hn.onWay]
          exact hwind'
        · rw [hn.effects, heff, List.append_assoc]
        · rw [hn.status, hst, hshown]

/-- A run that takes a stop is stopped, if the command on its way is its own. -/
theorem stopsRun (active : x.phase.isActive = true) (aw : x.phase.Awaits x.onWay)
    {rest : List Request} (head : x.queue = .stop t :: rest) (took : take? s x = some y) :
    StopsRun s drift t x y := by
  have hh : Happens s drift x (some (.request (.stop t))) y := .takes head took
  obtain ⟨effects, hn⟩ := hh.noticed
  obtain ⟨hwind, hshown, hevents⟩ := Winding.ofStop active aw hn.step
  have hw : Winding t x.onWay [] y.phase y.onWay effects := by
    rw [hn.onWay]
    exact hwind
  have hstatus : y.status = .idle := by rw [hn.status, hshown]
  refine ⟨hstatus, ?_, aw.flight active, fun hc => ?_, fun hc hno => hc.resting ?_ hno⟩
  · rw [published, hn.effects, events_append, hevents]
    rfl
  · obtain ⟨as, later, w, es, hsig, hyw, hwz, hwind, heff, hst, hend⟩ :=
      hc.winding hw hn.effects hstatus
    refine ⟨as, later, w, es, hsig, hyw, hwz, hwind, heff, hst, ?_⟩
    by_cases hidle : w.phase = .idle
    · exact .inl hidle
    · obtain ⟨hlater, hzw⟩ := hend.resolve_left hidle
      exact .inr ⟨hlater, hzw, lands_of_winding hwind hidle⟩
  · exact hw.inactive

/-! ## A stop in the queue -/

/-- The requests to run programs, as they stand in the queue. -/
def startRequests (starts : List (Ticket × Program)) : List Request :=
  starts.map fun q => .start q.1 q.2

/-- The signals by which the engine takes starts. -/
def startSignals (starts : List (Ticket × Program)) : List Signal :=
  (startRequests starts).map .request

/-- The answers by which the engine refuses starts. -/
def refusals (starts : List (Ticket × Program)) : List Effect :=
  starts.map fun q => .answer q.1 .alreadyRunning

/-- **An engine between two steps works through its queue up to a stop**: it has
refused some of the starts in front of the stop, and the stop comes nearer. -/
structure Draining (run : Run) (starts : List (Ticket × Program)) (t : Ticket)
    (x : Simulation σ) (refused : List (Ticket × Program)) (z : Simulation σ) : Prop where
  /-- The next step has not begun. -/
  phase : z.phase = .between run
  /-- The starts taken so far were refused, and nothing else was done. -/
  effects : z.effects = x.effects ++ refusals refused
  /-- The other starts and the stop are still in front of all others. -/
  queue : ∃ kept more, starts = refused ++ kept
    ∧ z.queue = startRequests kept ++ .stop t :: more

/-- **What the engine does next while it drains its queue**: it takes a start and
refuses it, or it takes the stop. -/
theorem Draining.step {run : Run} {starts refused : List (Ticket × Program)} {signal : Signal}
    (h : Draining run starts t x refused y) (next : Happens s drift y (some signal) z) :
    (∃ q, signal = .request (.start q.1 q.2) ∧ Draining run starts t x (refused ++ [q]) z)
      ∨ refused = starts ∧ signal = .request (.stop t)
        ∧ (∃ more, y.queue = .stop t :: more) ∧ take? s y = some z := by
  obtain ⟨kept, more, hstarts, hqueue⟩ := h.queue
  obtain ⟨effects, hn⟩ := next.noticed
  have hstep := hn.step
  rw [h.phase] at hstep
  generalize hafter : z.phase = after at hstep
  have hne : y.queue ≠ [] := by
    rw [hqueue]
    exact List.append_ne_nil_of_right_ne_nil _ (List.cons_ne_nil _ _)
  cases next with
  | lands way fed =>
    cases hstep with
    | haltsBetween ends => cases ends
  | rings fed =>
    cases hstep with
    | haltsBetween ends => cases ends
  | draws phase fed =>
    cases hstep with
    | haltsBetween ends => cases ends
  | goesOn empty held fed => exact absurd empty hne
  | abandons alone fed => simp [isAbandoned, isPending, hne] at alone
  | @takes r rest z head fed =>
    have hq := hn.queue
    -- what is taken is the stop exactly if no start is left in front of it
    cases kept with
    | nil =>
      obtain rfl : Request.stop t = r := List.head_eq_of_cons_eq (hqueue.symm.trans head)
      rw [List.append_nil] at hstarts
      exact .inr ⟨hstarts.symm, rfl, ⟨more, hqueue⟩, fed⟩
    | cons q kept =>
      obtain rfl : Request.start q.1 q.2 = r :=
        List.head_eq_of_cons_eq (hqueue.symm.trans head)
      have htail : startRequests kept ++ Request.stop t :: more <+: z.queue := by
        rw [hqueue] at hq
        exact hq
      obtain ⟨more', hmore⟩ := htail
      rw [List.append_assoc, List.cons_append] at hmore
      cases hstep with
      | refuses listens =>
        refine .inl ⟨q, rfl, hafter, ?_, kept, more ++ more', ?_, hmore.symm⟩
        · rw [hn.effects, h.effects, List.append_assoc, refusals, refusals, List.map_append]
          rfl
        · rw [hstarts, List.append_assoc]
          rfl
      | haltsBetween ends => cases ends

/-- **A stop in the queue is reached before the next step begins.** From an engine
between two steps whose queue holds a stop behind some starts, every course
refuses starts, in order and one after the other, until it takes the stop. -/
theorem Course.draining {run : Run} {starts : List (Ticket × Program)} {rest : List Request}
    (h : Course s drift x signals z) (phase : x.phase = .between run)
    (queue : x.queue = startRequests starts ++ .stop t :: rest) :
    (∃ refused, signals = startSignals refused ∧ Draining run starts t x refused z)
      ∨ ∃ v w later, Course s drift x (startSignals starts) v ∧ Draining run starts t x starts v
        ∧ (∃ more, v.queue = .stop t :: more) ∧ take? s v = some w ∧ Course s drift w later z
        ∧ signals = startSignals starts ++ .request (.stop t) :: later := by
  induction h with
  | refl =>
    refine .inl ⟨[], rfl, phase, ?_, starts, rest, rfl, queue⟩
    rw [refusals, List.map_nil, List.append_nil]
  | @snoc signals signal y z before next ih =>
    obtain ⟨refused, hsig, hd⟩ | ⟨v, w, later, hxv, hd, hq, hvw, hwy, hsig⟩ := ih
    · cases signal with
      | none =>
        have hn := next.unnoticed
        obtain ⟨kept, more, hstarts, hqueue⟩ := hd.queue
        obtain ⟨more', hmore⟩ := hn.queue
        refine .inl ⟨refused, ?_, hn.phase.trans hd.phase, hn.effects.trans hd.effects, kept,
          more ++ more', hstarts, ?_⟩
        · rw [hsig, Option.toList_none, List.append_nil]
        · rw [← hmore, hqueue, List.append_assoc]
          rfl
      | some signal =>
        obtain ⟨q, rfl, hd'⟩ | ⟨rfl, rfl, hmore, took⟩ := hd.step next
        · refine .inl ⟨refused ++ [q], ?_, hd'⟩
          rw [hsig, startSignals, startSignals, startRequests, startRequests, List.map_append,
            List.map_append]
          rfl
        · refine .inr ⟨y, z, [], ?_, hd, hmore, took, .refl, ?_⟩
          · rw [← hsig]
            exact before
          · rw [hsig]
            rfl
    · refine .inr ⟨v, w, later ++ signal.toList, hxv, hd, hq, hvw, hwy.snoc next, ?_⟩
      rw [hsig, List.append_assoc]
      rfl

/-- **A stop ends a run at once and leaves nothing undone**, whatever the run is at and
whatever the controller answers. Taken during a countdown, while a command is on
its way or between two steps, it cancels the run there and then; the command on
its way comes back and is ignored; the off commands follow one after the other,
and only when the last has been answered is the stop answered, with the failures
among them (`StopsRun`). A stop that waits in the queue between two steps is
taken before the next step begins, and the starts in front of it are refused. -/
theorem stop_ends_run {world : σ} {before : List Signal}
    (reach : Course s drift { world } before x) :
    (∀ {t rest y}, x.phase.isActive = true → x.queue = .stop t :: rest →
        take? s x = some y → StopsRun s drift t x y)
      ∧ ∀ {run starts t rest signals z}, x.phase = .between run →
        x.queue = startRequests starts ++ .stop t :: rest → Course s drift x signals z →
        (∃ refused, signals = startSignals refused ∧ Draining run starts t x refused z)
          ∨ ∃ v w later, Course s drift x (startSignals starts) v
            ∧ Draining run starts t x starts v ∧ (∃ more, v.queue = .stop t :: more)
            ∧ take? s v = some w ∧ Course s drift w later z
            ∧ signals = startSignals starts ++ .request (.stop t) :: later :=
  ⟨fun active head took => stopsRun active (reach.awaits rfl) head took,
    fun phase queue course => course.draining phase queue⟩

/-- A run of `blink` that is stopped while its command is on its way, and another
that is stopped between two steps, with a start in front of the stop. -/
theorem stop_ends_blink :
    (∃ before x y,
        Course (Rig.surroundings .unlabelled 1000 0) (fun _ _ => False) { world := {} } before x
          ∧ x.phase.isActive = true ∧ x.queue = [.stop 1]
          ∧ take? (Rig.surroundings .unlabelled 1000 0) x = some y
          ∧ StopsRun (Rig.surroundings .unlabelled 1000 0) (fun _ _ => False) 1 x y)
      ∧ ∃ before x run z,
        Course (Rig.surroundings .unlabelled 1000 0) (fun _ _ => False) { world := {} } before x
          ∧ x.phase = .between run ∧ x.queue = startRequests [(1, blink)] ++ .stop 2 :: []
          ∧ ∃ refused, [.request (.start 1 blink)] = startSignals refused
            ∧ Draining run [(1, blink)] 2 x refused z := by
  have drains : ∀ {before x run y},
      Course (Rig.surroundings .unlabelled 1000 0) (fun _ _ => False) { world := {} } before x →
      x.phase = .between run → x.queue = startRequests [(1, blink)] ++ .stop 2 :: [] →
      take? (Rig.surroundings .unlabelled 1000 0) x = some y →
      ∃ refused, [.request (.start 1 blink)] = startSignals refused
        ∧ Draining run [(1, blink)] 2 x refused y := by
    intro before x run y reach phase queue took
    have next : Happens (Rig.surroundings .unlabelled 1000 0) (fun _ _ => False) x
      (some (.request (.start 1 blink))) y := .takes queue took
    obtain hd | ⟨v, w, later, -, -, -, -, -, hsig⟩ :=
      (stop_ends_run reach).2 phase queue next.course
    · exact hd
    · simp [startSignals, startRequests] at hsig
  have h₀ : Course (Rig.surroundings .unlabelled 1000 0) (fun _ _ => False) { world := {} } [] _ :=
    .refl
  have h₁ := h₀.snoc (.asks (.start 0 blink) (.inl rfl))
  have h₂ := h₁.snoc (.takes rfl rfl)
  refine ⟨?_, ?_⟩
  · have h₃ := h₂.snoc (.asks (.stop 1) (.inl rfl))
    exact ⟨_, _, _, h₃, rfl, rfl, rfl, (stop_ends_run h₃).1 rfl rfl rfl⟩
  · have h₃ := h₂.snoc (.asks (.start 1 blink) (.inl rfl))
    have h₄ := h₃.snoc (.asks (.stop 2) (.inl rfl))
    have h₅ := h₄.snoc (.lands rfl rfl)
    exact ⟨_, _, _, _, h₅, rfl, rfl, drains h₅ rfl rfl rfl⟩

end Simulation

end Switchboard.Engine
