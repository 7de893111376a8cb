import Switchboard.Proofs.Clocks
import Switchboard.Proofs.Timetable

/-!
# A timely run is punctual

Where a run is in its itinerary decides how long it stays there: until its command is due, until
the next second is over, or for no time at all. `OnTime` says that what it waits for is
due at the instant at which the timetable has it leave that place. If nothing goes wrong in its
surroundings and everything comes when it is due, each leg of a run leads from one place to the next
on time, and publishes what the timetable has there (`onTime_of_leg`). So a timely run that is not
stopped is `Punctual` wherever it is.

Starts that are taken meanwhile change nothing. They are refused, and what the run waits for is
due when it was due before.
-/

namespace Switchboard.Engine.Simulation

variable {σ : Type}

/-- **Surroundings in which nothing goes wrong** as long as their state is a good one. The
controller confirms every command. -/
structure Obliging (s : Surroundings σ) (drift : σ → σ → Prop) (good : σ → Prop) : Prop where
  /-- Every command is confirmed. -/
  confirms : ∀ {number output power world}, good world →
    (s.switch number output power world).1 = .ok ()
  /-- A good state stays good when a command is carried out. -/
  switch : ∀ {number output power world}, good world →
    good (s.switch number output power world).2
  /-- It does when a note is made. -/
  record : ∀ {clock output power world}, good world → good (s.record clock output power world)
  /-- It does when a length is drawn. -/
  draw : ∀ {lo hi world}, good world → good (s.draw lo hi world).2
  /-- And it does when it changes by itself. -/
  drift : ∀ {world world'}, good world → drift world world' → good world'

variable {s : Surroundings σ} {drift : σ → σ → Prop} {good : σ → Prop} {x y z : Simulation σ}
  {signal : Signal} {signals : List Signal} {es : List Effect} {t : Ticket} {p : Program}
  {place place' : Place} {start : Nat}

/-! ## Obliging surroundings -/

/-- Whatever the engine does leaves the surroundings in a good state. -/
theorem Obliging.foldl_worldAfter (ob : Obliging s drift good) {world : σ} (h : good world)
    (clock : Nat) (es : List Effect) : good (es.foldl (worldAfter s clock) world) := by
  induction es generalizing world with
  | nil => exact h
  | cons e es ih =>
    refine ih ?_
    cases e with
    | record output power => exact ob.record h
    | _ => exact h

/-- **Nothing that happens spoils a good state**, and every command is confirmed. -/
theorem Obliging.happens {signal : Option Signal} (ob : Obliging s drift good) (h : good x.world)
    (next : Happens s drift x signal y) :
    good y.world ∧ ∀ fault, signal ≠ some (.answered (.error fault)) := by
  cases signal with
  | none =>
    refine ⟨?_, nofun⟩
    cases next with
    | pauses => exact h
    | asks r may =>
      unfold submit
      split
      · exact h
      · exact h
    | letsGo => exact h
    | passes instant le => exact h
    | drifts world may => exact ob.drift h may
  | some signal =>
    obtain ⟨v, offers, fed⟩ := next.fed
    obtain ⟨es, hf⟩ := fed_of_feed fed
    rw [hf.world]
    cases offers with
    | answered way due =>
      refine ⟨ob.foldl_worldAfter (ob.switch h) _ _, fun fault hfault => ?_⟩
      rw [Option.some.injEq, Signal.answered.injEq, ob.confirms h] at hfault
      cases hfault
    | drawn phase => exact ⟨ob.foldl_worldAfter (ob.draw h) _ _, nofun⟩
    | tick timer due => exact ⟨ob.foldl_worldAfter h _ _, nofun⟩
    | request head => exact ⟨ob.foldl_worldAfter h _ _, nofun⟩
    | quiet empty held => exact ⟨ob.foldl_worldAfter h _ _, nofun⟩
    | abandoned alone => exact ⟨ob.foldl_worldAfter h _ _, nofun⟩

theorem Obliging.course (ob : Obliging s drift good) (h : good x.world)
    (course : Course s drift x signals y) : good y.world := by
  induction course with
  | refl => exact h
  | snoc before next ih => exact (ob.happens ih next).1

/-! ## Places on time -/

/-- **A run is on time at a place**: it waits for what is due when it leaves the place, or it
leaves it at once. -/
def OnTime (s : Surroundings σ) (p : Program) (start : Nat) (place : Place) (x : Simulation σ) :
    Prop :=
  match place.stage with
  | .calling _ _ _ => x.call.map Call.due = some (place.leaves s start) ∧ x.timer = none
    ∧ x.clock ≤ place.leaves s start
  | .waiting _ _ _ _ => x.timer = some (place.leaves s start) ∧ x.call = none
    ∧ x.clock ≤ place.leaves s start
  | .ended => place.done.map Prod.fst = p.route
  | _ => x.clock = place.leaves s start

/-- A run that carries out a command is on time if that is due when the run leaves its place. -/
theorem onTime_of_calling {done : List (Dispatch × Nat)} {id : StepId} {output : Relay}
    {power : Power} (located : Located p y.phase ⟨done, .calling id output power⟩)
    (due : y.call.map Call.due = some (Place.leaves s start ⟨done, .calling id output power⟩))
    (stopped : (∀ run n, y.phase ≠ .waiting run n) → y.timer = none)
    (le : y.clock ≤ Place.leaves s start ⟨done, .calling id output power⟩) :
    OnTime s p start ⟨done, .calling id output power⟩ y := by
  obtain ⟨run, hphase⟩ := located.of_calling
  refine ⟨due, stopped fun run' n hwaiting => ?_, le⟩
  rw [hphase] at hwaiting
  cases hwaiting

/-- A run that waits is on time if the second that goes by is over when the run leaves its
place. -/
theorem onTime_of_waiting {done : List (Dispatch × Nat)} {id : StepId} {span : Span} {n m : Nat}
    (located : Located p y.phase ⟨done, .waiting id span n m⟩) (aw : y.phase.Awaits y.onWay)
    (timer : ∀ {run k}, y.phase = .waiting run k →
      y.timer = some (Place.leaves s start ⟨done, .waiting id span n m⟩))
    (le : y.clock ≤ Place.leaves s start ⟨done, .waiting id span n m⟩) :
    OnTime s p start ⟨done, .waiting id span n m⟩ y := by
  obtain ⟨run, hphase⟩ := located.of_waiting
  rw [hphase] at aw
  exact ⟨timer hphase, Option.map_eq_none_iff.mp aw, le⟩

/-- A wait that begins on time. -/
theorem onTime_of_waits {done : List (Dispatch × Nat)} {id : StepId} {span : Span} {n : Nat}
    {timer : Option Nat} (h : Waits p done id span n place es) (located : Located p y.phase place)
    (aw : y.phase.Awaits y.onWay) (clock : y.clock = s.due start done)
    (counts : ∀ {run m}, y.phase = .waiting run m →
      y.timer = es.foldl (Effect.alarm (y.clock + s.tickPeriod)) timer) :
    OnTime s p start place y ∧ events es = []
      ∧ place.published s start = Place.published s start ⟨done, .drawing id span⟩ := by
  cases h with
  | skips => exact ⟨clock.trans Place.leaves_skipped.symm, rfl, Place.published_skipped⟩
  | counts pos =>
    have hleaves : Place.leaves s start ⟨done, .waiting id span n n⟩ = y.clock + s.tickPeriod :=
      Place.leaves_counting.trans (congrArg (· + s.tickPeriod) clock.symm)
    refine ⟨onTime_of_waiting located aw (fun hphase => ?_) ?_, rfl, Place.published_counting⟩
    · rw [hleaves]
      exact counts hphase
    · rw [hleaves]
      exact Nat.le_add_right _ _

/-- **A run that sets out on time** is on time at its next place. -/
theorem onTime_of_setsOut {done : List (Dispatch × Nat)} {told : List Effect}
    (h : SetsOut s.panel p done told place es) (quiet : events told = [])
    (ht : Timed s x signal es y) (unanswered : signal.answer? = none) (untimed : signal ≠ .tick)
    (located : Located p y.phase place) (aw : y.phase.Awaits y.onWay)
    (clock : x.clock = s.due start done) :
    OnTime s p start place y ∧ place.published s start
      = s.timetable start [] done ++ (events es).map (Prod.mk x.clock) := by
  have hclock := ht.clock.trans clock
  have hdue := ht.due unanswered
  have announces : ∀ d, events (announcement s.panel p d ++ told)
      = [.stepAdvanced (s.panel.words d)] := by
    intro d
    rw [events_append, quiet]
    rfl
  rw [clock]
  cases h with
  | finishes all =>
    rw [events_append, quiet]
    exact ⟨all, rfl⟩
  | @calls id output power =>
    have hleaves : Place.leaves s start ⟨done, .calling id output power⟩ = x.clock + s.latency := by
      rw [clock]
      rfl
    rw [events_append, announces]
    refine ⟨onTime_of_calling located ?_ ht.stopped ?_, rfl⟩
    · rw [hdue, List.foldl_append, hleaves]
      rfl
    · rw [hleaves, ht.clock]
      exact Nat.le_add_right _ _
  | @draws id span =>
    rw [List.append_nil, announces]
    exact ⟨hclock, rfl⟩
  | @waits id span n place effects settled begins =>
    obtain ⟨hontime, hnone, hpublished⟩ :=
      onTime_of_waits begins located aw hclock fun hphase => by
        rw [ht.timer untimed hphase, List.foldl_append, ht.clock]
    rw [events_append, announces, hnone]
    exact ⟨hontime, hpublished⟩

/-- **A leg leads from one place to the next on time**, and what it publishes is the next part of
the timetable. -/
theorem onTime_of_leg (h : Leg s.panel p place signal place' es) (ht : Timed s x signal es y)
    (located : Located p y.phase place') (aw : y.phase.Awaits y.onWay)
    (hx : OnTime s p start place x) (calm : signal.isHalt = false)
    (confirmed : ∀ fault, signal ≠ .answered (.error fault)) :
    OnTime s p start place' y
      ∧ place'.published s start
        = place.published s start ++ (events es).map (Prod.mk x.clock) := by
  cases h with
  | @refuses t q =>
    refine ⟨?_, (List.append_nil _).symm⟩
    obtain ⟨done, stage⟩ := place
    cases stage with
    | calling id output power =>
      obtain ⟨hdue, -, hle⟩ := hx
      exact onTime_of_calling located ((ht.due rfl).trans hdue) ht.stopped (ht.clock ▸ hle)
    | waiting id span n m =>
      obtain ⟨htimer, -, hle⟩ := hx
      exact onTime_of_waiting located aw
        (fun hphase => (ht.timer Signal.noConfusion hphase).trans htimer) (ht.clock ▸ hle)
    | ended => exact hx
    | drawing id span => exact ht.clock.trans hx
    | between => exact ht.clock.trans hx
  | draws drawn begins =>
    obtain ⟨hontime, hnone, hpublished⟩ :=
      onTime_of_waits begins located aw (ht.clock.trans hx) fun hphase => by
        rw [ht.timer Signal.noConfusion hphase, ht.clock]
    refine ⟨hontime, ?_⟩
    rw [hnone, hpublished]
    exact (List.append_nil _).symm
  | @confirms done id output power =>
    obtain ⟨hdue, -, hle⟩ := hx
    have hclock := Nat.le_antisymm hle (ht.landed rfl hdue)
    refine ⟨(ht.clock.trans hclock).trans Place.leaves_confirmed.symm, ?_⟩
    exact Place.published_confirmed.trans (List.append_nil _).symm
  | fails => exact absurd rfl (confirmed _)
  | ticks pos lt =>
    obtain ⟨htimer, -, hle⟩ := hx
    obtain ⟨hge, hnext⟩ := ht.rung rfl htimer
    have hclock := Nat.le_antisymm hle hge
    refine ⟨onTime_of_waiting located aw (fun hphase => ?_) ?_, ?_⟩
    · rw [hnext hphase, Place.leaves_ticked lt]
      rfl
    · rw [Place.leaves_ticked lt, ht.clock]
      exact Nat.le_trans hle (Nat.le_add_right _ _)
    · rw [Place.published_ticked lt, ← hclock]
      rfl
  | rings pos =>
    obtain ⟨htimer, -, hle⟩ := hx
    obtain ⟨hge, -⟩ := ht.rung rfl htimer
    have hclock := Nat.le_antisymm hle hge
    refine ⟨(ht.clock.trans hclock).trans (Place.leaves_rung pos).symm, ?_⟩
    rw [Place.published_rung pos, ← hclock]
    rfl
  | proceeds goes =>
    obtain ⟨hontime, hpublished⟩ :=
      onTime_of_setsOut goes rfl ht rfl Signal.noConfusion located aw hx
    exact ⟨hontime, hpublished⟩
  | cancels ends sends => cases ends <;> cases calm

/-- What a run waits for is due when it leaves its place. -/
theorem nextDue_of_onTime (h : OnTime s p start place x) (located : Located p x.phase place)
    (waits : x.phase.takesTime = true) :
    x.nextDue = some (place.leaves s start) ∧ x.clock ≤ place.leaves s start := by
  generalize x.phase = phase at located waits
  cases located with
  | calling within =>
    obtain ⟨hdue, htimer, hle⟩ := h
    obtain ⟨c, hc, hcdue⟩ := Option.map_eq_some_iff.mp hdue
    refine ⟨?_, hle⟩
    simp only [nextDue, hc, htimer, hcdue]
  | waiting within lasts pos le =>
    obtain ⟨htimer, hcall, hle⟩ := h
    refine ⟨?_, hle⟩
    simp only [nextDue, hcall, htimer]
  | ended inactive upTo lasting =>
    cases phase with
    | calling run output power => cases inactive
    | waiting run n => cases inactive
    | _ => cases waits
  | _ => cases waits

/-- **A run stays on time** while it notices nothing, if time is kept. -/
theorem onTime_of_unnoticed (next : Happens s drift x none y) (keeps : KeepsTime x y)
    (located : Located p x.phase place) (hx : OnTime s p start place x) :
    OnTime s p start place y := by
  obtain ⟨hcall, htimer, -⟩ := next.still
  have hnext := nextDue_of_onTime hx located
  -- where time may pass at all, it passes until the run leaves its place
  have waits : x.clock ≤ place.leaves s start → y.clock ≤ place.leaves s start := by
    intro hle
    rcases keeps with same | ⟨hwaits, hkeeps⟩
    · exact same ▸ hle
    · exact hkeeps _ (hnext hwaits).1
  generalize hphase : x.phase = phase at located
  have stands : phase.takesTime = false → y.clock = x.clock := by
    intro hstands
    refine keeps.resolve_right fun hwaits => ?_
    rw [hphase, hstands] at hwaits
    exact Bool.noConfusion hwaits.1
  cases located with
  | drawing within lt => exact (stands rfl).trans hx
  | calling within =>
    obtain ⟨hdue, htimer', hle⟩ := hx
    exact ⟨hcall ▸ hdue, htimer.trans htimer', waits hle⟩
  | waiting within lasts pos le =>
    obtain ⟨htimer', hcall', hle⟩ := hx
    exact ⟨htimer.trans htimer', hcall.trans hcall', waits hle⟩
  | between behind => exact (stands rfl).trans hx
  | ended inactive upTo lasting => exact hx

/-- **How a timely run stands** at a place. -/
structure Punctual (s : Surroundings σ) (good : σ → Prop) (p : Program) (x : Simulation σ)
    (signals : List Signal) (z : Simulation σ) (place : Place) : Prop where
  /-- Where the run is. -/
  located : Located p z.phase place
  /-- It has used the lengths that were drawn. -/
  drawn : drawnLengths place.begun = draws signals
  /-- It is on time. -/
  onTime : OnTime s p x.clock place z
  /-- It has published what the timetable has up to its place. -/
  timeline : z.timeline = x.timeline ++ place.published s x.clock
  /-- The command on its way is its own. -/
  awaits : z.phase.Awaits z.onWay
  /-- Nothing goes wrong. -/
  good : good z.world

/-- A punctual run stays where it is while it notices nothing. -/
theorem Punctual.unnoticed (ob : Obliging s drift good) (h : Punctual s good p x signals y place)
    (next : Happens s drift y none z) (keeps : KeepsTime y z) :
    Punctual s good p x signals z place where
  located := next.unnoticed.phase ▸ h.located
  drawn := h.drawn
  onTime := onTime_of_unnoticed next keeps h.located h.onTime
  timeline := next.still.2.2.trans h.timeline
  awaits := next.course.awaits h.awaits
  good := (ob.happens h.good next).1

/-- **A punctual run goes on to its next place on time**, unless it is stopped. -/
theorem Punctual.noticed (ob : Obliging s drift good) (h : Punctual s good p x signals y place)
    (active : y.phase.isActive = true) (next : Happens s drift y (some signal) z)
    (calm : signal.isHalt = false) :
    ∃ place' es, Leg s.panel p place signal place' es
      ∧ Punctual s good p x (signals ++ [signal]) z place' := by
  obtain ⟨es, hn⟩ := next.noticed
  obtain ⟨place', hleg, hplace'⟩ := h.located.leg active hn.step
  obtain ⟨new, hbegun, hdrawn⟩ := hleg.begun
  have haw : z.phase.Awaits z.onWay := next.course.awaits h.awaits
  have hworld := ob.happens h.good next
  obtain ⟨hontime, hpublished⟩ := onTime_of_leg hleg (next.timed hn) hplace' haw h.onTime calm
    fun fault hfault => hworld.2 fault (hfault ▸ rfl)
  refine ⟨place', es, hleg, hplace', ?_, hontime, ?_, haw, hworld.1⟩
  · rw [hbegun, drawnLengths_append, h.drawn, hdrawn]
    exact (draws_concat signals signal).symm
  · rw [(next.timed hn).timeline, h.timeline, hpublished, List.append_assoc]

/-- **A timely run that nothing disturbs is punctual.** -/
theorem Timely.punctual (ob : Obliging s drift good) (h : Timely s drift t p x signals z)
    (ne : p.steps ≠ []) (hgood : good x.world) (aw : x.phase.Awaits x.onWay)
    (calm : halted signals = false) : ∃ place, Punctual s good p x signals z place := by
  induction h with
  | @begins rest y idle head took =>
    have next : Happens s drift x (some (.request (.start t p))) y := .takes head took
    obtain ⟨es, hn⟩ := next.noticed
    obtain ⟨place, hsets, hplace⟩ := Located.start ne (idle ▸ hn.step)
    obtain ⟨new, hbegun, hdrawn⟩ := hsets.begun
    have haw : y.phase.Awaits y.onWay := next.course.awaits aw
    obtain ⟨hontime, hpublished⟩ := onTime_of_setsOut hsets rfl (next.timed hn) rfl
      Signal.noConfusion hplace haw rfl
    refine ⟨place, hplace, ?_, hontime, ?_, haw, (ob.happens hgood next).1⟩
    · rw [hbegun, List.nil_append, hdrawn]
      rfl
    · rw [(next.timed hn).timeline, hpublished]
      rfl
  | @goesOn signals signal y z before active next keeps ih =>
    rw [halted, List.any_append, Bool.or_eq_false_iff] at calm
    obtain ⟨place, hy⟩ := ih calm.1
    cases signal with
    | none =>
      refine ⟨place, ?_⟩
      rw [Option.toList_none, List.append_nil]
      exact hy.unnoticed ob next keeps
    | some signal =>
      obtain ⟨place', es, -, hz⟩ :=
        hy.noticed ob active next ((Bool.or_false _).symm.trans calm.2)
      exact ⟨place', hz⟩

end Switchboard.Engine.Simulation
