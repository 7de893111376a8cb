import Switchboard.Proofs.Answers
import Switchboard.Proofs.Punctuality

/-!
# The schedule of a run that nothing disturbs

A timely run that is not stopped has, at any instant, published what its schedule has up to then
(`Punctual.published`), whatever the lengths are that it draws. That alone would also hold of a
run that never comes to its end. But a run to whose engine somebody holds on, and which nobody
waits to stop, can always go on: once it has refused the starts that wait, and time has passed
if it waits for something, it makes another leg (`Undisturbed.advances`). Each leg leaves less
ahead of it, so that it publishes all of its schedule and is finished (`Undisturbed.ends`).

The simulation, when it is let run, makes such runs by itself (`Timely.advance`).
-/

namespace Switchboard.Engine

variable {σ : Type}

namespace Simulation

variable {s : Surroundings σ} {drift : σ → σ → Prop} {good : σ → Prop} {x y z : Simulation σ}
  {signal : Signal} {signals : List Signal} {t : Ticket} {p : Program} {place : Place}

/-! ## A run that is left alone comes to its end -/

/-- **Nobody disturbs an engine**: somebody holds on to it, and all that waits are requests to
run programs. -/
structure Attended (z : Simulation σ) : Prop where
  /-- Somebody holds on to it. -/
  held : z.held = true
  /-- Nobody waits to stop it. -/
  starts : ∀ r ∈ z.pending, ∃ t q, r = .start t q

/-- What an engine notices that nobody disturbs does not end a run, and nobody disturbs it
then. -/
theorem Attended.noticed (h : Attended y) (next : Happens s drift y (some signal) z) :
    Attended z ∧ signal.isHalt = false := by
  have hk := next.keeps
  refine ⟨⟨hk.held.trans h.held, fun r hr => h.starts r ?_⟩, ?_⟩
  · rw [hk.pending]
    exact List.mem_append_right _ hr
  · cases next with
    | @takes r rest z head fed =>
      obtain ⟨t, q, rfl⟩ := h.starts r (List.mem_append_left _ (head ▸ List.mem_cons_self))
      rfl
    | abandons alone fed =>
      have hheld := (of_isAbandoned alone).1
      rw [h.held] at hheld
      cases hheld
    | _ => rfl

/-- **A punctual run that nobody disturbs.** -/
structure Undisturbed (s : Surroundings σ) (drift : σ → σ → Prop) (good : σ → Prop) (t : Ticket)
    (p : Program) (x : Simulation σ) (signals : List Signal) (z : Simulation σ) (place : Place) :
    Prop where
  /-- Everything has come when it was due. -/
  timely : Timely s drift t p x signals z
  /-- The run was not stopped. -/
  calm : halted signals = false
  /-- It is where it should be. -/
  punctual : Punctual s good p x signals z place
  /-- Nobody disturbs it. -/
  attended : Attended z

/-- **It notices something**, and goes on from there. -/
theorem Undisturbed.noticed (ob : Obliging s drift good)
    (h : Undisturbed s drift good t p x signals y place) (active : y.phase.isActive = true)
    (next : Happens s drift y (some signal) z) :
    ∃ place' es, Leg s.panel p place signal place' es
      ∧ Undisturbed s drift good t p x (signals ++ [signal]) z place' := by
  obtain ⟨hz, calm⟩ := h.attended.noticed next
  obtain ⟨es, hn⟩ := next.noticed
  obtain ⟨place', es', hleg, hpunctual⟩ := h.punctual.noticed ob active next calm
  refine ⟨place', es', hleg, h.timely.goesOn active next (.inl (next.timed hn).clock), ?_,
    hpunctual, hz⟩
  rw [halted, List.any_append, ← halted, h.calm, List.any_cons, calm]
  rfl

/-- **Time passes until what it waits for is due.** -/
theorem Undisturbed.passes (ob : Obliging s drift good)
    (h : Undisturbed s drift good t p x signals y place) (waits : y.phase.takesTime = true) :
    ∃ z, Undisturbed s drift good t p x signals z place ∧ z.phase = y.phase
      ∧ z.clock = place.leaves s x.clock := by
  obtain ⟨hnext, hle⟩ := nextDue_of_onTime h.punctual.onTime h.punctual.located waits
  have active : y.phase.isActive = true := by
    generalize y.phase = phase at waits
    cases phase with
    | calling run output power => rfl
    | waiting run n => rfl
    | _ => cases waits
  have next : Happens s drift y none { y with clock := place.leaves s x.clock } := .passes _ hle
  have keeps : KeepsTime y { y with clock := place.leaves s x.clock } :=
    keepsTime_of_nextDue waits hnext (Nat.le_refl _)
  have htimely := h.timely.goesOn active next keeps
  rw [Option.toList_none, List.append_nil] at htimely
  exact ⟨_, ⟨htimely, h.calm, h.punctual.unnoticed ob next keeps, h.attended.held,
    h.attended.starts⟩, rfl, rfl⟩

/-- **The requests that wait between two steps are refused**, one after the other. -/
theorem Undisturbed.drains (ob : Obliging s drift good) {done : List (Dispatch × Nat)}
    (h : Undisturbed s drift good t p x signals y ⟨done, .between⟩) :
    ∃ later z, Undisturbed s drift good t p x (signals ++ later) z ⟨done, .between⟩
      ∧ z.queue = [] := by
  generalize hcount : y.pending.length = count
  induction count using Nat.strongRecOn generalizing signals y with
  | _ count ih =>
    cases hq : y.queue with
    | nil => exact ⟨[], y, (List.append_nil signals).symm ▸ h, hq⟩
    | cons r rest =>
      obtain ⟨run, hphase⟩ := h.punctual.located.of_between
      obtain ⟨t', q, rfl⟩ := h.attended.starts r (List.mem_append_left _ (hq ▸ List.mem_cons_self))
      have active : y.phase.isActive = true := hphase ▸ rfl
      obtain ⟨z, next⟩ : ∃ z, Happens s drift y (some (.request (.start t' q))) z :=
        (Offers.request hq).exists_happens (by rw [hphase]; rfl)
      obtain ⟨place', es, hleg, hz⟩ := h.noticed ob active next
      cases hleg with
      | cancels ends sends => cases ends
      | refuses =>
        have hshorter : z.pending.length < count := by
          rw [← hcount, next.keeps.pending, List.length_append]
          exact Nat.lt_add_of_pos_left Nat.one_pos
        obtain ⟨later, w, hw, hempty⟩ := ih _ hshorter hz rfl
        rw [List.append_assoc] at hw
        exact ⟨_, w, hw, hempty⟩

/-- **It is further on** when it has noticed something that is not a request. -/
theorem Undisturbed.goesOn (ob : Obliging s drift good)
    (h : Undisturbed s drift good t p x signals y place) (active : y.phase.isActive = true)
    (next : Happens s drift y (some signal) z) (untaken : signal.request? = none) :
    ∃ place', Undisturbed s drift good t p x (signals ++ [signal]) z place'
      ∧ Place.Further p place' place := by
  obtain ⟨place', es, hleg, hz⟩ := h.noticed ob active next
  refine ⟨place', hz, hleg.further hz.punctual.located.length_le ?_ (h.attended.noticed next).2⟩
  rintro t q rfl
  cases untaken

/-- **A run that nobody disturbs gets further on**: once it has refused the starts that wait, and
time has passed if it waits for something, it makes another leg. -/
theorem Undisturbed.advances (ob : Obliging s drift good) (within : s.DrawsWithin)
    (h : Undisturbed s drift good t p x signals y place) (active : y.phase.isActive = true) :
    ∃ later z place', Undisturbed s drift good t p x (signals ++ later) z place'
      ∧ Place.Further p place' place := by
  have hlocated := h.punctual.located
  generalize hphase : y.phase = phase at hlocated active
  cases hlocated with
  | @drawing run done id min max inside lt =>
    obtain ⟨z, next⟩ : ∃ z, Happens s drift y _ z := (Offers.drawn hphase).exists_happens
      (within.listens hphase (Nat.le_of_lt lt) y.world)
    obtain ⟨place', hz, hfurther⟩ := h.goesOn ob (hphase ▸ rfl) next rfl
    exact ⟨_, z, place', hz, hfurther⟩
  | @calling run done id output power inside =>
    obtain ⟨v, hv, hphase', hclock⟩ := h.passes ob (hphase ▸ rfl)
    obtain ⟨c, hc, hdue⟩ := Option.map_eq_some_iff.mp hv.punctual.onTime.1
    have listens : ∀ a, (step s.panel v.phase (.answered a)).isSome = true := by
      intro a
      rw [hphase', hphase]
      cases a <;> rfl
    obtain ⟨z, next⟩ : ∃ z, Happens s drift v _ z :=
      (Offers.answered hc (Nat.le_of_eq (hdue.trans hclock.symm))).exists_happens (listens _)
    obtain ⟨place', hz, hfurther⟩ := hv.goesOn ob (hphase' ▸ hphase ▸ rfl) next rfl
    exact ⟨_, z, place', hz, hfurther⟩
  | @waiting run done id span n m inside lasts pos le =>
    obtain ⟨v, hv, hphase', hclock⟩ := h.passes ob (hphase ▸ rfl)
    have listens : (step s.panel v.phase .tick).isSome = true := by
      rw [hphase', hphase]
      dsimp only [step]
      split
      · rfl
      · rfl
    obtain ⟨z, next⟩ : ∃ z, Happens s drift v _ z :=
      (Offers.tick hv.punctual.onTime.1 (Nat.le_of_eq hclock.symm)).exists_happens listens
    obtain ⟨place', hz, hfurther⟩ := hv.goesOn ob (hphase' ▸ hphase ▸ rfl) next rfl
    exact ⟨_, z, place', hz, hfurther⟩
  | @between run done behind =>
    obtain ⟨later, v, hv, hempty⟩ := h.drains ob
    obtain ⟨run', hphase'⟩ := hv.punctual.located.of_between
    have hheld : v.isAbandoned = false := by
      rw [isAbandoned, hv.attended.held]
      rfl
    obtain ⟨z, next⟩ : ∃ z, Happens s drift v _ z :=
      (Offers.quiet hempty hheld).exists_happens (by rw [hphase']; rfl)
    obtain ⟨place', hz, hfurther⟩ := hv.goesOn ob (hphase' ▸ rfl) next rfl
    rw [List.append_assoc] at hz
    exact ⟨_, z, place', hz, hfurther⟩
  | ended inactive upTo lasting =>
    rw [inactive] at active
    cases active

/-- **A run that nobody disturbs comes to its end.** -/
theorem Undisturbed.ends (ob : Obliging s drift good) (within : s.DrawsWithin)
    (h : Undisturbed s drift good t p x signals y place) :
    ∃ later z place', Undisturbed s drift good t p x (signals ++ later) z place'
      ∧ z.phase.isActive = false := by
  induction place using (Place.wellFounded_further p).induction generalizing signals y with
  | _ place ih =>
    cases hactive : y.phase.isActive with
    | false => exact ⟨[], y, place, (List.append_nil signals).symm ▸ h, hactive⟩
    | true =>
      obtain ⟨later, z, place', hz, hfurther⟩ := h.advances ob within hactive
      obtain ⟨later', w, place'', hw, hended⟩ := ih place' hfurther hz
      rw [List.append_assoc] at hw
      exact ⟨_, w, place'', hw, hended⟩

/-! ## The schedule of a run -/

/-- A run that is on time has not missed the instant at which it leaves its place. -/
theorem clock_le_leaves (h : OnTime s p start place x) (going : place.stage ≠ .ended) :
    x.clock ≤ place.leaves s start := by
  obtain ⟨done, stage⟩ := place
  cases stage with
  | drawing id span => exact Nat.le_of_eq h
  | calling id output power => exact h.2.2
  | waiting id span n m => exact h.2.2
  | between => exact Nat.le_of_eq h
  | ended => exact absurd rfl going

/-- **A punctual run has published the first part of its schedule**, and none of the rest is
overdue. -/
theorem Punctual.published {plan : List (Dispatch × Nat)}
    (h : Punctual s good p x signals z place) (hplan : Plan p.route signals plan) :
    ∃ published ahead, s.schedule x.clock plan = published ++ ahead
      ∧ z.timeline = x.timeline ++ published ∧ (∀ e ∈ ahead, z.clock ≤ e.1)
      ∧ (z.phase.isActive = true ↔ ahead ≠ []) := by
  have hover : place.stage = .ended → place.done.map Prod.fst = p.route := by
    have hontime := h.onTime
    obtain ⟨done, stage⟩ := place
    rintro rfl
    exact hontime
  obtain ⟨ahead, hschedule, hle, hnil⟩ := h.located.schedule_eq hplan h.drawn hover
  refine ⟨_, ahead, hschedule, h.timeline, fun e he => ?_, ?_⟩
  · have going : place.stage ≠ .ended := fun hstage => by
      rw [hnil.mp hstage] at he
      cases he
    exact Nat.le_trans (clock_le_leaves h.onTime going) (hle e he)
  · rw [h.located.isActive_iff, ne_eq, hnil]

/-- **A command takes effect when it is due**, which is the latency of the controller after
its dispatch began. -/
theorem Punctual.lands {plan : List (Dispatch × Nat)} {a : Answer}
    (ob : Obliging s drift good) (h : Punctual s good p x signals y place)
    (active : y.phase.isActive = true) (hplan : Plan p.route signals plan)
    (next : Happens s drift y (some (.answered a)) z) :
    ∃ i id output power, plan[i]? = some (.relay id output power, 0)
      ∧ y.onWay = some (output, power) ∧ y.clock = s.due x.clock (plan.take i) + s.latency := by
  obtain ⟨es, hn⟩ := next.noticed
  obtain ⟨place', hleg, -⟩ := h.located.leg active hn.step
  obtain ⟨rest, rfl⟩ := hplan.begun_prefix h.located.begun.1 h.located.begun.2 h.drawn
  cases hleg with
  | @confirms done id output power =>
    obtain ⟨hdue, -, hle⟩ := h.onTime
    obtain ⟨run, hphase⟩ := h.located.of_calling
    have haw := h.awaits
    rw [hphase] at haw
    refine ⟨done.length, id, output, power, ?_, haw, ?_⟩
    · rw [Place.begun_calling, List.append_assoc, List.getElem?_append_right (Nat.le_refl _),
        Nat.sub_self]
      rfl
    · rw [Place.begun_calling, List.append_assoc, List.take_left]
      exact Nat.le_antisymm hle ((next.timed hn).landed rfl hdue)
  | fails => exact absurd rfl ((ob.happens h.good next).2 _)
  | cancels ends sends => cases ends

/-- **How a run keeps to its schedule**, in the state that it has come to since the one in which
its start was taken. -/
structure KeepsSchedule (s : Surroundings σ) (drift : σ → σ → Prop) (t : Ticket) (p : Program)
    (x : Simulation σ) (signals : List Signal) (z : Simulation σ) : Prop where
  /-- There is a plan for it. -/
  planned : ∃ plan, Plan p.expand signals plan
  /-- Whatever the plan is, the run has published the first part of its schedule; nothing of the
  rest is overdue, and there is a rest exactly if the run has not ended. -/
  published : ∀ {plan}, Plan p.expand signals plan → ∃ published ahead,
    s.schedule x.clock plan = published ++ ahead ∧ z.timeline = x.timeline ++ published
      ∧ (∀ e ∈ ahead, z.clock ≤ e.1) ∧ (z.phase.isActive = true ↔ ahead ≠ [])
  /-- A command takes effect when it has been on its way for as long as the controller takes. -/
  lands : ∀ {plan a w}, Plan p.expand signals plan → z.phase.isActive = true →
    Happens s drift z (some (.answered a)) w → ∃ i id output power,
      plan[i]? = some (.relay id output power, 0) ∧ z.onWay = some (output, power)
        ∧ z.clock = s.due x.clock (plan.take i) + s.latency
  /-- If somebody holds on to the engine and nobody waits to stop it, the run can go on in time
  until it has published all of its schedule. -/
  ends : z.held = true → (∀ r ∈ z.pending, ∃ t q, r = .start t q) → ∃ later w plan,
    Timely s drift t p x (signals ++ later) w ∧ halted (signals ++ later) = false
      ∧ w.phase.isActive = false ∧ Plan p.expand (signals ++ later) plan
      ∧ w.timeline = x.timeline ++ s.schedule x.clock plan

/-- **A run that nothing disturbs keeps to its schedule**, if the counts of its program fit, the
controller confirms every command and everything comes when it is due. A dispatch is announced when
those before it are over, each output that they switch having taken the latency of the controller
and each second that they wait the length of a second; the seconds of a wait are counted from its
announcement; and when all dispatches are over, the run is finished. It makes no difference which
lengths are drawn and how many other starts are taken meanwhile, all of which are refused. -/
theorem keeps_schedule {world : σ} {before : List Signal} (ob : Obliging s drift good)
    (within : s.DrawsWithin) (hgood : good world) (reach : Course s drift { world } before x)
    (run : Timely s drift t p x signals z) (ne : p.steps ≠ []) (fits : p.CountsFit)
    (calm : halted signals = false) : KeepsSchedule s drift t p x signals z := by
  have hroute := fits.route_eq
  have haw : x.phase.Awaits x.onWay := reach.awaits rfl
  have hx : good x.world := ob.course hgood reach
  obtain ⟨place, hz⟩ := run.punctual ob ne hx haw calm
  refine ⟨hroute ▸ exists_plan hz.located.begun.1 hz.located.begun.2 hz.drawn,
    fun plan => hz.published (hroute ▸ plan),
    fun plan active next => hz.lands ob active (hroute ▸ plan) next, fun held starts => ?_⟩
  have hundisturbed : Undisturbed s drift good t p x signals z place :=
    ⟨run, calm, hz, held, starts⟩
  obtain ⟨later, w, place', hw, hended⟩ := hundisturbed.ends ob within
  obtain ⟨hbegun, hlasting⟩ := hw.punctual.located.begun
  obtain ⟨plan, hplan⟩ := exists_plan hbegun hlasting hw.punctual.drawn
  obtain ⟨published, ahead, hschedule, htimeline, -, hactive⟩ := hw.punctual.published hplan
  have hahead : ahead = [] := by
    by_contra hne
    rw [hactive.mpr hne] at hended
    cases hended
  rw [hahead, List.append_nil] at hschedule
  exact ⟨later, w, plan, hw.timely, hw.calm, hended, hroute ▸ hplan, hschedule ▸ htimeline⟩

/-! ## Runs of the simulation -/

/-- **The simulation lets time pass only while a run waits for something.** -/
theorem takesTime_of_turn_eq_none (within : s.DrawsWithin)
    (h : Punctual s good p x signals y place) (active : y.phase.isActive = true)
    (none : turn s y = none) : y.phase.takesTime = true := by
  -- where a run waits for nothing, the machine takes whatever it is given
  have absurd_of_feed : ∀ {v signal}, (step s.panel y.phase signal).isSome = true →
      v.phase = y.phase → feed s v signal ≠ Option.none := by
    intro v signal listens hphase hnone
    rw [← hphase] at listens
    have hsome := isSome_feed listens
    rw [hnone] at hsome
    cases hsome
  have hlocated := h.located
  unfold turn at none
  generalize hphase : y.phase = phase at hlocated none
  cases hlocated with
  | @drawing run done id min max inside lt =>
    exact absurd none
      (absurd_of_feed (within.listens hphase (Nat.le_of_lt lt) y.world) hphase.symm)
  | @between run done behind =>
    simp only [Option.orElse_eq_or, Option.or_eq_none_iff] at none
    obtain ⟨-, hnone⟩ := none
    split at hnone
    · exact absurd hnone (absurd_of_feed (by rw [hphase]; rfl) rfl)
    · exact absurd hnone (absurd_of_feed (by rw [hphase]; rfl) rfl)
  | calling inside => rfl
  | waiting inside lasts pos le => rfl
  | ended inactive upTo lasting =>
    rw [hphase, inactive] at active
    cases active

/-- **The simulation makes timely runs.** When it lets time pass during a run, the run goes on in
time, until it has ended or no more time is to pass. -/
theorem Timely.advance (ob : Obliging s drift good) (within : s.DrawsWithin)
    (enough : Simulation σ → Bool) {target : Nat} (turns : Nat)
    (h : Timely s drift t p x signals y) (hy : Punctual s good p x signals y place)
    (le : y.clock ≤ target) :
    ∃ later z, Timely s drift t p x (signals ++ later) z
      ∧ (Simulation.advance s enough target turns y = z
        ∨ z.phase.isActive = false ∧ ∃ left, Simulation.advance s enough target turns y
          = Simulation.advance s enough target left z) := by
  induction turns generalizing signals y place with
  | zero => exact ⟨[], y, (List.append_nil signals).symm ▸ h, .inl rfl⟩
  | succ turns ih =>
    cases hactive : y.phase.isActive with
    | false => exact ⟨[], y, (List.append_nil signals).symm ▸ h, .inr ⟨hactive, _, rfl⟩⟩
    | true =>
      rw [Simulation.advance]
      cases hturn : turn s y with
      | some z =>
        have hclock := turn_clock hturn
        obtain ⟨signal, next⟩ : ∃ signal, Happens s drift y signal z := turn_happens hturn
        have hz := h.goesOn hactive next (.inl hclock)
        cases signal with
        | none =>
          rw [Option.toList_none, List.append_nil] at hz
          exact ih hz (hy.unnoticed ob next (.inl hclock)) (hclock ▸ le)
        | some signal =>
          cases hhalts : signal.isHalt with
          | true =>
            obtain ⟨es, hn⟩ := next.noticed
            obtain ⟨place', hleg, hplace'⟩ := hy.located.leg hactive hn.step
            have hended : ¬z.phase.isActive = true := fun hz =>
              hplace'.isActive_iff.mp hz (hleg.ended_of_isHalt hhalts)
            exact ⟨_, z, hz, .inr ⟨Bool.eq_false_iff.mpr hended, _, rfl⟩⟩
          | false =>
            obtain ⟨place', es, -, hz'⟩ := hy.noticed ob hactive next hhalts
            obtain ⟨later, w, hw, hadvance⟩ := ih hz hz' (hclock ▸ le)
            rw [List.append_assoc] at hw
            exact ⟨_, w, hw, hadvance⟩
      | none =>
        have hwaits := takesTime_of_turn_eq_none within hy hactive hturn
        obtain ⟨hnext, hle⟩ := nextDue_of_onTime hy.onTime hy.located hwaits
        -- time passes to some instant, and nothing is overdue then
        have passes : ∀ {instant}, y.clock ≤ instant → instant ≤ place.leaves s x.clock →
            Timely s drift t p x signals { y with clock := instant }
              ∧ Punctual s good p x signals { y with clock := instant } place := by
          intro instant hge hdue
          have next : Happens s drift y none { y with clock := instant } := .passes instant hge
          have keeps : KeepsTime y { y with clock := instant } :=
            keepsTime_of_nextDue hwaits hnext hdue
          have hz := h.goesOn hactive next keeps
          rw [Option.toList_none, List.append_nil] at hz
          exact ⟨hz, hy.unnoticed ob next keeps⟩
        rw [hnext]
        dsimp only
        split
        · exact ⟨[], y, (List.append_nil signals).symm ▸ h, .inl rfl⟩
        · split
          · rename_i hreached
            obtain ⟨hz, hz'⟩ := passes hle (Nat.le_refl _)
            exact ih hz hz' hreached
          · rename_i hbeyond
            obtain ⟨hz, -⟩ := passes le (Nat.le_of_lt (Nat.lt_of_not_le hbeyond))
            exact ⟨[], _, (List.append_nil signals).symm ▸ hz, .inl rfl⟩

end Simulation

/-! ## A rig in order -/

/-- **No failure is planned for a rig**: its board carries out every command, and the answers are
the truth. -/
def Rig.IsInOrder (r : Rig) : Prop := r.planned = [] ∧ r.board.faulty = .same false

theorem Rig.IsInOrder.switch {r : Rig} (h : r.IsInOrder) (number : Nat) (output : Relay)
    (power : Power) : (Rig.switch number output power r).1 = .ok ()
      ∧ (Rig.switch number output power r).2.IsInOrder := by
  obtain ⟨hplanned, hfaulty⟩ := h
  have hcommand : r.board.command output power
      = (.ok (), { r.board with
          commands := (output, power) :: r.board.commands
          outputs := r.board.outputs.put output power }) := by
    simp [Board.command, hfaulty]
  simp only [Rig.switch, hcommand, hplanned, List.lookup_nil]
  exact ⟨trivial, rfl, hfaulty⟩

theorem Rig.IsInOrder.draw {r : Rig} (h : r.IsInOrder) (lo hi : Nat) :
    (Rig.draw lo hi r).2.IsInOrder := by
  rcases hroll : r.dice.roll lo hi with ⟨n, dice⟩
  simp only [Rig.draw, hroll]
  exact h

namespace Simulation

/-- **A rig in order is obliging**, whatever its labels and its speed are. -/
theorem obliging_rig (panel : Panel) (tickPeriod latency : Nat) :
    Obliging (Rig.surroundings panel tickPeriod latency) (fun _ _ => False) Rig.IsInOrder where
  confirms h := (h.switch _ _ _).1
  switch h := (h.switch _ _ _).2
  record {clock output power r} h := by
    show (Rig.record clock output power r).IsInOrder
    unfold Rig.record
    split
    · exact h
    · exact h
  draw h := h.draw _ _
  drift h may := may.elim

/-- A run of `blink` on a board that takes 20 milliseconds for each command, in the middle of its
first wait. A second start has been refused by then. -/
theorem keeps_schedule_blink :
    ∃ x signals z, Timely (Rig.surroundings .unlabelled 1000 20) (fun _ _ => False) 0 blink x
        signals z
      ∧ halted signals = false ∧ z.clock = 520
      ∧ z.timeline = [(0, .stepAdvanced "Relay 1: activate"), (20, .stepAdvanced "waiting")]
      ∧ (Rig.surroundings .unlabelled 1000 20).schedule 0
          (blink.expand.map fun d => (d, shortest d))
        = [(0, .stepAdvanced "Relay 1: activate"), (20, .stepAdvanced "waiting"), (1020, .tick 0),
          (1020, .stepAdvanced "Relay 1: activate"), (1040, .stepAdvanced "waiting"),
          (2040, .tick 0), (2040, .finished)]
      ∧ KeepsSchedule (Rig.surroundings .unlabelled 1000 20) (fun _ _ => False) 0 blink x signals
        z := by
  have within : (Rig.surroundings .unlabelled 1000 20).DrawsWithin :=
    fun lo hi r le => ⟨Dice.le_roll lo hi r.dice, Dice.roll_le lo hi r.dice le⟩
  have reach : Course (Rig.surroundings .unlabelled 1000 20) (fun _ _ => False) { world := {} }
      [] _ := Course.refl.snoc (.asks (.start 0 blink) (.inl rfl))
  have h₁ : Timely (Rig.surroundings .unlabelled 1000 20) (fun _ _ => False) 0 blink
      { world := {}, queue := [.start 0 blink] } [] _ := .begins rfl rfl rfl
  have h₂ := h₁.goesOn rfl (.passes 20 (Nat.zero_le 20))
    (keepsTime_of_nextDue rfl rfl (Nat.le_refl 20))
  have h₃ := h₂.goesOn rfl (.lands rfl rfl) (.inl rfl)
  have h₄ := h₃.goesOn rfl (.goesOn rfl rfl rfl) (.inl rfl)
  have h₅ := h₄.goesOn rfl (.asks (.start 1 blink) (.inl rfl)) (.inl rfl)
  have h₆ := h₅.goesOn rfl (.takes rfl rfl) (.inl rfl)
  have h₇ := h₆.goesOn rfl (.passes 520 (Nat.le_add_right 20 500))
    (keepsTime_of_nextDue rfl rfl (Nat.le_add_right 520 500))
  exact ⟨_, _, _, h₇, rfl, rfl, rfl, by decide,
    keeps_schedule (obliging_rig _ _ _) within ⟨rfl, rfl⟩ reach h₇ (List.cons_ne_nil _ _)
      (by decide) rfl⟩

end Simulation

end Switchboard.Engine
