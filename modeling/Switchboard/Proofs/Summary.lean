import Switchboard.Proofs.Schedule
import Switchboard.Proofs.Totals

/-!
# What the summaries of a program promise

Before a program is run, its summaries say how many dispatches there will be
and how long the waits take at least and at most. This module holds a run
against them.

A run that says it is finished has not been stopped, and has announced each
dispatch that is found once (`Completes.accounted`). The seconds that it
counted down are those that its waits took: `Place.elapsed` is how many are
over at a place, and every leg of a run publishes one event for each of them
(`Leg.elapsed`). A wait takes no less than its lower bound and no more than its
upper one, each time it begins anew, so that the sums of the bounds hold for
the run (`seconds_within`).
-/

namespace Switchboard

/-- A wait takes no less than its lower bound, and no more than its upper bound if the two are in
order. -/
theorem Dispatch.Lasts.within {id : StepId} {span : Span} {n : Nat}
    (h : (Dispatch.wait id span).Lasts n) (ordered : (Dispatch.wait id span).IsOrdered) :
    span.bounds.1 ≤ n ∧ n ≤ span.bounds.2 := by
  cases span with
  | fixed seconds =>
    obtain rfl : n = seconds.toNat := h
    exact ⟨Nat.le_refl _, Nat.le_refl _⟩
  | random min max =>
    rw [Lasts] at h
    split at h
    · exact h
    · subst h
      exact ⟨Nat.le_refl _, UInt64.le_iff_toNat_le.mp ordered⟩

namespace Engine

/-- **The seconds waited by dispatches lie between their bounds added up**, if each of them takes
as long as it may. -/
theorem seconds_within {plan : List (Dispatch × Nat)} (lasting : ∀ x ∈ plan, x.1.Lasts x.2)
    (ordered : ∀ x ∈ plan, x.1.IsOrdered) :
    (Step.waited (plan.map Prod.fst)).1 ≤ seconds plan
      ∧ seconds plan ≤ (Step.waited (plan.map Prod.fst)).2 := by
  induction plan with
  | nil => exact ⟨Nat.le_refl 0, Nat.le_refl 0⟩
  | cons x plan ih =>
    rw [List.forall_mem_cons] at lasting ordered
    obtain ⟨hlo, hhi⟩ := ih lasting.2 ordered.2
    obtain ⟨d, n⟩ := x
    cases d with
    | relay id output power =>
      obtain rfl : n = 0 := lasting.1
      show (Step.waited (plan.map Prod.fst)).1 ≤ 0 + seconds plan
        ∧ 0 + seconds plan ≤ (Step.waited (plan.map Prod.fst)).2
      rw [Nat.zero_add]
      exact ⟨hlo, hhi⟩
    | wait id span =>
      obtain ⟨hlo', hhi'⟩ := lasting.1.within ordered.1
      exact ⟨Nat.add_le_add hlo' hlo, Nat.add_le_add hhi' hhi⟩

/-! ## What a complete run has published -/

/-- **The number of seconds counted down** among events. -/
def tickCount (es : List Event) : Nat := es.countP (· matches .tick _)

/-- **The number of steps announced** among events. -/
def stepCount (es : List Event) : Nat := es.countP (· matches .stepAdvanced _)

@[simp] theorem tickCount_append (es fs : List Event) :
    tickCount (es ++ fs) = tickCount es + tickCount fs :=
  List.countP_append

@[simp] theorem stepCount_append (es fs : List Event) :
    stepCount (es ++ fs) = stepCount es + stepCount fs :=
  List.countP_append

@[simp] theorem stepCount_countdown (n : Nat) : stepCount (countdown n) = 0 := by
  induction n with
  | zero => rfl
  | succ n ih => exact ih

/-- Each dispatch is announced once. -/
theorem stepCount_accounts (panel : Panel) (done : List (Dispatch × Nat)) :
    stepCount (accounts panel done) = done.length := by
  induction done with
  | nil => rfl
  | cons x done ih =>
    show stepCount ([.stepAdvanced (panel.words x.1)] ++ countdown x.2 ++ accounts panel done) = _
    rw [stepCount_append, stepCount_append, stepCount_countdown, ih, List.length_cons,
      Nat.add_comm]
    rfl

theorem finished_not_mem_countdown (n : Nat) : Event.finished ∉ countdown n := by
  induction n with
  | zero => exact List.not_mem_nil
  | succ n ih => simp [countdown, ih]

theorem finished_not_mem_accounts (panel : Panel) (done : List (Dispatch × Nat)) :
    Event.finished ∉ accounts panel done := by
  simp [accounts, account, finished_not_mem_countdown]

/-- **A run that is finished was not stopped, and has announced every dispatch.** -/
theorem Transcript.of_finished {panel : Panel} {dispatches : List Dispatch} {as : List Answer}
    {stopped : Bool} {es : List Event} (h : Transcript panel dispatches as stopped es)
    (finished : Event.finished ∈ es) : stopped = false ∧ stepCount es = dispatches.length := by
  cases h with
  | @finished done all lasting =>
    refine ⟨rfl, ?_⟩
    rw [stepCount_append, stepCount_accounts, ← all, List.length_map]
    rfl
  | failed upTo lasting => simp [finished_not_mem_accounts] at finished
  | @cut done d n shown rest upTo lasting lasts part =>
    have hshown : Event.finished ∉ shown :=
      fun hm => finished_not_mem_countdown n (part.subset hm)
    simp [finished_not_mem_accounts, hshown] at finished
  | between ne upTo lasting => simp [finished_not_mem_accounts] at finished

/-! ## The seconds that a run has waited -/

/-- The seconds of a wait that are over. -/
def Stage.elapsed : Stage → Nat
  | .waiting _ _ length left => length - left
  | _ => 0

/-- **The seconds that a run has waited** when it is at a place. -/
def Place.elapsed (place : Place) : Nat := seconds place.done + place.stage.elapsed

theorem Place.elapsed_concat (done : List (Dispatch × Nat)) (d : Dispatch) (n : Nat)
    {stage : Stage} (rests : stage.elapsed = 0) :
    Place.elapsed ⟨done ++ [(d, n)], stage⟩ = seconds done + n := by
  rw [Place.elapsed, rests, seconds_append]
  rfl

variable {panel : Panel} {p : Program} {place place' : Place} {signal : Signal}
  {effects told : List Effect}

/-- A wait that begins publishes nothing, and none of it is over. -/
theorem Waits.elapsed {done : List (Dispatch × Nat)} {id : StepId} {span : Span} {n : Nat}
    (h : Waits p done id span n place effects) :
    place.elapsed = seconds done ∧ events effects = [] := by
  cases h with
  | skips => exact ⟨Place.elapsed_concat done _ 0 rfl, rfl⟩
  | counts pos =>
    refine ⟨?_, rfl⟩
    show seconds done + (n - n) = _
    rw [Nat.sub_self, Nat.add_zero]

/-- The announcement of a step is published before anything else. -/
theorem events_announced (quiet : events told = []) (d : Dispatch) (effects : List Effect) :
    events (announcement panel p d ++ told ++ effects)
      = .stepAdvanced (panel.words d) :: events effects := by
  rw [events_append, events_append, quiet]
  rfl

/-- **A run that sets out** either finds no dispatch left and is finished, or announces the next.
No second is over meanwhile. -/
theorem SetsOut.elapsed {done : List (Dispatch × Nat)}
    (h : SetsOut panel p done told place effects) (quiet : events told = []) :
    place.elapsed = seconds done
      ∧ (place = ⟨done, .ended⟩ ∧ done.map Prod.fst = p.route ∧ events effects = [.finished]
        ∨ ∃ words, events effects = [.stepAdvanced words]) := by
  cases h with
  | finishes all =>
    rw [events_append, quiet]
    exact ⟨rfl, .inl ⟨rfl, all, rfl⟩⟩
  | calls => exact ⟨rfl, .inr ⟨_, events_announced quiet _ _⟩⟩
  | draws => exact ⟨rfl, .inr ⟨_, events_announced quiet _ _⟩⟩
  | waits settled begins =>
    obtain ⟨helapsed, hnone⟩ := begins.elapsed
    rw [events_announced quiet, hnone]
    exact ⟨helapsed, .inr ⟨_, rfl⟩⟩

/-- **Each second that is over is published**, unless the run is cancelled. -/
theorem Leg.elapsed (h : Leg panel p place signal place' effects) (calm : signal.isHalt = false) :
    place'.elapsed = place.elapsed + tickCount (events effects) := by
  cases h with
  | refuses => rfl
  | draws drawn begins =>
    obtain ⟨helapsed, hnone⟩ := begins.elapsed
    rw [helapsed, hnone]
    rfl
  | confirms => exact Place.elapsed_concat _ _ 0 rfl
  | fails => exact Place.elapsed_concat _ _ 0 rfl
  | @ticks done id span n m pos lt =>
    show seconds done + (n - m) = seconds done + (n - (m + 1)) + 1
    omega
  | @rings done id span n pos =>
    rw [Place.elapsed_concat _ _ _ rfl]
    show seconds done + n = seconds done + (n - 1) + 1
    omega
  | proceeds goes =>
    obtain ⟨helapsed, ⟨-, -, hevents⟩ | ⟨words, hevents⟩⟩ := goes.elapsed rfl
    · rw [helapsed, hevents]
      rfl
    · rw [helapsed, hevents]
      rfl
  | cancels ends sends => cases ends <;> cases calm

/-- **A run is finished when it finds no dispatch left.** -/
theorem Leg.finishes (h : Leg panel p place signal place' effects)
    (finished : Event.finished ∈ events effects) :
    place'.stage = .ended ∧ place'.done.map Prod.fst = p.route := by
  cases h with
  | draws drawn begins =>
    rw [begins.elapsed.2] at finished
    cases finished
  | proceeds goes =>
    obtain ⟨-, ⟨rfl, all, -⟩ | ⟨words, hevents⟩⟩ := goes.elapsed rfl
    · exact ⟨rfl, all⟩
    · rw [hevents] at finished
      cases List.mem_singleton.mp finished
  | cancels ends sends =>
    obtain rfl | rfl := sends
    · cases List.mem_singleton.mp finished
    · cases List.mem_singleton.mp finished
  | refuses => cases finished
  | confirms => cases finished
  | fails => cases List.mem_singleton.mp finished
  | ticks pos lt => cases List.mem_singleton.mp finished
  | rings pos => cases List.mem_singleton.mp finished

namespace Simulation

variable {σ : Type} {s : Surroundings σ} {drift : σ → σ → Prop} {t : Ticket} {x y z : Simulation σ}
  {signals : List Signal} {es : List Event}

/-- **How far a run has come**, by what it has published and the signals it took notice of. -/
structure Accounted (p : Program) (signals : List Signal) (es : List Event) (z : Simulation σ)
    (place : Place) : Prop where
  /-- Where the run is. -/
  located : Located p z.phase place
  /-- It has used the lengths that were drawn. -/
  drawn : drawnLengths place.begun = draws signals
  /-- It has published every second that is over. -/
  elapsed : halted signals = false → tickCount es = place.elapsed
  /-- It says that it is finished only where nothing is left. -/
  finished : .finished ∈ es → place.stage = .ended ∧ place.done.map Prod.fst = p.route

/-- **Every run is accounted for**, whatever happens to it. -/
theorem Runs.accounted (h : Runs s drift t p x signals z) (ne : p.steps ≠ []) :
    ∃ place es, z.published = x.published ++ es ∧ Accounted p signals es z place := by
  induction h with
  | @begins rest y idle head took =>
    obtain ⟨effects, hn, hstep⟩ := noticed_of_begins idle head took
    obtain ⟨place, hsets, hplace⟩ := Located.start ne hstep
    obtain ⟨new, hbegun, hdrawn⟩ := hsets.begun
    obtain ⟨helapsed, hevents⟩ := hsets.elapsed rfl
    refine ⟨place, events effects, ?_, hplace, ?_, fun _ => ?_, fun hmem => ?_⟩
    · rw [published, hn.effects, events_append]
      rfl
    · rw [hbegun, List.nil_append, hdrawn]
      rfl
    · rw [helapsed]
      obtain ⟨-, -, hevents⟩ | ⟨words, hevents⟩ := hevents
      · rw [hevents]
        rfl
      · rw [hevents]
        rfl
    · obtain ⟨rfl, all, -⟩ | ⟨words, hevents⟩ := hevents
      · exact ⟨rfl, all⟩
      · rw [hevents] at hmem
        cases List.mem_singleton.mp hmem
  | @goesOn signals signal y z before active next ih =>
    obtain ⟨place, es, hes, hy⟩ := ih
    cases signal with
    | none =>
      have hn := next.unnoticed
      rw [Option.toList_none, List.append_nil]
      refine ⟨place, es, ?_, hn.phase ▸ hy.located, hy.drawn, hy.elapsed, hy.finished⟩
      rw [published, hn.effects]
      exact hes
    | some signal =>
      obtain ⟨effects, hn⟩ := next.noticed
      obtain ⟨place', hleg, hplace'⟩ := hy.located.leg active hn.step
      obtain ⟨new, hbegun, hdrawn⟩ := hleg.begun
      refine ⟨place', es ++ events effects, ?_, hplace', ?_, fun calm => ?_, fun hmem => ?_⟩
      · rw [published, hn.effects, events_append, ← List.append_assoc, ← hes]
        rfl
      · rw [hbegun, drawnLengths_append, hy.drawn, hdrawn]
        exact (draws_concat signals signal).symm
      · rw [halted, List.any_append, Bool.or_eq_false_iff] at calm
        rw [tickCount_append, hy.elapsed calm.1,
          hleg.elapsed ((Bool.or_false _).symm.trans calm.2)]
      · rcases List.mem_append.mp hmem with hmem | hmem
        · exact absurd (hy.finished hmem).1 (hy.located.isActive_iff.mp active)
        · exact hleg.finishes hmem

/-- **A run that is complete**: it says that it is finished. -/
structure Completes (s : Surroundings σ) (drift : σ → σ → Prop) (t : Ticket) (p : Program)
    (x : Simulation σ) (signals : List Signal) (z : Simulation σ) (es : List Event) : Prop where
  /-- It is a run. -/
  run : Runs s drift t p x signals z
  /-- These are the events that it has published. -/
  published : z.published = x.published ++ es
  /-- One of them says that it is finished. -/
  finished : .finished ∈ es

/-- A program without steps is not run. -/
theorem Runs.published_of_empty (h : Runs s drift t p x signals z) (empty : p.steps = []) :
    z.phase.isActive = false ∧ z.published = x.published := by
  induction h with
  | @begins rest y idle head took =>
    obtain ⟨effects, hn, hstep⟩ := noticed_of_begins idle head took
    generalize y.phase = phase at hstep ⊢
    cases hstep with
    | declines none =>
      refine ⟨rfl, ?_⟩
      rw [published, hn.effects, events_append]
      exact List.append_nil _
    | starts ne goes => exact absurd empty ne
    | refuses listens => cases listens
  | goesOn before active next ih =>
    rw [ih.1] at active
    cases active

theorem Completes.steps_ne_nil (h : Completes s drift t p x signals z es) : p.steps ≠ [] := by
  intro empty
  have hnone := (h.run.published_of_empty empty).2
  rw [h.published, List.append_right_eq_self] at hnone
  have hmem := h.finished
  rw [hnone] at hmem
  cases hmem

/-- **A complete run was not stopped**, has announced every dispatch, and has waited the lengths
that were drawn. -/
theorem Completes.accounted (h : Completes s drift t p x signals z es) :
    halted signals = false ∧ stepCount es = p.route.length
      ∧ ∃ plan : List (Dispatch × Nat), plan.map Prod.fst = p.route
        ∧ (∀ d ∈ plan, d.1.Lasts d.2) ∧ drawnLengths plan = draws signals
        ∧ tickCount es = seconds plan := by
  obtain ⟨place, es', hes', hacc⟩ := h.run.accounted h.steps_ne_nil
  obtain rfl : es = es' := List.append_cancel_left (h.published.symm.trans hes')
  obtain ⟨hended, hall⟩ := hacc.finished h.finished
  have hinactive : ¬z.phase.isActive = true := fun hz => hacc.located.isActive_iff.mp hz hended
  obtain ⟨es', hes', ⟨hu, -⟩ | ⟨-, ht⟩⟩ := h.run.account h.steps_ne_nil
  · exact absurd hu.isActive hinactive
  · obtain rfl : es = es' := List.append_cancel_left (h.published.symm.trans hes')
    obtain ⟨calm, hcount⟩ := ht.of_finished h.finished
    obtain ⟨done, stage⟩ := place
    obtain rfl : stage = .ended := hended
    have hbegun := hacc.located.begun
    have hdrawn := hacc.drawn
    rw [Place.begun_ended] at hbegun hdrawn
    exact ⟨calm, hcount, done, hall, hbegun.2, hdrawn, hacc.elapsed calm⟩

/-- The events that were published, without the instants. -/
theorem map_snd_timeline (x : Simulation σ) : x.timeline.map Prod.snd = x.published := by
  rw [timeline, List.map_filterMap, published, events, effects, ← List.map_reverse,
    List.filterMap_map]
  congr 1
  funext e
  cases h : e.2.event? <;> simp [h]

/-- **Every program with steps has a complete run**, if nothing goes wrong and nobody disturbs it. -/
theorem exists_completes {good : σ → Prop} {world : σ} (ob : Obliging s drift good)
    (within : s.DrawsWithin) (hgood : good world) (t : Ticket) (ne : p.steps ≠ []) :
    ∃ signals z es,
      Completes s drift t p { world, queue := [.start t p] } signals z es := by
  have listens : (step s.panel .idle (.request (.start t p))).isSome = true := by
    dsimp only [step]
    split
    · rfl
    · rfl
  obtain ⟨y, took⟩ : ∃ y, take? s { world, queue := [.start t p] } = some y :=
    Option.isSome_iff_exists.mp (isSome_feed listens)
  have next : Happens s drift { world, queue := [.start t p] } _ y := .takes rfl took
  have run : Timely s drift t p { world, queue := [.start t p] } [] y := .begins rfl rfl took
  have attended : Attended y := by
    have hnone : y.pending = [] := (List.cons.inj next.keeps.pending).2.symm
    exact ⟨next.keeps.held, fun r hr => absurd hr (hnone ▸ List.not_mem_nil)⟩
  obtain ⟨place, hy⟩ := run.punctual ob ne hgood rfl rfl
  obtain ⟨later, w, ⟨done, stage⟩, hw, hended⟩ :=
    Undisturbed.ends ob within ⟨run, rfl, hy, attended⟩
  have hstage : stage = .ended := by
    by_contra going
    rw [hw.punctual.located.isActive_iff.mpr going] at hended
    cases hended
  subst hstage
  have hpublished : w.published = (s.schedule 0 done).map Prod.snd := by
    rw [← map_snd_timeline, hw.punctual.timeline]
    rfl
  refine ⟨_, w, _, hw.timely.runs, hpublished, ?_⟩
  rw [Surroundings.schedule, List.map_append]
  exact List.mem_append_right _ (List.mem_singleton_self _)

/-! ## The two summaries -/

/-- **What a complete run has waited**, for the events that it has published and the lengths that
it has drawn. -/
structure WaitsWithin (p : Program) (signals : List Signal) (es : List Event)
    (plan : List (Dispatch × Nat)) : Prop where
  /-- The plan has every dispatch of the expansion. -/
  all : plan.map Prod.fst = p.expand
  /-- Each takes as long as it may. -/
  lasting : ∀ d ∈ plan, d.1.Lasts d.2
  /-- The random ones take the lengths that were drawn. -/
  drawn : drawnLengths plan = draws signals
  /-- Each second that was waited was published. -/
  ticks : tickCount es = seconds plan
  /-- No fewer seconds were waited than the lower bounds of the waits come to. -/
  lower : (Step.waited p.expand).1 ≤ seconds plan
  /-- No more were waited than the upper bounds come to. -/
  upper : seconds plan ≤ (Step.waited p.expand).2
  /-- The lower bound of the program always holds. -/
  lower_cut : p.durationBounds.1 ≤ seconds plan
  /-- Its upper bound holds unless it may have been cut down. -/
  upper_cut : p.durationBounds.2 < Size.greatest64 → seconds plan ≤ p.durationBounds.2

/-- **The duration bounds of a program are those of its waits added up**, each cut down once to 64
bits, however deep loops are nested, however often they run and however long the waits are. A
complete run of a valid program waits no less than the lower sum and no more than the upper one,
whatever lengths it draws, if the counts of the program fit; a new length is drawn each time a wait
begins. -/
theorem waits_within_bounds (p : Program) :
    p.durationBounds = (min (Step.waited p.expand).1 Size.greatest64,
        min (Step.waited p.expand).2 Size.greatest64)
      ∧ (p.validate = .ok () → p.CountsFit →
        ∀ {σ : Type} {s : Surroundings σ} {drift : σ → σ → Prop} {t : Ticket} {x z : Simulation σ}
          {signals : List Signal} {es : List Event},
          Completes s drift t p x signals z es → ∃ plan, WaitsWithin p signals es plan) := by
  have hbounds : p.durationBounds = (min (Step.waited p.expand).1 Size.greatest64,
      min (Step.waited p.expand).2 Size.greatest64) := Step.durationBoundsAll_eq p.steps
  refine ⟨hbounds, fun accepted fits σ s drift t x z signals es run => ?_⟩
  have hvalid := (Program.validate_eq_ok_iff p).mp accepted
  obtain ⟨-, -, plan, all, lasting, drawn, ticks⟩ := run.accounted
  rw [fits.route_eq] at all
  have ordered : ∀ d ∈ plan, d.1.IsOrdered := fun d hd =>
    hvalid.isOrdered (all ▸ List.mem_map_of_mem hd)
  obtain ⟨hlower, hupper⟩ := seconds_within lasting ordered
  rw [all] at hlower hupper
  refine ⟨plan, all, lasting, drawn, ticks, hlower, hupper, ?_, fun uncut => ?_⟩
  · rw [hbounds]
    exact Nat.le_trans (Nat.min_le_left _ _) hlower
  · rw [hbounds] at uncut ⊢
    have hcut : (Step.waited p.expand).2 ≤ Size.greatest64 :=
      Nat.le_of_not_le fun hle => Nat.lt_irrefl _ ((Nat.min_eq_right hle) ▸ uncut)
    exact Nat.le_min.mpr ⟨hupper, Nat.le_trans hupper hcut⟩

/-- A program that waits at random, twice. -/
def drizzle : Program :=
  ⟨"drizzle", "Drizzle", true, [.loop "twice" 2 [.wait "pause" (.random 1 3)]]⟩

/-- A complete run of `drizzle` that draws both of its bounds. -/
theorem waits_within_bounds_drizzle :
    drizzle.validate = .ok () ∧ drizzle.durationBounds = (2, 6) ∧ ∃ signals z es,
      Completes (Rig.surroundings .unlabelled 1000 0) (fun _ _ => False) 0 drizzle
          { world := { dice := ⟨0x20000⟩ }, queue := [.start 0 drizzle] } signals z es
        ∧ draws signals = [3, 1] ∧ tickCount es = 4
        ∧ ∃ plan, WaitsWithin drizzle signals es plan := by
  have h₁ : Runs (Rig.surroundings .unlabelled 1000 0) (fun _ _ => False) 0 drizzle
      { world := { dice := ⟨0x20000⟩ }, queue := [.start 0 drizzle] } [] _ := .begins rfl rfl rfl
  have h₂ := h₁.goesOn rfl (.draws rfl rfl)
  have h₃ := h₂.goesOn rfl (.passes 1000 (by decide))
  have h₄ := h₃.goesOn rfl (.rings rfl)
  have h₅ := h₄.goesOn rfl (.passes 2000 (by decide))
  have h₆ := h₅.goesOn rfl (.rings rfl)
  have h₇ := h₆.goesOn rfl (.passes 3000 (by decide))
  have h₈ := h₇.goesOn rfl (.rings rfl)
  have h₉ := h₈.goesOn rfl (.goesOn rfl rfl rfl)
  have h₁₀ := h₉.goesOn rfl (.draws rfl rfl)
  have h₁₁ := h₁₀.goesOn rfl (.passes 4000 (by decide))
  have h₁₂ := h₁₁.goesOn rfl (.rings rfl)
  have h₁₃ := h₁₂.goesOn rfl (.goesOn rfl rfl rfl)
  have complete : Completes _ _ 0 drizzle _ _ _ _ := ⟨h₁₃, rfl, by decide⟩
  obtain ⟨hbounds, hwaits⟩ := waits_within_bounds drizzle
  exact ⟨by decide, hbounds, _, _, _, complete, by decide, by decide,
    hwaits (by decide) (by decide) complete⟩

/-- **What the dispatch count of a program says.** -/
structure Counted (p : Program) : Prop where
  /-- No sum begins at zero again: the count of a list is that of its steps added up. -/
  sums : ∀ ss ∈ p.lists, Step.dispatchCountAll ss = (ss.map Step.dispatchCount).sum
  /-- The count is the number of dispatches of the expansion, cut down once. -/
  expansion : p.dispatchCount = min p.expand.length Size.greatest64
  /-- A complete run was not stopped, and the count is the number of its dispatches. -/
  runs : ∀ {σ : Type} {s : Surroundings σ} {drift : σ → σ → Prop} {t : Ticket}
    {x z : Simulation σ} {signals : List Signal} {es : List Event},
    Completes s drift t p x signals z es →
      halted signals = false ∧ p.dispatchCount = min (stepCount es) Size.greatest64
  /-- There is a complete run unless the program has no steps. -/
  completes : p.steps ≠ [] → ∃ signals z es,
    Completes (Rig.surroundings .unlabelled 1000 0) (fun _ _ => False) 0 p
      { world := {}, queue := [.start 0 p] } signals z es
  /-- The count of a step is zero exactly if a cursor that carries it out finds no dispatch. -/
  zero : ∀ s ∈ p.walk, s.dispatchCount = 0 ↔ (Cursor.start [s]).resolve.1 = none
  /-- That is when a cursor steps over a loop, wherever in the program it stands at one. -/
  loops : ∀ {f : Frame} {below : List Frame} {id : StepId} {n : UInt32} {body : List Step},
    Frame.Linked p.steps (f :: below) → f.steps[f.index]? = some (.loop id n body) →
      Cursor.StepsOver f below id n body

/-- **The dispatch count of a program is the number of dispatches of a complete run**, cut down once
to 64 bits, however deep loops are nested and however often they run, if at all. Counts of loops
may be cut down on the way, but the counts of the steps in one list must not add up to more than
fits. -/
theorem dispatches_counted (p : Program)
    (summable : ∀ ss ∈ p.lists, (ss.map Step.dispatchCount).sum ≤ Size.greatest64) :
    Counted p := by
  have fits : p.CountsFit := fun ss hss => Step.countSum_eq_sum ss ▸ summable ss hss
  have hcount : p.dispatchCount = min p.expand.length Size.greatest64 :=
    Step.dispatchCountAll_eq p.steps fits
  constructor
  case sums =>
    intro ss hss
    rw [Step.dispatchCountAll_eq_countSum (fits ss hss), Step.countSum_eq_sum]
  case expansion => exact hcount
  case runs =>
    intro σ s drift t x z signals es run
    obtain ⟨calm, hsteps, -⟩ := run.accounted
    rw [hsteps, fits.route_eq]
    exact ⟨calm, hcount⟩
  case completes =>
    exact exists_completes (obliging_rig _ _ _)
      (fun lo hi r le => ⟨Dice.le_roll lo hi r.dice, Dice.roll_le lo hi r.dice le⟩) ⟨rfl, rfl⟩ 0
  case zero => exact fun s _ => (Cursor.resolve_start_eq_none_iff s).symm
  case loops => exact fun linked here =>
    Cursor.stepsOver ((linked.countsFit fits).body (List.mem_of_getElem? here)) here

/-- A program of which even the count of a loop inside another does not fit into 64 bits. -/
def vast : Program :=
  ⟨"vast", "Vast", true,
    [.loop "twice" 2 [.loop "thrice" 3 [.loop "outer" 4294967295 [.loop "inner" 4294967295
      [.wait "pause" (.fixed 1), .loop "empty" 5 []]]]],
    .loop "never" 0 [.wait "skipped" (.fixed 1)]]⟩

/-- The count of `vast` is cut down inside a loop, and comes to the largest number there is. -/
theorem dispatches_counted_vast :
    (∀ ss ∈ vast.lists, (ss.map Step.dispatchCount).sum ≤ Size.greatest64)
      ∧ vast.dispatchCount = Size.greatest64 ∧ Counted vast := by
  have summable : ∀ ss ∈ vast.lists, (ss.map Step.dispatchCount).sum ≤ Size.greatest64 := by
    decide
  exact ⟨summable, by decide, dispatches_counted vast summable⟩

end Simulation

end Engine

end Switchboard
