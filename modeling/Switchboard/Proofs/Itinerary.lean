import Switchboard.Proofs.Transcript

/-!
# Where a run is

A run carries out the dispatches of its program one after the other. `Place` says how far it
has come: which dispatches lie behind it, how long each of them took, and what it is at.
What the machine knows of this is its phase, and `Located` says that a place fits the phase;
the dispatches behind a run, which the machine has forgotten, are told from its cursor.

`Leg` describes the way from one place to the next, with the effects that belong to it, one
rule for each. Every step that the machine makes during a run is a leg (`Located.leg`), and
a leg no longer says how `Run.proceed` finds its way through the program. What is to be
proved of all effects of a run, such as what they show and at which instants they come, is
therefore proved leg by leg.

Some lengths are left to the dice. A run uses those that it draws in the order in which it
draws them, and for nothing else (`Leg.begun`).
-/

namespace Switchboard

/-- **Whether the length of a dispatch has to be drawn.** -/
def Dispatch.isDrawn : Dispatch → Bool
  | .wait _ (.random min max) => decide (min < max)
  | _ => false

namespace Engine

/-! ## Lengths -/

/-- **The lengths that were drawn** for dispatches, in order. -/
def drawnLengths (timed : List (Dispatch × Nat)) : List Nat :=
  (timed.filter fun x => x.1.isDrawn).map Prod.snd

theorem drawnLengths_append (timed more : List (Dispatch × Nat)) :
    drawnLengths (timed ++ more) = drawnLengths timed ++ drawnLengths more := by
  rw [drawnLengths, List.filter_append, List.map_append]
  rfl

/-- The length that a signal brings. -/
def Signal.drawn? : Signal → Option Nat
  | .drawn n => some n
  | _ => none

/-- **The lengths among signals**, in order. -/
def draws (signals : List Signal) : List Nat := signals.filterMap Signal.drawn?

theorem draws_append (first second : List Signal) :
    draws (first ++ second) = draws first ++ draws second :=
  List.filterMap_append

theorem draws_concat (signals : List Signal) (signal : Signal) :
    draws (signals ++ [signal]) = draws signals ++ signal.drawn?.toList := by
  rw [draws_append]
  cases signal <;> rfl

/-! ## Places -/

/-- **What a run is at.** -/
inductive Stage where
  /-- A length is to be drawn. -/
  | drawing (id : StepId) (span : Span)
  /-- A command is with the controller. -/
  | calling (id : StepId) (output : Relay) (power : Power)
  /-- A wait of some length is counted down, and some seconds of it are left. -/
  | waiting (id : StepId) (span : Span) (length left : Nat)
  /-- The last dispatch is carried out. -/
  | between
  /-- The run has ended. -/
  | ended

/-- **How far a run has come.** -/
structure Place where
  /-- The dispatches that it has carried out, and how long each took. -/
  done : List (Dispatch × Nat)
  /-- What it is at. -/
  stage : Stage

/-- The dispatch that is being carried out, if it is settled how long it takes. -/
def Stage.current : Stage → List (Dispatch × Nat)
  | .calling id output power => [(.relay id output power, 0)]
  | .waiting id span length _ => [(.wait id span, length)]
  | _ => []

/-- **The dispatches that a run has begun**, and how long each takes, less one whose length has
yet to be drawn. -/
def Place.begun (place : Place) : List (Dispatch × Nat) := place.done ++ place.stage.current

section Begun

variable (done : List (Dispatch × Nat)) (id : StepId)

@[simp] theorem Place.begun_drawing (span : Span) : Place.begun ⟨done, .drawing id span⟩ = done :=
  List.append_nil done

@[simp] theorem Place.begun_calling (output : Relay) (power : Power) :
    Place.begun ⟨done, .calling id output power⟩ = done ++ [(.relay id output power, 0)] := rfl

@[simp] theorem Place.begun_waiting (span : Span) (length left : Nat) :
    Place.begun ⟨done, .waiting id span length left⟩ = done ++ [(.wait id span, length)] := rfl

@[simp] theorem Place.begun_between : Place.begun ⟨done, .between⟩ = done := List.append_nil done

@[simp] theorem Place.begun_ended : Place.begun ⟨done, .ended⟩ = done := List.append_nil done

end Begun

/-- **A place that fits a phase** of a run. -/
inductive Located (p : Program) : Phase → Place → Prop where
  /-- A length is to be drawn. -/
  | drawing {run : Run} {done : List (Dispatch × Nat)} {id : StepId} {min max : UInt64}
      (within : run.Within p done (.wait id (.random min max))) (lt : min < max) :
      Located p (.drawing run min.toNat max.toNat) ⟨done, .drawing id (.random min max)⟩
  /-- A command is with the controller. -/
  | calling {run : Run} {done : List (Dispatch × Nat)} {id : StepId} {output : Relay}
      {power : Power} (within : run.Within p done (.relay id output power)) :
      Located p (.calling run output power) ⟨done, .calling id output power⟩
  /-- A wait is counted down. -/
  | waiting {run : Run} {done : List (Dispatch × Nat)} {id : StepId} {span : Span} {n m : Nat}
      (within : run.Within p done (.wait id span)) (lasts : (Dispatch.wait id span).Lasts n)
      (pos : 0 < m) (le : m ≤ n) :
      Located p (.waiting run m) ⟨done, .waiting id span n m⟩
  /-- The last dispatch is carried out. -/
  | between {run : Run} {done : List (Dispatch × Nat)}
      (behind : Run.Behind p done { run with cursor := run.cursor.advance }) :
      Located p (.between run) ⟨done, .between⟩
  /-- The run has ended. -/
  | ended {phase : Phase} {done : List (Dispatch × Nat)} (inactive : phase.isActive = false)
      (upTo : done.map Prod.fst <+: p.route) (lasting : ∀ x ∈ done, x.1.Lasts x.2) :
      Located p phase ⟨done, .ended⟩

variable {panel : Panel} {p : Program} {phase next : Phase} {place place' : Place}
  {signal : Signal} {effects told : List Effect}

/-! ## Legs -/

/-- **The announcement of a step.** -/
def announcement (panel : Panel) (p : Program) (d : Dispatch) : List Effect :=
  [.status (.running p.id (panel.words d)), .event (.stepAdvanced (panel.words d))]

/-- **A wait begins**, behind other dispatches, once its length is settled. -/
inductive Waits (p : Program) (done : List (Dispatch × Nat)) (id : StepId) (span : Span) :
    Nat → Place → List Effect → Prop where
  /-- It has no length and is over at once. -/
  | skips : Waits p done id span 0 ⟨done ++ [(.wait id span, 0)], .between⟩ []
  /-- It is counted down. -/
  | counts {n : Nat} (pos : 0 < n) :
      Waits p done id span n ⟨done, .waiting id span n n⟩
        [.status (.waiting p.id waitingWords n), .countdown]

/-- **A run sets out from one dispatch to the next.** The effects that it is told to come in
between follow the announcement of the step. -/
inductive SetsOut (panel : Panel) (p : Program) (done : List (Dispatch × Nat))
    (told : List Effect) : Place → List Effect → Prop where
  /-- No dispatch is left. -/
  | finishes (all : done.map Prod.fst = p.route) :
      SetsOut panel p done told ⟨done, .ended⟩ (told ++ [.status .idle, .event .finished])
  /-- A command is sent. -/
  | calls {id : StepId} {output : Relay} {power : Power} :
      SetsOut panel p done told ⟨done, .calling id output power⟩
        (announcement panel p (.relay id output power) ++ told ++ [.command output power])
  /-- A length is to be drawn. -/
  | draws {id : StepId} {span : Span} :
      SetsOut panel p done told ⟨done, .drawing id span⟩
        (announcement panel p (.wait id span) ++ told ++ [])
  /-- A wait begins whose length is settled. -/
  | waits {id : StepId} {span : Span} {n : Nat} {place : Place} {effects : List Effect}
      (settled : (Dispatch.wait id span).isDrawn = false)
      (begins : Waits p done id span n place effects) :
      SetsOut panel p done told place (announcement panel p (.wait id span) ++ told ++ effects)

/-- **A run goes from one place to the next**, or stays where it is. -/
inductive Leg (panel : Panel) (p : Program) :
    Place → Signal → Place → List Effect → Prop where
  /-- A start is refused. -/
  | refuses {place : Place} {t : Ticket} {q : Program} :
      Leg panel p place (.request (.start t q)) place [.answer t .alreadyRunning]
  /-- A length is drawn, and the wait begins. -/
  | draws {done : List (Dispatch × Nat)} {id : StepId} {span : Span} {n : Nat} {place : Place}
      {effects : List Effect} (drawn : (Dispatch.wait id span).isDrawn = true)
      (begins : Waits p done id span n place effects) :
      Leg panel p ⟨done, .drawing id span⟩ (.drawn n) place effects
  /-- A command is confirmed. -/
  | confirms {done : List (Dispatch × Nat)} {id : StepId} {output : Relay} {power : Power} :
      Leg panel p ⟨done, .calling id output power⟩ (.answered (.ok ()))
        ⟨done ++ [(.relay id output power, 0)], .between⟩ [.record output power]
  /-- A command has failed. -/
  | fails {done : List (Dispatch × Nat)} {id : StepId} {output : Relay} {power : Power}
      {fault : ActuatorFault} :
      Leg panel p ⟨done, .calling id output power⟩ (.answered (.error fault))
        ⟨done ++ [(.relay id output power, 0)], .ended⟩
        [.status .idle, .event (.error fault.message)]
  /-- A second of a wait is over, and others are left. -/
  | ticks {done : List (Dispatch × Nat)} {id : StepId} {span : Span} {n m : Nat} (pos : 0 < m)
      (lt : m < n) :
      Leg panel p ⟨done, .waiting id span n (m + 1)⟩ .tick ⟨done, .waiting id span n m⟩
        [.status (.waiting p.id waitingWords m), .event (.tick m)]
  /-- The last second of a wait is over. -/
  | rings {done : List (Dispatch × Nat)} {id : StepId} {span : Span} {n : Nat} (pos : 0 < n) :
      Leg panel p ⟨done, .waiting id span n 1⟩ .tick ⟨done ++ [(.wait id span, n)], .between⟩
        [.event (.tick 0)]
  /-- The run sets out for its next dispatch. -/
  | proceeds {done : List (Dispatch × Nat)} {place : Place} {effects : List Effect}
      (goes : SetsOut panel p done [] place effects) :
      Leg panel p ⟨done, .between⟩ .quiet place effects
  /-- The run is cancelled. -/
  | cancels {place : Place} {signal : Signal} {caller : Option Ticket} {effects : List Effect}
      (ends : signal.Halts caller) (sends : effects = [] ∨ effects = [.command .first .off]) :
      Leg panel p place signal ⟨place.begun, .ended⟩ (cancellation ++ effects)

/-! ## Each step of a run is a leg -/

theorem Run.Behind.begins_route {run : Run} {done : List (Dispatch × Nat)}
    (h : Run.Behind p done run) : done.map Prod.fst <+: p.route :=
  h.upTo ▸ List.prefix_append _ _

/-- **The dispatches that a run has begun** are the first of those that it finds, and each of them
takes as long as it may. -/
theorem Located.begun (h : Located p phase place) :
    place.begun.map Prod.fst <+: p.route ∧ ∀ x ∈ place.begun, x.1.Lasts x.2 := by
  cases h with
  | drawing within lt =>
    rw [Place.begun_drawing]
    exact ⟨within.upTo ▸ List.prefix_append _ _, within.lasting⟩
  | calling within => exact ⟨(within.complete rfl).begins_route, (within.complete rfl).lasting⟩
  | waiting within lasts pos le =>
    exact ⟨(within.complete lasts).begins_route, (within.complete lasts).lasting⟩
  | between behind =>
    rw [Place.begun_between]
    exact ⟨behind.begins_route, behind.lasting⟩
  | ended inactive upTo lasting =>
    rw [Place.begun_ended]
    exact ⟨upTo, lasting⟩

/-- A wait whose length is settled begins. -/
theorem Run.Within.waits {run : Run} {done : List (Dispatch × Nat)} {id : StepId} {span : Span}
    (h : run.Within p done (.wait id span)) {n : Nat} (lasts : (Dispatch.wait id span).Lasts n) :
    ∃ place, Waits p done id span n place (run.wait n).2 ∧ Located p (run.wait n).1 place := by
  unfold Run.wait
  by_cases hn : n = 0
  · subst hn
    rw [if_pos rfl]
    exact ⟨_, .skips, .between (h.complete lasts)⟩
  · rw [if_neg hn, h.program]
    have pos := Nat.pos_of_ne_zero hn
    exact ⟨_, .counts pos, .waiting h lasts pos (Nat.le_refl n)⟩

/-- **A run that goes on sets out** for its next dispatch, or is complete. -/
theorem Run.Behind.setsOut {run : Run} {done : List (Dispatch × Nat)}
    (h : Run.Behind p done run) (panel : Panel) (told : List Effect) :
    ∃ place, SetsOut panel p done told place (run.proceed panel told).2
      ∧ Located p (run.proceed panel told).1 place := by
  obtain rfl := h.program
  unfold Run.proceed
  obtain ⟨hnil, hr⟩ | ⟨d, found, hr, hs, he⟩ := h.inside.resolve_cases
  · have hall : done.map Prod.fst = run.program.route := by
      rw [h.upTo, hnil, List.map_nil, List.append_nil]
    simp only [hr]
    exact ⟨_, .finishes hall, .ended rfl (hall ▸ List.prefix_refl _) h.lasting⟩
  · have hw : Run.Within run.program done d { run with cursor := found } :=
      ⟨rfl, hs, by rw [h.upTo, ← he, hs.ahead_eq, List.map_cons], h.lasting⟩
    simp only [hr]
    cases d with
    | relay id output power => exact ⟨_, .calls, .calling hw⟩
    | wait id span =>
      cases span with
      | fixed seconds =>
        obtain ⟨place, hwaits, hplace⟩ := hw.waits rfl
        exact ⟨place, .waits rfl hwaits, hplace⟩
      | random min max =>
        dsimp only [Run.carryOut]
        by_cases lt : min < max
        · rw [if_pos lt]
          exact ⟨_, .draws, .drawing hw lt⟩
        · rw [if_neg lt]
          obtain ⟨place, hwaits, hplace⟩ := hw.waits (n := min.toNat) (by
            rw [Dispatch.Lasts, if_neg lt])
          exact ⟨place, .waits (decide_eq_false lt) hwaits, hplace⟩

/-- **An idle engine that takes a start** sets out for the first dispatch. -/
theorem Located.start {t : Ticket} (ne : p.steps ≠ [])
    (ht : Transition panel .idle (.request (.start t p)) next effects) :
    ∃ place, SetsOut panel p [] [.answer t .started] place effects ∧ Located p next place := by
  cases ht with
  | declines none => exact absurd none ne
  | starts _ goes =>
    have hs := (Run.behind_start p).setsOut panel [.answer t .started]
    rw [goes] at hs
    exact hs
  | refuses listens => cases listens

/-- **Each step that the machine makes during a run is a leg.** -/
theorem Located.leg (h : Located p phase place) (active : phase.isActive = true)
    (ht : Transition panel phase signal next effects) :
    ∃ place', Leg panel p place signal place' effects ∧ Located p next place' := by
  cases ht with
  | refuses listens => exact ⟨place, .refuses, h⟩
  | @draws run _ _ n next effects ge le waits =>
    cases h with
    | ended inactive => cases inactive
    | @drawing _ done id min max within lt =>
      obtain ⟨place, hwaits, hplace⟩ := within.waits (n := n) (by
        rw [Dispatch.Lasts, if_pos lt]
        exact ⟨ge, le⟩)
      rw [waits] at hwaits hplace
      exact ⟨place, .draws (decide_eq_true lt) hwaits, hplace⟩
  | confirms =>
    cases h with
    | ended inactive => cases inactive
    | calling within => exact ⟨_, .confirms, .between (within.complete rfl)⟩
  | fails =>
    have hbegun := h.begun
    cases h with
    | ended inactive => cases inactive
    | calling within => exact ⟨_, .fails, .ended rfl hbegun.1 hbegun.2⟩
  | ticks pos =>
    cases h with
    | ended inactive => cases inactive
    | waiting within lasts _ le =>
      obtain rfl := within.program
      exact ⟨_, .ticks pos le, .waiting within lasts pos (Nat.le_of_lt le)⟩
  | @rings run m le =>
    cases h with
    | ended inactive => cases inactive
    | waiting within lasts pos le' =>
      -- a wait has at least a second left, so that this is the last one
      obtain rfl : m = 1 := by omega
      exact ⟨_, .rings le', .between (within.complete lasts)⟩
  | proceeds goes =>
    cases h with
    | ended inactive => cases inactive
    | between behind =>
      have hs := behind.setsOut panel []
      rw [goes] at hs
      obtain ⟨place, hsets, hplace⟩ := hs
      exact ⟨place, .proceeds hsets, hplace⟩
  | cuts ends => exact ⟨_, .cancels ends (.inl rfl), .ended rfl h.begun.1 h.begun.2⟩
  | haltsWaiting ends => exact ⟨_, .cancels ends (.inr rfl), .ended rfl h.begun.1 h.begun.2⟩
  | haltsBetween ends => exact ⟨_, .cancels ends (.inr rfl), .ended rfl h.begun.1 h.begun.2⟩
  -- the other rules are for phases that belong to no run
  | _ => cases active

/-! ## What a leg adds to the dispatches begun -/

/-- A wait that begins is begun. -/
theorem Waits.begun {done : List (Dispatch × Nat)} {id : StepId} {span : Span} {n : Nat}
    (h : Waits p done id span n place effects) : place.begun = done ++ [(.wait id span, n)] := by
  cases h with
  | skips => rw [Place.begun_between]
  | counts pos => rw [Place.begun_waiting]

/-- A run that sets out for its next dispatch uses no length that was drawn. -/
theorem SetsOut.begun {done : List (Dispatch × Nat)}
    (h : SetsOut panel p done told place effects) :
    ∃ new, place.begun = done ++ new ∧ drawnLengths new = [] := by
  cases h with
  | finishes all => exact ⟨[], (Place.begun_ended done).trans (List.append_nil done).symm, rfl⟩
  | calls => exact ⟨_, Place.begun_calling done _ _ _, rfl⟩
  | draws => exact ⟨[], (Place.begun_drawing done _ _).trans (List.append_nil done).symm, rfl⟩
  | waits settled begins => exact ⟨_, begins.begun, by simp [drawnLengths, settled]⟩

/-- A run that sets out does what it is told to do in between. -/
theorem SetsOut.mem_effects {done : List (Dispatch × Nat)} {e : Effect}
    (h : SetsOut panel p done told place effects) (mem : e ∈ told) : e ∈ effects := by
  cases h with
  | finishes all => exact List.mem_append_left _ mem
  | _ => exact List.mem_append_left _ (List.mem_append_right _ mem)

/-- **A run begins one dispatch after the other**, and uses each length that is drawn when it
is drawn, and only then. -/
theorem Leg.begun (h : Leg panel p place signal place' effects) :
    ∃ new, place'.begun = place.begun ++ new ∧ drawnLengths new = signal.drawn?.toList := by
  cases h with
  | @draws done id span n place effects drawn begins =>
    refine ⟨[(.wait id span, n)], ?_, by simp [drawnLengths, drawn, Signal.drawn?]⟩
    rw [begins.begun, Place.begun_drawing]
  | proceeds goes =>
    rw [Place.begun_between]
    exact goes.begun
  | cancels ends sends =>
    refine ⟨[], by rw [Place.begun_ended, List.append_nil], ?_⟩
    cases ends <;> rfl
  -- what is carried out has been begun before
  | _ => exact ⟨[], by simp, rfl⟩

/-- A run that counts a wait down does so in the phase of that name. -/
theorem Located.of_waiting {done : List (Dispatch × Nat)} {id : StepId} {span : Span} {n m : Nat}
    (h : Located p phase ⟨done, .waiting id span n m⟩) : ∃ run, phase = .waiting run m := by
  cases h with
  | @waiting run _ _ _ _ _ within lasts pos le => exact ⟨run, rfl⟩

/-- A run that has a command with the controller is in the phase of that command. -/
theorem Located.of_calling {done : List (Dispatch × Nat)} {id : StepId} {output : Relay}
    {power : Power} (h : Located p phase ⟨done, .calling id output power⟩) :
    ∃ run, phase = .calling run output power := by
  cases h with
  | @calling run _ _ _ _ within => exact ⟨run, rfl⟩

/-- A run between two dispatches is in the phase of that name. -/
theorem Located.of_between {done : List (Dispatch × Nat)} (h : Located p phase ⟨done, .between⟩) :
    ∃ run, phase = .between run := by
  cases h with
  | @between run _ behind => exact ⟨run, rfl⟩

/-- A run that has not ended is at some dispatch, or between two. -/
theorem Located.isActive_iff (h : Located p phase place) :
    phase.isActive = true ↔ place.stage ≠ .ended := by
  cases h with
  | ended inactive => simp [inactive]
  | _ => exact iff_of_true rfl Stage.noConfusion

/-- A signal that ends a run leads to its end. -/
theorem Leg.ended_of_isHalt (h : Leg panel p place signal place' effects)
    (halts : signal.isHalt = true) : place'.stage = .ended := by
  cases h with
  | cancels ends sends => rfl
  | _ => cases halts

/-! ## What lies ahead -/

/-- No more dispatches lie behind a run than there are. -/
theorem Located.length_le (h : Located p phase place) : place.done.length ≤ p.route.length := by
  have hle := h.begun.1.length_le
  rw [List.length_map, Place.begun, List.length_append] at hle
  exact Nat.le_trans (Nat.le_add_right _ _) hle

/-- **How much lies ahead of a run**: how many dispatches are not yet carried out, how much is
to be done about the next of them, and how many seconds are left of a wait. -/
def Place.ahead (p : Program) (place : Place) : Nat × Nat × Nat :=
  (p.route.length - place.done.length,
    match place.stage with
    | .between => (2, 0)
    | .drawing _ _ => (1, 0)
    | .waiting _ _ _ left => (0, left)
    | _ => (0, 0))

/-- **Whether a run is further on at a place than at another**: less lies ahead of it there. -/
def Place.Further (p : Program) (place' place : Place) : Prop :=
  Prod.Lex (· < ·) (Prod.Lex (· < ·) (· < ·)) (place'.ahead p) (place.ahead p)

/-- No run gets further on for ever. -/
theorem Place.wellFounded_further (p : Program) : WellFounded (Place.Further p) :=
  InvImage.wf (Place.ahead p) (Prod.lex Nat.lt_wfRel (Prod.lex Nat.lt_wfRel Nat.lt_wfRel)).wf

/-- A run is further on when it has carried out another dispatch. -/
theorem Place.further_concat {done : List (Dispatch × Nat)} (x : Dispatch × Nat)
    (stage stage' : Stage) (le : (done ++ [x]).length ≤ p.route.length) :
    Place.Further p ⟨done ++ [x], stage'⟩ ⟨done, stage⟩ := by
  refine .left _ _ ?_
  rw [List.length_append, List.length_singleton] at le
  show p.route.length - (done ++ [x]).length < p.route.length - done.length
  rw [List.length_append, List.length_singleton]
  omega

/-- A run is further on when a wait has begun. -/
theorem Waits.further {done : List (Dispatch × Nat)} {id : StepId} {span : Span} {n : Nat}
    {stage : Stage} (h : Waits p done id span n place effects)
    (le : place.done.length ≤ p.route.length)
    (waits : Prod.Lex (· < ·) (· < ·) (0, n) (Place.ahead p ⟨done, stage⟩).2) :
    Place.Further p place ⟨done, stage⟩ := by
  cases h with
  | skips => exact Place.further_concat _ _ _ le
  | counts pos => exact .right _ waits

/-- **Each leg brings a run further on**, unless it is the answer to a request. -/
theorem Leg.further (h : Leg panel p place signal place' effects)
    (le : place'.done.length ≤ p.route.length)
    (untaken : ∀ t q, signal ≠ .request (.start t q)) (calm : signal.isHalt = false) :
    Place.Further p place' place := by
  cases h with
  | refuses => exact absurd rfl (untaken _ _)
  | draws drawn begins => exact begins.further le (.left _ _ Nat.zero_lt_one)
  | confirms => exact Place.further_concat _ _ _ le
  | fails => exact Place.further_concat _ _ _ le
  | ticks pos lt => exact .right _ (.right _ (Nat.lt_succ_self _))
  | rings pos => exact Place.further_concat _ _ _ le
  | proceeds goes =>
    cases goes with
    | finishes all => exact .right _ (.left _ _ Nat.zero_lt_two)
    | calls => exact .right _ (.left _ _ Nat.zero_lt_two)
    | draws => exact .right _ (.left _ _ Nat.one_lt_two)
    | waits settled begins => exact begins.further le (.left _ _ Nat.zero_lt_two)
  | cancels ends sends => cases ends <;> cases calm

end Engine

end Switchboard
