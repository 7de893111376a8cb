import Switchboard.Engine.Rig
import Switchboard.Proofs.Course
import Switchboard.Proofs.Traversal

/-!
# What a run publishes

A run tells of itself by events. This module proves that they are the account of
a prefix of what its cursor finds (`Program.route`), which is the expansion of its
program where counts fit: of each dispatch that it has carried
out, the announcement and, if it is a wait, the seconds counted down, and then
one last event that says how the run ended. It does so for every course that
events may take between the start of a run and its end: whatever the controller
answers and however late, and whenever requests arrive and handles are dropped.

`Transcript` says what the events of an ended run can be, and `Underway` what
they are while the run goes on, phase by phase. Each step of the machine either
leads from one phase to another or to a transcript (`Underway.step`); the
position in the program is carried along by `Cursor.ahead`. Once a run has ended,
the engine rests until it takes another start: it answers requests and switches
outputs off, and publishes nothing (`Resting`).
-/

namespace Switchboard

/-- **How many seconds a dispatch may take.** Switching an output takes none that
are counted. -/
def Dispatch.Lasts : Dispatch → Nat → Prop
  | .relay .., n => n = 0
  | .wait _ (.fixed seconds), n => n = seconds.toNat
  | .wait _ (.random min max), n =>
    if min < max then min.toNat ≤ n ∧ n ≤ max.toNat else n = min.toNat

namespace Engine

/-! ## Accounts -/

/-- The seconds of a wait, counted down to 0. -/
def countdown : Nat → List Event
  | 0 => []
  | n + 1 => .tick n :: countdown n

/-- **What is published of a dispatch** that takes a number of seconds. -/
def account (panel : Panel) (x : Dispatch × Nat) : List Event :=
  .stepAdvanced (panel.words x.1) :: countdown x.2

/-- **What is published of dispatches** carried out one after the other. -/
def accounts (panel : Panel) (done : List (Dispatch × Nat)) : List Event :=
  done.flatMap (account panel)

theorem accounts_concat (panel : Panel) (done : List (Dispatch × Nat)) (x : Dispatch × Nat) :
    accounts panel (done ++ [x]) = accounts panel done ++ account panel x := by
  simp [accounts]

/-- What the controller answers to a command. -/
abbrev Answer := Except ActuatorFault Unit

/-- The answer of the controller that a signal brings. -/
def Signal.answer? : Signal → Option Answer
  | .answered result => some result
  | _ => none

/-- The answers of the controller among signals, in order. -/
def answers (signals : List Signal) : List Answer := signals.filterMap Signal.answer?

theorem answers_append (first second : List Signal) :
    answers (first ++ second) = answers first ++ answers second :=
  List.filterMap_append

theorem answers_concat (signals : List Signal) (signal : Signal) :
    answers (signals ++ [signal]) = answers signals ++ signal.answer?.toList := by
  rw [answers_append]
  cases signal <;> rfl

/-- Whether one of the signals ends a run. -/
def halted (signals : List Signal) : Bool := signals.any Signal.isHalt

/-- **One confirmation for each output switched** by dispatches. -/
def confirmations (done : List (Dispatch × Nat)) : List Answer :=
  done.filterMap fun x =>
    match x.1 with
    | .relay .. => some (.ok ())
    | .wait .. => none

theorem confirmations_concat_relay (done : List (Dispatch × Nat)) (id : StepId)
    (output : Relay) (power : Power) (n : Nat) :
    confirmations (done ++ [(.relay id output power, n)]) = confirmations done ++ [.ok ()] := by
  simp [confirmations]

theorem confirmations_concat_wait (done : List (Dispatch × Nat)) (id : StepId) (span : Span)
    (n : Nat) : confirmations (done ++ [(.wait id span, n)]) = confirmations done := by
  simp [confirmations]

/-- **What the events of a run can be once it has ended**, for the dispatches that
a complete run carries out, the answers that the controller gave, and whether the
run was stopped or abandoned. A dispatch that was carried out is one that has been
answered for, or waited for to its end. -/
inductive Transcript (panel : Panel) (dispatches : List Dispatch) :
    List Answer → Bool → List Event → Prop where
  /-- The run is complete: every dispatch was carried out. -/
  | finished {done : List (Dispatch × Nat)} (all : done.map Prod.fst = dispatches)
      (lasting : ∀ x ∈ done, x.1.Lasts x.2) :
      Transcript panel dispatches (confirmations done) false
        (accounts panel done ++ [.finished])
  /-- An output could not be switched. -/
  | failed {done : List (Dispatch × Nat)} {id : StepId} {output : Relay} {power : Power}
      {rest : List Dispatch} {fault : ActuatorFault}
      (upTo : dispatches = done.map Prod.fst ++ .relay id output power :: rest)
      (lasting : ∀ x ∈ done, x.1.Lasts x.2) :
      Transcript panel dispatches (confirmations done ++ [.error fault]) false
        (accounts panel done ++
          [.stepAdvanced (panel.words (.relay id output power)), .error fault.message])
  /-- The run was cancelled while a dispatch was being carried out. -/
  | cut {done : List (Dispatch × Nat)} {d : Dispatch} {n : Nat} {shown : List Event}
      {rest : List Dispatch} (upTo : dispatches = done.map Prod.fst ++ d :: rest)
      (lasting : ∀ x ∈ done, x.1.Lasts x.2) (lasts : d.Lasts n) (part : shown <+: countdown n) :
      Transcript panel dispatches (confirmations done) true
        (accounts panel done ++ .stepAdvanced (panel.words d) :: shown ++ [.cancelled])
  /-- The run was cancelled between two dispatches, or behind the last. -/
  | between {done : List (Dispatch × Nat)} (ne : done ≠ [])
      (upTo : done.map Prod.fst <+: dispatches) (lasting : ∀ x ∈ done, x.1.Lasts x.2) :
      Transcript panel dispatches (confirmations done) true
        (accounts panel done ++ [.cancelled])

/-! ## Where a run is -/

/-- **A run has carried out some dispatches**, and goes on where its cursor
stands. -/
structure Run.Behind (p : Program) (done : List (Dispatch × Nat)) (run : Run) : Prop where
  /-- The program. -/
  program : run.program = p
  /-- The cursor goes through the steps of the program. -/
  inside : run.cursor.Inside p.steps
  /-- What it has ahead is what is left to be found. -/
  upTo : p.route = done.map Prod.fst ++ run.cursor.ahead.map Prod.fst
  /-- Each dispatch took as long as it may. -/
  lasting : ∀ x ∈ done, x.1.Lasts x.2

/-- **A run carries out a dispatch**, behind others. -/
structure Run.Within (p : Program) (done : List (Dispatch × Nat)) (d : Dispatch) (run : Run) :
    Prop where
  /-- The program. -/
  program : run.program = p
  /-- The cursor stands at the step that is carried out. -/
  stands : run.cursor.Stands p.steps d
  /-- What the cursor has ahead is what is left to be found. -/
  upTo : p.route = done.map Prod.fst ++ d :: run.cursor.advance.ahead.map Prod.fst
  /-- Each dispatch before took as long as it may. -/
  lasting : ∀ x ∈ done, x.1.Lasts x.2

variable {panel : Panel} {p : Program} {run : Run} {done : List (Dispatch × Nat)} {d : Dispatch}

theorem Run.behind_start (p : Program) : Run.Behind p [] ⟨p, .start p.steps⟩ where
  program := rfl
  inside := Cursor.inside_start p.steps
  upTo := by
    rw [Cursor.ahead_start]
    rfl
  lasting := by simp

/-- A run that has carried a dispatch out is behind it. -/
theorem Run.Within.complete (h : run.Within p done d) {n : Nat} (hn : d.Lasts n) :
    Run.Behind p (done ++ [(d, n)]) { run with cursor := run.cursor.advance } where
  program := h.program
  inside := h.stands.inside_advance
  upTo := by
    rw [h.upTo, List.map_append, List.append_assoc]
    rfl
  lasting := by
    intro x hx
    rcases List.mem_append.mp hx with hx | hx
    · exact h.lasting x hx
    · rw [List.mem_singleton.mp hx]
      exact hn

/-- **What the events of a run are while it goes on**, and what the controller has
answered. -/
inductive Underway (panel : Panel) (p : Program) :
    Phase → List Answer → List Event → Prop where
  /-- The step is announced. -/
  | drawing {run : Run} {done : List (Dispatch × Nat)} {id : StepId} {min max : UInt64}
      (within : run.Within p done (.wait id (.random min max))) (lt : min < max) :
      Underway panel p (.drawing run min.toNat max.toNat) (confirmations done)
        (accounts panel done ++ [.stepAdvanced waitingWords])
  /-- The step is announced. -/
  | calling {run : Run} {done : List (Dispatch × Nat)} {id : StepId} {output : Relay}
      {power : Power} (within : run.Within p done (.relay id output power)) :
      Underway panel p (.calling run output power) (confirmations done)
        (accounts panel done ++ [.stepAdvanced (panel.words (.relay id output power))])
  /-- The step is announced, and some of its seconds are counted down. -/
  | waiting {run : Run} {done : List (Dispatch × Nat)} {id : StepId} {span : Span} {n m : Nat}
      {shown : List Event} (within : run.Within p done (.wait id span))
      (lasts : (Dispatch.wait id span).Lasts n) (pos : 0 < m)
      (split : shown ++ countdown m = countdown n) :
      Underway panel p (.waiting run m) (confirmations done)
        (accounts panel done ++ .stepAdvanced waitingWords :: shown)
  /-- The step is carried out. -/
  | between {run : Run} {done : List (Dispatch × Nat)} (ne : done ≠ [])
      (behind : Run.Behind p done { run with cursor := run.cursor.advance }) :
      Underway panel p (.between run) (confirmations done) (accounts panel done)

/-! ## Steps of a run -/

theorem Underway.isActive {phase : Phase} {as : List Answer} {es : List Event}
    (h : Underway panel p phase as es) : phase.isActive = true := by
  cases h <;> rfl

/-- A wait that begins is announced already. -/
theorem Run.Within.wait {id : StepId} {span : Span} (h : run.Within p done (.wait id span))
    (panel : Panel) {n : Nat} (hn : (Dispatch.wait id span).Lasts n) :
    Underway panel p (run.wait n).1 (confirmations done)
      (accounts panel done ++ .stepAdvanced waitingWords :: events (run.wait n).2) := by
  unfold Run.wait
  by_cases hz : n = 0
  · subst hz
    rw [if_pos rfl, ← confirmations_concat_wait done id span 0]
    have hac : accounts panel (done ++ [(.wait id span, 0)])
        = accounts panel done ++ .stepAdvanced waitingWords :: events [] :=
      accounts_concat panel done (.wait id span, 0)
    rw [← hac]
    exact .between (List.concat_ne_nil _ _) (h.complete hn)
  · rw [if_neg hz]
    exact .waiting h hn (Nat.pos_of_ne_zero hz) (List.nil_append _)

/-- A step that begins is announced already. -/
theorem Run.Within.carryOut (h : run.Within p done d) (panel : Panel) :
    Underway panel p (run.carryOut d).1 (confirmations done)
      (accounts panel done ++ .stepAdvanced (panel.words d) :: events (run.carryOut d).2) := by
  cases d with
  | relay id output power => exact .calling h
  | wait id span =>
    cases span with
    | fixed seconds => exact h.wait panel rfl
    | random min max =>
      dsimp only [Run.carryOut]
      by_cases lt : min < max
      · rw [if_pos lt]
        exact .drawing h lt
      · rw [if_neg lt]
        refine h.wait panel ?_
        rw [Dispatch.Lasts, if_neg lt]

/-- **A run that goes on** is complete, or announces the next step and begins it. -/
theorem Run.Behind.proceed (h : Run.Behind p done run) (panel : Panel) (effects : List Effect)
    (silent : events effects = []) :
    ((run.proceed panel effects).1 = .idle
        ∧ Transcript panel p.route (confirmations done) false
          (accounts panel done ++ events (run.proceed panel effects).2))
      ∨ Underway panel p (run.proceed panel effects).1 (confirmations done)
          (accounts panel done ++ events (run.proceed panel effects).2) := by
  unfold Run.proceed
  obtain ⟨hnil, hr⟩ | ⟨d, found, hr, hs, he⟩ := h.inside.resolve_cases
  · left
    have hall : done.map Prod.fst = p.route := by
      rw [h.upTo, hnil, List.map_nil, List.append_nil]
    simp only [hr, events_append, silent, List.nil_append]
    exact ⟨trivial, .finished hall h.lasting⟩
  · right
    have hw : Run.Within p done d { run with cursor := found } :=
      ⟨h.program, hs, by rw [h.upTo, ← he, hs.ahead_eq, List.map_cons], h.lasting⟩
    have hc := hw.carryOut panel
    simp only [hr, events_append, silent, List.append_nil]
    exact hc

/-- The next second of a wait is the next of its countdown. -/
theorem countdown_split {shown : List Event} {m n : Nat}
    (split : shown ++ countdown (m + 1) = countdown n) :
    shown ++ [.tick m] ++ countdown m = countdown n := by
  rw [← split, List.append_assoc]
  rfl

/-- A run that is cancelled while it carries a dispatch out. -/
theorem Run.Within.cancel (h : run.Within p done d) {n : Nat} (hn : d.Lasts n)
    {shown : List Event} (part : shown <+: countdown n) {effects : List Effect}
    (silent : events effects = []) :
    Transcript panel p.route (confirmations done ++ []) true
      (accounts panel done ++ .stepAdvanced (panel.words d) :: shown
        ++ events (cancellation ++ effects)) := by
  rw [List.append_nil, events_append, silent, List.append_nil]
  exact .cut h.upTo h.lasting hn part

/-- A run that is cancelled between two dispatches. -/
theorem Run.Behind.cancel (h : Run.Behind p done run) (ne : done ≠ []) {effects : List Effect}
    (silent : events effects = []) :
    Transcript panel p.route (confirmations done ++ []) true
      (accounts panel done ++ events (cancellation ++ effects)) := by
  rw [List.append_nil, events_append, silent, List.append_nil]
  exact .between ne (h.upTo ▸ List.prefix_append _ _) h.lasting

/-- **Each step of the machine keeps the account of a run**: it leads to another
phase of the run, or the run has ended and the account is a transcript. -/
theorem Underway.step {phase next : Phase} {signal : Signal} {effects : List Effect}
    {as : List Answer} {es : List Event} (h : Underway panel p phase as es)
    (ht : Transition panel phase signal next effects) :
    Underway panel p next (as ++ signal.answer?.toList) (es ++ events effects)
        ∧ signal.isHalt = false
      ∨ next.isActive = false
        ∧ Transcript panel p.route (as ++ signal.answer?.toList) signal.isHalt
          (es ++ events effects) := by
  cases ht with
  | refuses listens =>
    -- the run goes on as if nobody had asked
    refine .inl ⟨?_, rfl⟩
    show Underway panel p phase (as ++ []) (es ++ [])
    rw [List.append_nil, List.append_nil]
    exact h
  | @draws run _ _ n next effects ge le waits =>
    cases h with
    | @drawing _ done id min max within lt =>
      have hlasts : (Dispatch.wait id (.random min max)).Lasts n := by
        rw [Dispatch.Lasts, if_pos lt]
        exact ⟨ge, le⟩
      have hw := within.wait panel hlasts
      rw [waits] at hw
      refine .inl ⟨?_, rfl⟩
      show Underway panel p next (confirmations done ++ []) _
      rw [List.append_nil, List.append_assoc]
      exact hw
  | @confirms run output power =>
    cases h with
    | @calling _ done id _ _ within =>
      have hb : Underway panel p (.between run) _ _ :=
        .between (List.concat_ne_nil _ done) (within.complete (n := 0) rfl)
      rw [confirmations_concat_relay, accounts_concat] at hb
      refine .inl ⟨?_, rfl⟩
      show Underway panel p (.between run) _ (_ ++ [])
      rw [List.append_nil]
      exact hb
  | @fails run output power fault =>
    cases h with
    | calling within =>
      refine .inr ⟨rfl, ?_⟩
      show Transcript panel p.route _ false (_ ++ [Event.error fault.message])
      rw [List.append_assoc]
      exact .failed within.upTo within.lasting
  | @ticks run m pos =>
    cases h with
    | @waiting _ done id span n _ shown within lasts _ split =>
      have hw : Underway panel p (.waiting run m) _ _ :=
        .waiting within lasts pos (countdown_split split)
      refine .inl ⟨?_, rfl⟩
      show Underway panel p (.waiting run m) (_ ++ []) (_ ++ [Event.tick m])
      rw [List.append_nil, List.append_assoc]
      exact hw
  | @rings run m le =>
    cases h with
    | @waiting _ done id span n _ shown within lasts pos split =>
      -- a wait has at least a second left, so that this is the one counted down to 0
      obtain rfl : m = 1 := by omega
      have hsplit : shown ++ [.tick 0] = countdown n := by
        rw [← countdown_split split]
        exact (List.append_nil _).symm
      have hb : Underway panel p (.between run) _ _ :=
        .between (List.concat_ne_nil _ done) (within.complete lasts)
      rw [confirmations_concat_wait, accounts_concat, account, ← hsplit] at hb
      refine .inl ⟨?_, rfl⟩
      show Underway panel p (.between run) (_ ++ []) (_ ++ [Event.tick 0])
      rw [List.append_nil, List.append_assoc]
      exact hb
  | @proceeds run next effects goes =>
    cases h with
    | between ne behind =>
      have hp := behind.proceed panel [] rfl
      rw [goes] at hp
      show Underway panel p next (_ ++ []) _ ∧ _
        ∨ next.isActive = false ∧ Transcript _ _ (_ ++ []) false _
      rw [List.append_nil]
      obtain ⟨rfl, htr⟩ | hu := hp
      · exact .inr ⟨rfl, htr⟩
      · exact .inl ⟨hu, rfl⟩
  | cuts ends =>
    cases h with
    | calling within => cases ends <;> exact .inr ⟨rfl, within.cancel rfl List.nil_prefix rfl⟩
  | haltsWaiting ends =>
    cases h with
    | waiting within lasts pos split =>
      cases ends <;> exact .inr ⟨rfl, within.cancel lasts ⟨_, split⟩ rfl⟩
  | haltsBetween ends =>
    cases h with
    | between ne behind => cases ends <;> exact .inr ⟨rfl, behind.cancel ne rfl⟩
  -- the other rules are for phases that belong to no run
  | _ => cases h

/-- **An idle engine that takes a start** begins the account of a run, which may be
over at once. -/
theorem Underway.start {next : Phase} {effects : List Effect} {t : Ticket} (ne : p.steps ≠ [])
    (ht : Transition panel .idle (.request (.start t p)) next effects) :
    Underway panel p next [] (events effects)
      ∨ next.isActive = false ∧ Transcript panel p.route [] false (events effects) := by
  cases ht with
  | declines none => exact absurd none ne
  | starts _ goes =>
    have hp := (Run.behind_start p).proceed panel [.answer t .started] rfl
    rw [goes] at hp
    obtain ⟨rfl, htr⟩ | hu := hp
    · exact .inr ⟨rfl, htr⟩
    · exact .inl hu
  | refuses listens => cases listens

/-! ## After a run -/

/-- **What an engine does that runs nothing**: it switches outputs off, and answers. -/
def Effect.IsRestful (e : Effect) : Prop :=
  (∃ output, e = .command output .off) ∨ ∃ ticket reply, e = .answer ticket reply

/-- **An engine that runs nothing publishes nothing and records nothing**, unless it
takes a start. -/
theorem Transition.resting {phase next : Phase} {signal : Signal} {effects : List Effect}
    (ht : Transition panel phase signal next effects) (rests : phase.isActive = false)
    (other : ∀ t p, signal ≠ .request (.start t p)) :
    next.isActive = false ∧ (∀ e ∈ effects, e.IsRestful)
      ∧ ∀ shown, effects.foldl Status.after shown = shown := by
  -- a sweep sends one command at a time
  have sends : ∀ output, ∀ e ∈ [Effect.command output .off], e.IsRestful := by
    intro output e he
    rw [List.mem_singleton.mp he]
    exact .inl ⟨output, rfl⟩
  have nothing : ∀ e ∈ ([] : List Effect), e.IsRestful := fun e he => absurd he List.not_mem_nil
  cases ht with
  | declines none => exact absurd rfl (other _ _)
  | starts ne goes => exact absurd rfl (other _ _)
  | refuses listens => exact absurd rfl (other _ _)
  | sweeps => exact ⟨rfl, sends _, fun _ => rfl⟩
  | lands => exact ⟨rfl, sends _, fun _ => rfl⟩
  | sweepsOn => exact ⟨rfl, sends _, fun _ => rfl⟩
  | reports =>
    refine ⟨rfl, fun e he => ?_, fun _ => rfl⟩
    rw [List.mem_singleton.mp he]
    exact .inr ⟨_, _, rfl⟩
  | sweepsUp => exact ⟨rfl, nothing, fun _ => rfl⟩
  | ends => exact ⟨rfl, nothing, fun _ => rfl⟩
  | _ => cases rests

/-! ## Whole runs -/

namespace Simulation

variable {σ : Type}

/-- **A run of a program**, from the state in which the idle engine takes its start
to some later one, with the signals that the engine took notice of since. The
run may have ended in the later state, but not before. -/
inductive Runs (s : Surroundings σ) (drift : σ → σ → Prop) (t : Ticket) (p : Program)
    (x : Simulation σ) : List Signal → Simulation σ → Prop where
  /-- The start is taken. -/
  | begins {rest : List Request} {y : Simulation σ} (idle : x.phase = .idle)
      (head : x.queue = .start t p :: rest) (took : take? s x = some y) :
      Runs s drift t p x [] y
  /-- Something happens while the run goes on. -/
  | goesOn {signals : List Signal} {signal : Option Signal} {y z : Simulation σ}
      (before : Runs s drift t p x signals y) (active : y.phase.isActive = true)
      (next : Happens s drift y signal z) :
      Runs s drift t p x (signals ++ signal.toList) z

variable {s : Surroundings σ} {drift : σ → σ → Prop} {t : Ticket} {x y z : Simulation σ}
  {signals : List Signal}

/-- **An engine rests**: since an earlier state it has done nothing but switch outputs
off and answer, and the status is as it was. -/
structure Resting (x z : Simulation σ) : Prop where
  /-- Nothing runs. -/
  inactive : z.phase.isActive = false
  /-- The status is as it was. -/
  status : z.status = x.status
  /-- Outputs were switched off, and requests answered. -/
  effects : ∃ es, z.effects = x.effects ++ es ∧ ∀ e ∈ es, e.IsRestful

/-- **An engine that runs nothing rests until it takes a start.** -/
theorem Course.resting (h : Course s drift x signals z) (rests : x.phase.isActive = false)
    (noStart : ∀ t p, Signal.request (.start t p) ∉ signals) : Resting x z := by
  induction h with
  | refl => exact ⟨rests, rfl, [], (List.append_nil _).symm, by simp⟩
  | @snoc signals signal y z before next ih =>
    have hr := ih fun t p hm => noStart t p (List.mem_append_left _ hm)
    obtain ⟨es, hes, hall⟩ := hr.effects
    cases signal with
    | none =>
      have hn := next.unnoticed
      exact ⟨hn.phase ▸ hr.inactive, hn.status.trans hr.status, es, hn.effects.trans hes, hall⟩
    | some signal =>
      obtain ⟨effects, hn⟩ := next.noticed
      obtain ⟨hinactive, hrest, hshown⟩ := hn.step.resting hr.inactive
        fun t p he => noStart t p (List.mem_append_right _ (he ▸ List.mem_singleton_self _))
      refine ⟨hinactive, ?_, es ++ effects, ?_, ?_⟩
      · rw [hn.status, hshown, hr.status]
      · rw [hn.effects, hes, List.append_assoc]
      · intro e he
        rcases List.mem_append.mp he with he | he
        · exact hall e he
        · exact hrest e he

/-- An engine that rests publishes nothing. -/
theorem Resting.published (h : Resting x z) : z.published = x.published := by
  obtain ⟨es, hes, hall⟩ := h.effects
  have hnone : events es = [] := by
    refine List.filterMap_eq_nil_iff.mpr fun e he => ?_
    obtain ⟨output, rfl⟩ | ⟨ticket, reply, rfl⟩ := hall e he
    · rfl
    · rfl
  rw [Simulation.published, hes, events_append, hnone, List.append_nil]
  rfl

/-- The start of a run is the first signal of its course. -/
theorem Runs.course (h : Runs s drift t p x signals z) :
    Course s drift x (.request (.start t p) :: signals) z := by
  induction h with
  | begins idle head took => exact (Happens.takes head took).course
  | goesOn before active next ih => exact ih.snoc next

/-- The step with which a run begins. -/
theorem noticed_of_begins {rest : List Request} (idle : x.phase = .idle)
    (head : x.queue = .start t p :: rest) (took : take? s x = some y) :
    ∃ effects, Noticed s x (.request (.start t p)) effects y
      ∧ Transition s.panel .idle (.request (.start t p)) y.phase effects := by
  have happens : Happens s (fun _ _ => True) x (some (.request (.start t p))) y := .takes head took
  obtain ⟨effects, hn⟩ := happens.noticed
  exact ⟨effects, hn, idle ▸ hn.step⟩

/-- **What a run has published so far** is the account of a run underway, or a
transcript. -/
theorem Runs.account (h : Runs s drift t p x signals z) (ne : p.steps ≠ []) :
    ∃ es, z.published = x.published ++ es
      ∧ (Underway s.panel p z.phase (answers signals) es ∧ halted signals = false
        ∨ z.phase.isActive = false
          ∧ Transcript s.panel p.route (answers signals) (halted signals) es) := by
  induction h with
  | @begins rest y idle head took =>
    obtain ⟨effects, hn, hstep⟩ := noticed_of_begins idle head took
    refine ⟨events effects, ?_, (Underway.start ne hstep).imp_left fun hu => ⟨hu, rfl⟩⟩
    rw [published, hn.effects, events_append]
    rfl
  | @goesOn signals signal y z before active next ih =>
    obtain ⟨es, hes, hacc⟩ := ih
    -- the run has not ended before, so that its account is one of a run underway
    have hu : Underway s.panel p y.phase (answers signals) es ∧ halted signals = false := by
      rcases hacc with hu | ⟨hinactive, -⟩
      · exact hu
      · rw [active] at hinactive
        cases hinactive
    cases signal with
    | none =>
      have hn := next.unnoticed
      refine ⟨es, ?_, .inl ?_⟩
      · rw [published, hn.effects]
        exact hes
      · rw [hn.phase, Option.toList_none, List.append_nil]
        exact hu
    | some signal =>
      obtain ⟨effects, hn⟩ := next.noticed
      have hhalted : halted (signals ++ (some signal).toList) = signal.isHalt := by
        rw [halted, List.any_append, ← halted, hu.2]
        exact Bool.or_false _
      refine ⟨es ++ events effects, ?_, ?_⟩
      · rw [published, hn.effects, events_append, ← List.append_assoc, ← hes]
        rfl
      · rw [Option.toList_some, answers_concat, ← Option.toList_some, hhalted]
        exact hu.1.step hn.step

/-- A run that has not ended is underway. -/
theorem Runs.underway (h : Runs s drift t p x signals z) (ne : p.steps ≠ [])
    (active : z.phase.isActive = true) :
    ∃ published, Underway s.panel p z.phase (answers signals) published := by
  obtain ⟨published, -, ⟨hu, -⟩ | ⟨hinactive, -⟩⟩ := h.account ne
  · exact ⟨published, hu⟩
  · rw [active] at hinactive
    cases hinactive

/-- **The events of a run that has ended are the transcript of a prefix of its
expansion**, where the counts of its program fit. This holds of every course that a
run can take, for every panel, latency and length of a random wait, whatever the
controller answers, and at whatever instants requests arrive and handles are
dropped. A run is complete only where every dispatch of the expansion was carried out; it fails
only right after the announcement of the output that could not be switched; and
otherwise it was cancelled, because it was stopped or abandoned, perhaps within a
dispatch, of which only a part is then counted down. Nothing more is published
until another start is taken. -/
theorem Runs.transcript (h : Runs s drift t p x signals z) (ne : p.steps ≠ [])
    (fits : p.CountsFit) (ended : z.phase.isActive = false) :
    ∃ es, z.published = x.published ++ es
      ∧ Transcript s.panel p.expand (answers signals) (halted signals) es
      ∧ ∀ {later w}, Course s drift z later w →
        (∀ t p, Signal.request (.start t p) ∉ later) → w.published = z.published := by
  obtain ⟨es, hes, hacc⟩ := h.account ne
  rw [← fits.route_eq]
  refine ⟨es, hes, ?_, fun course noStart => (course.resting ended noStart).published⟩
  rcases hacc with ⟨hu, -⟩ | ⟨-, ht⟩
  · rw [hu.isActive] at ended
    cases ended
  · exact ht

/-- A program that switches an output on and waits for a second, twice. -/
def blink : Program :=
  ⟨"blink", "Blink", true, [.loop "twice" 2 [.relay "on" .first .on, .wait "rest" (.fixed 1)]]⟩

/-- A run of `blink` that is stopped while its second command is on its way. -/
theorem Runs.transcript_blink :
    ∃ signals z,
      Runs (Rig.surroundings .unlabelled 1000 0) (fun _ _ => False) 0 blink
          { world := {}, queue := [.start 0 blink] } signals z
        ∧ blink.steps ≠ [] ∧ blink.CountsFit ∧ z.phase.isActive = false
        ∧ z.published = [.stepAdvanced "Relay 1: activate", .stepAdvanced "waiting", .tick 0,
          .stepAdvanced "Relay 1: activate", .cancelled]
        ∧ Transcript .unlabelled blink.expand (answers signals) (halted signals) z.published := by
  have h₁ : Runs (Rig.surroundings .unlabelled 1000 0) (fun _ _ => False) 0 blink
      { world := {}, queue := [.start 0 blink] } [] _ := .begins rfl rfl rfl
  have h₂ := h₁.goesOn rfl (.lands rfl rfl)
  have h₃ := h₂.goesOn rfl (.goesOn rfl rfl rfl)
  have h₄ := h₃.goesOn rfl (.passes 1000 (by decide))
  have h₅ := h₄.goesOn rfl (.rings rfl)
  have h₆ := h₅.goesOn rfl (.goesOn rfl rfl rfl)
  have h₇ := h₆.goesOn rfl (.asks (.stop 1) (.inl rfl))
  have h₈ := h₇.goesOn rfl (.takes rfl rfl)
  have fits : blink.CountsFit := by decide
  obtain ⟨es, hes, ht, -⟩ := h₈.transcript (List.cons_ne_nil _ _) fits rfl
  obtain rfl : es = _ := hes.symm
  exact ⟨_, _, h₈, List.cons_ne_nil _ _, fits, rfl, rfl, ht⟩

end Simulation

end Engine

end Switchboard
