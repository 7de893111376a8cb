import Switchboard.Proofs.Answers

/-!
# The last word of a run

What a run publishes last tells how it ended, and nothing else that it publishes does
(`Concluded`). While it goes on, no such event has been published (`Ongoing`). An engine that is
asked to run a single program therefore never publishes anything behind the event that ends the
run: whoever reads that event has read the last of all (`Course.oneRun`).

A run begins where a start is answered by `started`, so that the runs of an engine are counted by
such answers (`begun`). Starts that are refused, and programs without steps, do not count.
-/

namespace Switchboard.Engine

/-! ## Events of one run -/

/-- **Events of a run that goes on**: none of them ends it. -/
def Ongoing (es : List Event) : Prop := ∀ e ∈ es, e.isTerminal = false

/-- **Events of a run that is over**: the last of them ends it, and none before. -/
def Concluded (es : List Event) : Prop :=
  ∃ shown last, es = shown ++ [last] ∧ Ongoing shown ∧ last.isTerminal = true

/-- **What a run has published** that has led to a phase: it is over unless the phase is one of
the run. -/
inductive Told (phase : Phase) (es : List Event) : Prop where
  /-- The run goes on. -/
  | ongoing (active : phase.isActive = true) (unended : Ongoing es) : Told phase es
  /-- The run is over. -/
  | concluded (rests : phase.isActive = false) (last : Concluded es) : Told phase es

theorem ongoing_nil : Ongoing [] := fun _ he => absurd he List.not_mem_nil

theorem ongoing_singleton {e : Event} (unended : e.isTerminal = false) : Ongoing [e] :=
  fun _ hf => List.mem_singleton.mp hf ▸ unended

theorem concluded_singleton {e : Event} (terminal : e.isTerminal = true) : Concluded [e] :=
  ⟨[], e, rfl, ongoing_nil, terminal⟩

theorem Ongoing.append {es fs : List Event} (h : Ongoing es) (h' : Ongoing fs) :
    Ongoing (es ++ fs) :=
  fun e he => (List.mem_append.mp he).elim (h e) (h' e)

/-- A run that went on is where its latest events have led it. -/
theorem Told.append {phase : Phase} {es fs : List Event} (h : Ongoing es) (h' : Told phase fs) :
    Told phase (es ++ fs) := by
  cases h' with
  | ongoing active unended => exact .ongoing active (h.append unended)
  | concluded rests last =>
    obtain ⟨shown, e, rfl, hshown, he⟩ := last
    exact .concluded rests ⟨es ++ shown, e, (List.append_assoc ..).symm, h.append hshown, he⟩

/-- **The event that ends a run is the last**, and there is no other. -/
theorem Concluded.eq_of_mem {es : List Event} {e e' : Event} (h : Concluded es) (he : e ∈ es)
    (he' : e' ∈ es) (terminal : e.isTerminal = true) (terminal' : e'.isTerminal = true) :
    e = e' := by
  obtain ⟨shown, last, rfl, hshown, -⟩ := h
  have key : ∀ {f}, f ∈ shown ++ [last] → f.isTerminal = true → f = last := by
    intro f hf hterminal
    rcases List.mem_append.mp hf with hf | hf
    · rw [hshown f hf] at hterminal
      cases hterminal
    · exact List.mem_singleton.mp hf
  rw [key he terminal, key he' terminal']

/-! ## Counting runs -/

/-- **The starts by which runs began**, among answers. -/
def begun (answers : List (Ticket × Reply)) : List Ticket :=
  (answers.filter fun a => a.2 = .started).map Prod.fst

@[simp] theorem begun_append (as bs : List (Ticket × Reply)) :
    begun (as ++ bs) = begun as ++ begun bs := by
  simp [begun]

theorem mem_begun {as : List (Ticket × Reply)} {t : Ticket} :
    t ∈ begun as ↔ (t, .started) ∈ as := by
  simp [begun]

/-- A start that is taken begins a run if none is going on and the program has steps. -/
theorem begun_verdict (t : Ticket) (p : Program) (running : Bool) :
    begun [(t, verdict running p)] = if running = false ∧ p.steps ≠ [] then [t] else [] := by
  cases running with
  | true => simp [begun, verdict]
  | false =>
    by_cases none : p.steps = []
    · simp [begun, verdict, none]
    · simp [begun, verdict, none]

/-! ## What a step publishes -/

variable {panel : Panel} {phase next : Phase} {signal : Signal} {effects : List Effect}

theorem Run.events_wait (run : Run) (n : Nat) : events (run.wait n).2 = [] := by
  unfold Run.wait
  split
  · rfl
  · rfl

/-- A step that has been announced publishes nothing more when it begins. -/
theorem Run.events_carryOut (run : Run) (d : Dispatch) : events (run.carryOut d).2 = [] := by
  cases d with
  | relay id output power => rfl
  | wait id span =>
    cases span with
    | fixed seconds => exact run.events_wait _
    | random min max =>
      dsimp only [Run.carryOut]
      split
      · rfl
      · exact run.events_wait _

/-- **A run that goes on** announces its next step, or that it is complete. -/
theorem Run.told_proceed (panel : Panel) (run : Run) {told : List Effect}
    (silent : events told = []) :
    Told (run.proceed panel told).1 (events (run.proceed panel told).2) := by
  unfold Run.proceed
  split
  · rw [events_append, silent]
    exact .concluded rfl (concluded_singleton rfl)
  · rename_i d cursor hr
    rw [events_append, events_append, silent, Run.events_carryOut]
    exact .ongoing (Run.carries_carryOut _ d).active (ongoing_singleton rfl)

/-- **A step of a run publishes no event that ends it, or as its last.** -/
theorem Transition.told (ht : Transition panel phase signal next effects)
    (active : phase.isActive = true) : Told next (events effects) := by
  cases ht with
  | refuses listens => exact .ongoing active ongoing_nil
  | @draws run min max n next effects ge le waits =>
    have hw := run.carries_wait n
    have hevents := run.events_wait n
    rw [waits] at hw hevents
    rw [hevents]
    exact .ongoing hw.active ongoing_nil
  | confirms => exact .ongoing rfl ongoing_nil
  | fails => exact .concluded rfl (concluded_singleton rfl)
  | ticks pos => exact .ongoing rfl (ongoing_singleton rfl)
  | rings le => exact .ongoing rfl (ongoing_singleton rfl)
  | @proceeds run next effects goes =>
    have hp := Run.told_proceed panel { run with cursor := run.cursor.advance }
      (show events [] = [] from rfl)
    rw [goes] at hp
    exact hp
  | cuts ends => exact .concluded rfl (concluded_singleton rfl)
  | haltsWaiting ends => exact .concluded rfl (concluded_singleton rfl)
  | haltsBetween ends => exact .concluded rfl (concluded_singleton rfl)
  | _ => cases active

/-- **An engine that runs nothing** begins a run, or publishes nothing. -/
theorem Transition.begins_or_silent (ht : Transition panel phase signal next effects)
    (rests : phase.isActive = false) :
    (∃ t, begun (replies effects) = [t] ∧ Told next (events effects))
      ∨ begun (replies effects) = [] ∧ next.isActive = false ∧ events effects = [] := by
  cases ht with
  | @starts t p next effects ne goes =>
    have hp := Run.proceeds panel ⟨p, .start p.steps⟩
      (show Alternate false [.answer t .started] from ⟨rfl, trivial⟩) rfl
    have htold := Run.told_proceed panel ⟨p, .start p.steps⟩
      (show events [.answer t .started] = [] from rfl)
    rw [goes] at hp htold
    refine .inl ⟨t, ?_, htold⟩
    rw [hp.replies]
    rfl
  | refuses listens =>
    rw [Phase.isActive_of_isListening listens] at rests
    cases rests
  | declines none => exact .inr ⟨rfl, rfl, rfl⟩
  | sweeps => exact .inr ⟨rfl, rfl, rfl⟩
  | lands => exact .inr ⟨rfl, rfl, rfl⟩
  | sweepsOn => exact .inr ⟨rfl, rfl, rfl⟩
  | reports => exact .inr ⟨rfl, rfl, rfl⟩
  | sweepsUp => exact .inr ⟨rfl, rfl, rfl⟩
  | ends => exact .inr ⟨rfl, rfl, rfl⟩
  | _ => cases rests

/-- **A stop that is taken cancels the run that is going on**, if there is one, and publishes
nothing else. -/
theorem Transition.stops {t : Ticket}
    (ht : Transition panel phase (.request (.stop t)) next effects) :
    next.isActive = false ∧ events effects = if phase.isActive then [.cancelled] else [] := by
  cases ht with
  | sweeps => exact ⟨rfl, rfl⟩
  | cuts ends => cases ends; exact ⟨rfl, rfl⟩
  | haltsWaiting ends => cases ends; exact ⟨rfl, rfl⟩
  | haltsBetween ends => cases ends; exact ⟨rfl, rfl⟩

/-! ## Engines that run a single program -/

/-- **Where an engine stands that has begun one run at most**: in which phase, with which starts
that began a run, and with what it has published. -/
inductive OneRun (phase : Phase) : List Ticket → List Event → Prop where
  /-- No run has begun yet. -/
  | before (rests : phase.isActive = false) : OneRun phase [] []
  /-- A run has begun, and everything that was published belongs to it. -/
  | since {t : Ticket} {es : List Event} (told : Told phase es) : OneRun phase [t] es

/-- **A step keeps to the one run**, unless it begins a second. -/
theorem OneRun.step {ts : List Ticket} {es : List Event} (h : OneRun phase ts es)
    (ht : Transition panel phase signal next effects)
    (once : (ts ++ begun (replies effects)).length ≤ 1) :
    OneRun next (ts ++ begun (replies effects)) (es ++ events effects) := by
  cases h with
  | before rests =>
    rcases ht.begins_or_silent rests with ⟨t, hbegun, htold⟩ | ⟨hbegun, hrests, hevents⟩
    · rw [hbegun]
      exact .since htold
    · rw [hbegun, hevents]
      exact .before hrests
  | @since t es told =>
    have hbegun : begun (replies effects) = [] := by
      rw [List.length_append, List.length_singleton] at once
      exact List.length_eq_zero_iff.mp (by omega)
    rw [hbegun]
    cases told with
    | ongoing active unended => exact .since ((ht.told active).append unended)
    | concluded rests last =>
      rcases ht.begins_or_silent rests with ⟨t', hbegun', -⟩ | ⟨-, hrests, hevents⟩
      · rw [hbegun] at hbegun'
        cases hbegun'
      · rw [hevents, List.append_nil, List.append_nil]
        exact .since (.concluded hrests last)

/-- **What is not the last event tells of no end.** -/
theorem OneRun.ongoing_take {ts : List Ticket} {es : List Event} {n : Nat} (h : OneRun phase ts es)
    (lt : n < es.length) : Ongoing (es.take n) := by
  cases h with
  | before rests => exact absurd lt (Nat.not_lt_zero n)
  | since told =>
    cases told with
    | ongoing active unended => exact fun e he => unended e (List.mem_of_mem_take he)
    | concluded rests last =>
      obtain ⟨shown, e, rfl, hshown, -⟩ := last
      rw [List.length_append, List.length_singleton] at lt
      rw [List.take_append_of_le_length (Nat.le_of_lt_succ lt)]
      exact fun e he => hshown e (List.mem_of_mem_take he)

/-- A run that has published how it ended is over. -/
theorem OneRun.concluded {ts : List Ticket} {es : List Event} {e : Event} (h : OneRun phase ts es)
    (he : e ∈ es) (terminal : e.isTerminal = true) :
    Concluded es ∧ phase.isActive = false ∧ ts.length = 1 := by
  cases h with
  | before rests => exact absurd he List.not_mem_nil
  | since told =>
    cases told with
    | ongoing active unended =>
      rw [unended e he] at terminal
      cases terminal
    | concluded rests last => exact ⟨last, rests, rfl⟩

namespace Simulation

variable {σ : Type} {s : Surroundings σ} {drift : σ → σ → Prop} {x y : Simulation σ}

/-- **The runs that an engine has begun**, by the starts that asked for them. -/
def runs (x : Simulation σ) : List Ticket := begun (replies x.effects)

/-- Runs that have begun stay so. -/
theorem Happens.runs_kept {signal : Option Signal} (h : Happens s drift x signal y) :
    x.runs <+: y.runs := by
  obtain ⟨es, hes⟩ := h.course.effects_kept
  rw [runs, runs, ← hes, replies_append, begun_append]
  exact List.prefix_append _ _

/-- What was published stays so. -/
theorem Happens.published_kept {signal : Option Signal} (h : Happens s drift x signal y) :
    x.published <+: y.published := by
  obtain ⟨es, hes⟩ := h.course.effects_kept
  rw [published, published, ← hes, events_append]
  exact List.prefix_append _ _

/-- **Whatever happens to an engine, it keeps to the one run**, unless it begins a second. -/
theorem Happens.oneRun {signal : Option Signal} (h : Happens s drift x signal y)
    (hx : OneRun x.phase x.runs x.published) (once : y.runs.length ≤ 1) :
    OneRun y.phase y.runs y.published := by
  cases signal with
  | none =>
    have hn := h.unnoticed
    rw [runs, published, hn.phase, hn.effects]
    exact hx
  | some signal =>
    obtain ⟨effects, hn⟩ := h.noticed
    rw [runs, hn.effects, replies_append, begun_append] at once
    rw [runs, published, hn.effects, replies_append, begun_append, events_append]
    exact hx.step hn.step once

/-- An engine that has begun a run, and no more than one, begins no other. -/
theorem Happens.runs_eq {signal : Option Signal} (h : Happens s drift x signal y)
    (began : x.runs ≠ []) (once : y.runs.length ≤ 1) : y.runs = x.runs :=
  (h.runs_kept.eq_of_length_le
    (Nat.le_trans once (List.length_pos_of_ne_nil began))).symm

/-- **An engine that has begun a single run** publishes nothing behind the event that ends it. -/
theorem Course.oneRun {signals : List Signal} (h : Course s drift x signals y)
    (hx : OneRun x.phase x.runs x.published) (once : y.runs.length ≤ 1) :
    OneRun y.phase y.runs y.published := by
  induction h with
  | refl => exact hx
  | snoc before next ih =>
    exact next.oneRun (ih (Nat.le_trans next.runs_kept.length_le once)) once

/-- **An engine that runs nothing** goes on to run nothing and publishes nothing, as long as it
begins no run. -/
theorem Happens.silent {signal : Option Signal} (h : Happens s drift x signal y)
    (rests : x.phase.isActive = false) (same : y.runs = x.runs) :
    y.phase.isActive = false ∧ y.published = x.published := by
  cases signal with
  | none =>
    have hn := h.unnoticed
    rw [published, hn.phase, hn.effects]
    exact ⟨rests, rfl⟩
  | some signal =>
    obtain ⟨effects, hn⟩ := h.noticed
    rw [runs, hn.effects, replies_append, begun_append] at same
    have hbegun : begun (replies effects) = [] := List.append_right_eq_self.mp same
    rcases hn.step.begins_or_silent rests with ⟨t, hbegun', -⟩ | ⟨-, hrests, hevents⟩
    · rw [hbegun] at hbegun'
      cases hbegun'
    · refine ⟨hrests, ?_⟩
      rw [published, hn.effects, events_append, hevents, List.append_nil]
      rfl

/-- A request stays pending until it is taken. -/
theorem Happens.takes_or_keeps {signal : Option Signal} {r : Request}
    (h : Happens s drift x signal y) (hr : r ∈ x.pending) :
    r ∈ y.pending ∨ signal = some (.request r) := by
  cases signal with
  | none =>
    rcases h.asks_or_idles with ⟨r', -, rfl⟩ | ⟨hp, -⟩
    · rw [pending_submit]
      exact .inl (List.mem_append_left _ hr)
    · exact .inl (hp ▸ hr)
  | some signal =>
    rw [h.keeps.pending] at hr
    rcases List.mem_append.mp hr with hr | hr
    · cases signal with
      | request r' =>
        obtain rfl := List.mem_singleton.mp hr
        exact .inr rfl
      | _ => exact absurd hr List.not_mem_nil
    · exact .inl hr

/-- **A stop that is taken** cancels the run that is going on, if there is one. -/
theorem Happens.stops {t : Ticket} (h : Happens s drift x (some (.request (.stop t))) y) :
    y.phase.isActive = false
      ∧ y.published = x.published ++ if x.phase.isActive then [.cancelled] else [] := by
  obtain ⟨effects, hn⟩ := h.noticed
  obtain ⟨hrests, hevents⟩ := hn.step.stops
  refine ⟨hrests, ?_⟩
  rw [published, hn.effects, events_append, hevents]
  rfl

end Simulation

end Switchboard.Engine
