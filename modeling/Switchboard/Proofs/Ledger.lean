import Switchboard.Proofs.Transcript

/-!
# What a run leaves in the journal

A run switches outputs and notes in the journal what it has switched. The two are done at
different moments: a command is sent, its answer comes later, and only then is there an
entry, unless the command has failed or the run has been cancelled meanwhile.

This module proves that the journal nevertheless agrees with the commands. While a run goes
on, its entries are the commands that it has sent, but for the one on its way (`Tally`); both
are the beginning of what its cursor finds to switch. How the run ends decides what becomes of
the command on its way (`Closed`). A run that is complete has none, so that all it was to switch
is in the journal.

While no program runs, nothing is entered (`Transition.entries_of_inactive`). In particular,
the off commands of a sweep never are.
-/

namespace Switchboard

/-- What a dispatch switches, if it switches anything. -/
def Dispatch.switching? : Dispatch → Option (Relay × Power)
  | .relay _ output power => some (output, power)
  | .wait .. => none

/-- **What dispatches switch**, in order. -/
def switchings (dispatches : List Dispatch) : List (Relay × Power) :=
  dispatches.filterMap Dispatch.switching?

namespace Engine

/-! ## Commands and entries -/

/-- The command that an effect sends. -/
def Effect.command? : Effect → Option (Relay × Power)
  | .command output power => some (output, power)
  | _ => none

/-- The entry that an effect makes in the journal. -/
def Effect.entry? : Effect → Option (Relay × Power)
  | .record output power => some (output, power)
  | _ => none

/-- **The commands that effects send**, in order. -/
def commands (es : List Effect) : List (Relay × Power) := es.filterMap Effect.command?

/-- **The entries that effects make in the journal**, in order. -/
def entries (es : List Effect) : List (Relay × Power) := es.filterMap Effect.entry?

@[simp] theorem commands_append (es fs : List Effect) :
    commands (es ++ fs) = commands es ++ commands fs :=
  List.filterMap_append

@[simp] theorem entries_append (es fs : List Effect) :
    entries (es ++ fs) = entries es ++ entries fs :=
  List.filterMap_append

/-- **The commands that were confirmed**, for the answers to them in order. Some may not have
been answered. -/
def confirmed (sent : List (Relay × Power)) (answers : List Answer) : List (Relay × Power) :=
  (sent.zip answers).filterMap fun x =>
    match x.2 with
    | .ok () => some x.1
    | .error _ => none

/-- Commands that were all confirmed, in front of others. -/
theorem confirmed_append (logged more : List (Relay × Power)) (rest : List Answer) :
    confirmed (logged ++ more) ((logged.map fun _ => .ok ()) ++ rest)
      = logged ++ confirmed more rest := by
  induction logged with
  | nil => rfl
  | cons c logged ih => exact congrArg (c :: ·) ih

/-- What a run does last is neither a command nor an entry. -/
theorem conclusion (es : List Effect) (e : Event) :
    commands (es ++ [.status .idle, .event e]) = commands es
      ∧ entries (es ++ [.status .idle, .event e]) = entries es
      ∧ (es ++ [Effect.status .idle, .event e]).getLast? = some (.event e) := by
  simp [commands, entries, Effect.command?, Effect.entry?]

/-- The command on its way is the last that was sent. -/
theorem foldl_onWay (es : List Effect) (way : Option (Relay × Power)) :
    es.foldl Effect.onWay way = (commands es).getLast?.or way := by
  induction es generalizing way with
  | nil => rfl
  | cons e es ih =>
    rw [List.foldl_cons, ih]
    cases e with
    | command output power =>
      show (commands es).getLast?.or (some (output, power))
        = ((output, power) :: commands es).getLast?.or way
      rw [List.getLast?_cons]
      cases (commands es).getLast? <;> rfl
    | _ => rfl

/-- A wait that begins sends nothing and makes no entry. -/
theorem Run.wait_silent (run : Run) (n : Nat) :
    (run.wait n).1.isActive = true ∧ commands (run.wait n).2 = []
      ∧ entries (run.wait n).2 = [] := by
  unfold Run.wait
  split
  · exact ⟨rfl, rfl, rfl⟩
  · exact ⟨rfl, rfl, rfl⟩

/-- A step that begins sends what it switches, and makes no entry yet. -/
theorem Run.carryOut_sends (run : Run) (d : Dispatch) :
    (run.carryOut d).1.isActive = true ∧ commands (run.carryOut d).2 = d.switching?.toList
      ∧ entries (run.carryOut d).2 = [] := by
  cases d with
  | relay id output power => exact ⟨rfl, rfl, rfl⟩
  | wait id span =>
    cases span with
    | fixed seconds => exact run.wait_silent _
    | random min max =>
      dsimp only [Run.carryOut]
      split
      · exact ⟨rfl, rfl, rfl⟩
      · exact run.wait_silent _

/-- A run that goes on makes no entry by itself. -/
theorem Run.entries_proceed (panel : Panel) (run : Run) (told : List Effect) :
    entries (run.proceed panel told).2 = entries told := by
  unfold Run.proceed
  split
  · rw [entries_append]
    exact List.append_nil _
  · rename_i d cursor hr
    rw [entries_append, entries_append, (Run.carryOut_sends _ d).2.2, List.append_nil]
    rfl

/-! ## The tally of a run -/

/-- **The tally of a run that goes on**: every answer so far was a confirmation and has its
entry, and the command on its way is the only one without. Both lists are the beginning
of what the program switches. -/
structure Tally (p : Program) (as : List Answer) (way : Option (Relay × Power))
    (sent logged : List (Relay × Power)) : Prop where
  /-- There is one entry for each answer. -/
  answered : as = logged.map fun _ => .ok ()
  /-- The command on its way has no entry yet. -/
  pending : sent = logged ++ way.toList
  /-- The commands are those of the program. -/
  upTo : sent <+: switchings p.route

variable {panel : Panel} {p : Program} {run : Run} {done : List (Dispatch × Nat)}
  {as : List Answer} {way : Option (Relay × Power)} {sent logged : List (Relay × Power)}
  {phase next : Phase} {signal : Signal} {effects : List Effect} {published : List Event}

/-- Before a run has begun. -/
theorem tally_nil (p : Program) : Tally p [] none [] [] :=
  ⟨rfl, rfl, List.nil_prefix⟩

/-- As many confirmations as switchings. -/
theorem length_confirmations (done : List (Dispatch × Nat)) :
    (confirmations done).length = (switchings (done.map Prod.fst)).length := by
  induction done with
  | nil => rfl
  | cons x done ih =>
    obtain ⟨d, n⟩ := x
    cases d with
    | relay id output power => exact congrArg (· + 1) ih
    | wait id span => exact ih

theorem Tally.logged_upTo (h : Tally p as way sent logged) : logged <+: switchings p.route :=
  (h.pending ▸ List.prefix_append _ _ : logged <+: sent).trans h.upTo

/-- **The entries are what was switched by what has been carried out.** -/
theorem Tally.logged_eq (h : Tally p (confirmations done) way sent logged)
    {rest : List Dispatch} (upTo : p.route = done.map Prod.fst ++ rest) :
    logged = switchings (done.map Prod.fst) := by
  have hdone : switchings (done.map Prod.fst) <+: switchings p.route := by
    rw [upTo, switchings, switchings, List.filterMap_append]
    exact List.prefix_append _ _
  have hlength : logged.length = (switchings (done.map Prod.fst)).length := by
    rw [← length_confirmations, h.answered, List.length_map]
  have hprefix := List.prefix_of_prefix_length_le h.logged_upTo hdone (Nat.le_of_eq hlength)
  exact hprefix.eq_of_length hlength

/-- The entries are the commands that were confirmed, if the one on its way was not. -/
theorem Tally.confirmed_eq (h : Tally p as way sent logged) {rest : List Answer}
    (unconfirmed : confirmed way.toList rest = []) : confirmed sent (as ++ rest) = logged := by
  rw [h.pending, h.answered, confirmed_append, unconfirmed, List.append_nil]

/-- A step that sends nothing and makes no entry leaves the tally alone. -/
theorem Tally.silent (h : Tally p as way sent logged) (sends : commands effects = [])
    (makes : entries effects = []) :
    Tally p (as ++ []) (effects.foldl Effect.onWay way) (sent ++ commands effects)
      (logged ++ entries effects) := by
  rw [foldl_onWay, sends, makes, List.append_nil, List.append_nil, List.append_nil]
  exact h

/-- **A run that goes on** is complete and has an entry for everything, or sends the command
of its next step, if that is one that switches something. -/
theorem Run.Behind.tally (h : Run.Behind p done run)
    (ht : Tally p (confirmations done) none sent logged) (panel : Panel) {told : List Effect}
    (sends : commands told = []) (makes : entries told = []) :
    run.proceed panel told = (.idle, told ++ [.status .idle, .event .finished])
        ∧ sent = switchings p.route ∧ logged = switchings p.route
      ∨ (run.proceed panel told).1.isActive = true
        ∧ Tally p (confirmations done) ((run.proceed panel told).2.foldl Effect.onWay none)
          (sent ++ commands (run.proceed panel told).2)
          (logged ++ entries (run.proceed panel told).2) := by
  have hlogged := ht.logged_eq h.upTo
  have hsent : sent = logged := by rw [ht.pending, Option.toList_none, List.append_nil]
  obtain ⟨hnil, hr⟩ | ⟨d, found, hr, hs, he⟩ := h.inside.resolve_cases
  · left
    have hall : logged = switchings p.route := by
      rw [hlogged, h.upTo, hnil, List.map_nil, List.append_nil]
    unfold Run.proceed
    simp only [hr]
    exact ⟨trivial, hsent.trans hall, hall⟩
  · right
    have hupTo : p.route
        = done.map Prod.fst ++ d :: found.advance.ahead.map Prod.fst := by
      rw [h.upTo, ← he, hs.ahead_eq, List.map_cons]
    have hactive : (run.proceed panel told).1.isActive = true := by
      unfold Run.proceed
      simp only [hr, Run.carryOut_sends]
    have hsends : commands (run.proceed panel told).2 = d.switching?.toList := by
      unfold Run.proceed
      simp only [hr, commands_append, sends, Run.carryOut_sends]
      rfl
    have hlast : d.switching?.toList.getLast? = d.switching? := by cases d.switching? <;> rfl
    -- what is switched next is what is sent now, if this step switches anything
    have hnext : switchings p.route
        = logged ++ d.switching?.toList ++ switchings (found.advance.ahead.map Prod.fst) := by
      rw [hlogged, hupTo, switchings, switchings, switchings, List.filterMap_append,
        List.filterMap_cons, List.append_assoc]
      cases d.switching? <;> rfl
    rw [foldl_onWay, hsends, run.entries_proceed, makes, List.append_nil, Option.or_none, hlast]
    refine ⟨hactive, ht.answered, by rw [hsent], ?_⟩
    rw [hsent, hnext]
    exact List.prefix_append _ _

/-- **How a run ends**, for the command on its way and the signal that ends it. -/
inductive Ends (p : Program) (way : Option (Relay × Power)) (sent logged : List (Relay × Power)) :
    Signal → List Effect → Prop where
  /-- It is complete. -/
  | finished (sent_all : sent = switchings p.route) (logged_all : logged = switchings p.route) :
      Ends p way sent logged .quiet [.status .idle, .event .finished]
  /-- Its command has failed. -/
  | failed {c : Relay × Power} {fault : ActuatorFault} (current : way = some c) :
      Ends p way sent logged (.answered (.error fault))
        [.status .idle, .event (.error fault.message)]
  /-- It is cancelled, and a sweep may have begun. -/
  | cancelled {signal : Signal} {caller : Option Ticket} {sweep : List Effect}
      (halts : signal.Halts caller) (begun : sweep = [] ∨ sweep = [.command .first .off]) :
      Ends p way sent logged signal (cancellation ++ sweep)

/-- **Each step of a run keeps its tally**, or the run ends. -/
theorem Underway.tally (h : Underway panel p phase as published)
    (ht : Tally p as way sent logged) (aw : phase.Awaits way)
    (step : Transition panel phase signal next effects) :
    next.isActive = true
        ∧ Tally p (as ++ signal.answer?.toList) (effects.foldl Effect.onWay (signal.leaves way))
          (sent ++ commands effects) (logged ++ entries effects)
      ∨ next.isActive = false ∧ Ends p way sent logged signal effects := by
  cases step with
  | refuses listens => exact .inl ⟨h.isActive, ht.silent rfl rfl⟩
  | @draws run _ _ n next effects ge le waits =>
    obtain ⟨active, sends, makes⟩ := run.wait_silent n
    rw [waits] at active sends makes
    exact .inl ⟨active, ht.silent sends makes⟩
  | @confirms run output power =>
    obtain rfl : way = some (output, power) := aw
    refine .inl ⟨rfl, ?_, ?_, ?_⟩
    · show as ++ [.ok ()] = (logged ++ [(output, power)]).map _
      rw [ht.answered, List.map_append]
      rfl
    · show sent ++ [] = logged ++ [(output, power)] ++ []
      rw [ht.pending, List.append_nil, List.append_nil]
      rfl
    · show sent ++ [] <+: _
      rw [List.append_nil]
      exact ht.upTo
  | fails => exact .inr ⟨rfl, .failed aw⟩
  | ticks pos => exact .inl ⟨rfl, ht.silent rfl rfl⟩
  | rings le => exact .inl ⟨rfl, ht.silent rfl rfl⟩
  | @proceeds run next effects goes =>
    cases h with
    | between ne behind =>
      obtain rfl : way = none := aw
      have hproceed := behind.tally ht panel (show commands [] = [] from rfl) rfl
      rw [goes] at hproceed
      obtain ⟨hend, hsent, hlogged⟩ | ⟨active, htally⟩ := hproceed
      · obtain ⟨rfl, rfl⟩ := Prod.mk.inj hend
        exact .inr ⟨rfl, .finished hsent hlogged⟩
      · refine .inl ⟨active, ?_⟩
        show Tally p (_ ++ []) (effects.foldl Effect.onWay none) _ _
        rw [List.append_nil]
        exact htally
  | cuts ends => exact .inr ⟨rfl, @Ends.cancelled _ _ _ _ _ _ [] ends (.inl rfl)⟩
  | haltsWaiting ends => exact .inr ⟨rfl, .cancelled ends (.inr rfl)⟩
  | haltsBetween ends => exact .inr ⟨rfl, .cancelled ends (.inr rfl)⟩
  -- the other rules are for phases that belong to no run
  | _ => cases h

/-- **A run begins with an empty tally**, and may be over at once. -/
theorem Tally.start {t : Ticket} (ne : p.steps ≠ [])
    (step : Transition panel .idle (.request (.start t p)) next effects) :
    next.isActive = true
        ∧ Tally p [] (effects.foldl Effect.onWay none) (commands effects) (entries effects)
      ∨ next.isActive = false ∧ effects = [.answer t .started, .status .idle, .event .finished]
        ∧ switchings p.route = [] := by
  cases step with
  | declines none => exact absurd none ne
  | starts _ goes =>
    have hproceed := (Run.behind_start p).tally (tally_nil p) panel
      (show commands [.answer t .started] = [] from rfl) rfl
    rw [goes] at hproceed
    obtain ⟨hend, hnone, -⟩ | hgoes := hproceed
    · obtain ⟨rfl, rfl⟩ := Prod.mk.inj hend
      exact .inr ⟨rfl, rfl, hnone.symm⟩
    · exact .inl hgoes
  | refuses listens => cases listens

/-- **Nothing is entered unless a program runs.** -/
theorem Transition.entries_of_inactive (step : Transition panel phase signal next effects)
    (rests : phase.isActive = false) : entries effects = [] := by
  cases step with
  | @starts t p next effects ne goes =>
    have hproceed := Run.entries_proceed panel ⟨p, .start p.steps⟩ [.answer t .started]
    rw [goes] at hproceed
    exact hproceed
  | declines none => rfl
  | refuses listens => rfl
  | sweeps => rfl
  | lands => rfl
  | sweepsOn => rfl
  | reports => rfl
  | sweepsUp => rfl
  | ends => rfl
  | _ => cases rests

namespace Simulation

variable {σ : Type} {s : Surroundings σ} {drift : σ → σ → Prop} {t : Ticket}
  {x y z : Simulation σ} {signals : List Signal}

/-- **The tally of a run holds while it goes on.** -/
theorem Runs.tally (h : Runs s drift t p x signals z) (ne : p.steps ≠ [])
    (aw : x.phase.Awaits x.onWay) (active : z.phase.isActive = true) :
    ∃ es, z.effects = x.effects ++ es
      ∧ Tally p (answers signals) z.onWay (commands es) (entries es) := by
  induction h with
  | @begins rest y idle head took =>
    obtain ⟨effects, hn, hstep⟩ := noticed_of_begins idle head took
    rw [idle] at aw
    obtain ⟨-, htally⟩ | ⟨hinactive, -, -⟩ := Tally.start ne hstep
    · refine ⟨effects, hn.effects, ?_⟩
      rw [hn.onWay, show x.onWay = none from aw]
      exact htally
    · rw [active] at hinactive
      cases hinactive
  | @goesOn signals signal y z before hy next ih =>
    obtain ⟨es, hes, htally⟩ := ih hy
    cases signal with
    | none =>
      have hn := next.unnoticed
      refine ⟨es, hn.effects.trans hes, ?_⟩
      rw [Option.toList_none, List.append_nil, onWay, hn.call]
      exact htally
    | some signal =>
      obtain ⟨effects, hn⟩ := next.noticed
      obtain ⟨published, hu⟩ := before.underway ne hy
      obtain ⟨-, htally'⟩ | ⟨hinactive, -⟩ := hu.tally htally (before.course.awaits aw) hn.step
      · refine ⟨es ++ effects, by rw [hn.effects, hes, List.append_assoc], ?_⟩
        show Tally p (answers (signals ++ [signal])) _ _ _
        rw [answers_concat, hn.onWay, commands_append, entries_append]
        exact htally'
      · rw [active] at hinactive
        cases hinactive

/-! ## The journal -/

/-- **A journal that accepts every entry**, as part of the surroundings: what is noted comes
behind what was noted before, and nothing else changes it. -/
structure Accepts (s : Surroundings σ) (drift : σ → σ → Prop) (log : σ → List (Relay × Power)) :
    Prop where
  /-- Every entry is kept. -/
  record : ∀ clock output power world,
    log (s.record clock output power world) = log world ++ [(output, power)]
  /-- Commands make no entries by themselves. -/
  switch : ∀ number output power world, log (s.switch number output power world).2 = log world
  /-- Nor do the dice. -/
  draw : ∀ lo hi world, log (s.draw lo hi world).2 = log world
  /-- Nor does anything else. -/
  drift : ∀ world world', drift world world' → log world' = log world

variable {log : σ → List (Relay × Power)}

theorem Accepts.foldl_worldAfter (h : Accepts s drift log) (clock : Nat) (world : σ)
    (es : List Effect) : log (es.foldl (worldAfter s clock) world) = log world ++ entries es := by
  induction es generalizing world with
  | nil => exact (List.append_nil _).symm
  | cons e es ih =>
    rw [List.foldl_cons, ih]
    cases e with
    | record output power =>
      show log (s.record clock output power world) ++ entries es = _
      rw [h.record, List.append_assoc]
      rfl
    | _ => rfl

/-- **The journal gets the entries that the engine makes**, and no others. -/
theorem Accepts.happens (accepts : Accepts s drift log) {signal : Option Signal}
    (h : Happens s drift x signal y) :
    ∃ es, y.effects = x.effects ++ es ∧ log y.world = log x.world ++ entries es
      ∧ (x.phase.isActive = false → entries es = []) := by
  cases signal with
  | none =>
    refine ⟨[], ?_, ?_, fun _ => rfl⟩
    · rw [h.unnoticed.effects, List.append_nil]
    · rw [entries, List.filterMap_nil, List.append_nil]
      cases h with
      | drifts world may => exact accepts.drift _ _ may
      | asks r may =>
        unfold submit
        split <;> rfl
      | _ => rfl
  | some signal =>
    obtain ⟨v, offers, fed⟩ := h.fed
    obtain ⟨hphase, heffects, -⟩ := offers.same
    obtain ⟨es, hf⟩ := fed_of_feed fed
    have hworld : log v.world = log x.world := by
      cases offers with
      | answered way due => exact accepts.switch _ _ _ _
      | drawn phase => exact accepts.draw _ _ _
      | _ => rfl
    refine ⟨es, ?_, ?_, fun rests => ?_⟩
    · rw [hf.effects, heffects]
    · rw [hf.world, accepts.foldl_worldAfter, hworld]
    · exact (transition_of_step hf.step).entries_of_inactive (hphase ▸ rests)

/-- What the journal gets over a course. -/
theorem Accepts.course (accepts : Accepts s drift log) (h : Course s drift x signals y) :
    ∃ es, y.effects = x.effects ++ es ∧ log y.world = log x.world ++ entries es := by
  induction h with
  | refl => exact ⟨[], (List.append_nil _).symm, (List.append_nil _).symm⟩
  | snoc before next ih =>
    obtain ⟨es, hes, hlog⟩ := ih
    obtain ⟨fs, hfs, hlog', -⟩ := accepts.happens next
    refine ⟨es ++ fs, ?_, ?_⟩
    · rw [hfs, hes, List.append_assoc]
    · rw [hlog', hlog, entries_append, List.append_assoc]

/-- A command of a run is on its way only while the run carries it out. -/
theorem calling_of_awaits {output : Relay} {power : Power} (active : phase.isActive = true)
    (aw : phase.Awaits (some (output, power))) : ∃ run, phase = .calling run output power := by
  cases phase with
  | calling run output power =>
    obtain ⟨rfl, rfl⟩ := Prod.mk.inj (Option.some.inj aw)
    exact ⟨run, rfl⟩
  | drawing run lo hi => cases aw
  | waiting run n => cases aw
  | between run => cases aw
  | _ => cases active

/-! ## Runs that have ended -/

/-- **How a run has ended** that did certain things, and which of its commands have no
entry. -/
inductive Closed (s : Surroundings σ) (drift : σ → σ → Prop) (t : Ticket) (p : Program)
    (dispatches : List Dispatch) (x : Simulation σ) :
    List Signal → Simulation σ → List Effect → Prop where
  /-- It is complete: everything that there was to be switched was sent, and is in the journal. -/
  | finished {signals : List Signal} {z : Simulation σ} {own : List Effect}
      (last : own.getLast? = some (.event .finished))
      (sent : commands own = switchings dispatches) (logged : entries own = switchings dispatches) :
      Closed s drift t p dispatches x signals z own
  /-- Its last command has failed. -/
  | failed {earlier : List Signal} {y z : Simulation σ} {own : List Effect} {run : Run}
      {output : Relay} {power : Power} {fault : ActuatorFault}
      (last : own.getLast? = some (.event (.error fault.message)))
      (before : Runs s drift t p x earlier y) (current : y.phase = .calling run output power)
      (next : Happens s drift y (some (.answered (.error fault))) z)
      (sent : commands own = entries own ++ [(output, power)]) :
      Closed s drift t p dispatches x (earlier ++ [.answered (.error fault)]) z own
  /-- It was cancelled, perhaps while a command of its own was on its way. -/
  | cancelled {earlier : List Signal} {y z : Simulation σ} {own : List Effect} {signal : Signal}
      {caller : Option Ticket} (last : own.getLast? = some (.event .cancelled))
      (before : Runs s drift t p x earlier y) (halts : signal.Halts caller)
      (next : Happens s drift y (some signal) z)
      (current : ∀ output power, y.onWay = some (output, power) →
        ∃ run, y.phase = .calling run output power)
      (sent : commands own = entries own ++ y.onWay.toList) :
      Closed s drift t p dispatches x (earlier ++ [signal]) z own

/-- **The last step of a run** makes it one that has ended, with nothing behind its last event
but the sweep that may have begun. -/
theorem closed_of_ends {earlier : List Signal} {es : List Effect}
    (ends : Ends p y.onWay (commands es) (entries es) signal effects)
    (tally : Tally p (answers earlier) y.onWay (commands es) (entries es))
    (before : Runs s drift t p x earlier y) (next : Happens s drift y (some signal) z)
    (current : ∀ output power, y.onWay = some (output, power) →
      ∃ run, y.phase = .calling run output power) :
    ∃ own sweep, es ++ effects = own ++ sweep
      ∧ (sweep = [] ∨ sweep = [.command .first .off])
      ∧ entries own <+: switchings p.route
      ∧ entries own = confirmed (commands own) (answers (earlier ++ [signal]))
      ∧ Closed s drift t p p.route x (earlier ++ [signal]) z own := by
  -- the last event is no entry, and what is still on its way is not confirmed
  have agrees (e : Event) (unconfirmed : confirmed y.onWay.toList signal.answer?.toList = []) :
      entries (es ++ [.status .idle, .event e]) <+: switchings p.route
        ∧ entries (es ++ [.status .idle, .event e])
          = confirmed (commands (es ++ [.status .idle, .event e]))
            (answers (earlier ++ [signal])) := by
    obtain ⟨hcommands, hentries, -⟩ := conclusion es e
    rw [hcommands, hentries, answers_concat, tally.confirmed_eq unconfirmed]
    exact ⟨tally.logged_upTo, rfl⟩
  cases ends with
  | finished sent_all logged_all =>
    obtain ⟨hcommands, hentries, hlast⟩ := conclusion es .finished
    obtain ⟨hupTo, hconfirmed⟩ := agrees .finished (by cases y.onWay <;> rfl)
    exact ⟨_, [], (List.append_nil _).symm, .inl rfl, hupTo, hconfirmed,
      .finished hlast (hcommands.trans sent_all) (hentries.trans logged_all)⟩
  | @failed c fault way =>
    obtain ⟨hcommands, hentries, hlast⟩ := conclusion es (.error fault.message)
    obtain ⟨hupTo, hconfirmed⟩ := agrees (.error fault.message) (by rw [way]; rfl)
    obtain ⟨run, hrun⟩ := current _ _ way
    refine ⟨_, [], (List.append_nil _).symm, .inl rfl, hupTo, hconfirmed,
      .failed hlast before hrun next ?_⟩
    rw [hcommands, hentries, tally.pending, way]
    rfl
  | @cancelled signal caller sweep halts begun =>
    obtain ⟨hcommands, hentries, hlast⟩ := conclusion es .cancelled
    have unanswered : signal.answer? = none := by cases halts <;> rfl
    obtain ⟨hupTo, hconfirmed⟩ := agrees .cancelled (by rw [unanswered]; cases y.onWay <;> rfl)
    refine ⟨es ++ [.status .idle, .event .cancelled], sweep, (List.append_assoc _ _ _).symm,
      begun, hupTo, hconfirmed, .cancelled hlast before halts next current ?_⟩
    rw [hcommands, hentries, tally.pending]

/-- **The effects of a run that has ended**, without the sweep that may have begun. -/
theorem Runs.closed (h : Runs s drift t p x signals z) (ne : p.steps ≠ [])
    (aw : x.phase.Awaits x.onWay) (ended : z.phase.isActive = false) :
    ∃ own sweep, z.effects = x.effects ++ own ++ sweep
      ∧ (sweep = [] ∨ sweep = [.command .first .off])
      ∧ entries own <+: switchings p.route
      ∧ entries own = confirmed (commands own) (answers signals)
      ∧ Closed s drift t p p.route x signals z own := by
  cases h with
  | @begins rest y idle head took =>
    obtain ⟨effects, hn, hstep⟩ := noticed_of_begins idle head took
    obtain ⟨active, -⟩ | ⟨-, rfl, hnone⟩ := Tally.start ne hstep
    · rw [ended] at active
      cases active
    · refine ⟨[.answer t .started, .status .idle, .event .finished], [], ?_, .inl rfl,
        List.nil_prefix, rfl, .finished rfl hnone.symm hnone.symm⟩
      rw [List.append_nil]
      exact hn.effects
  | @goesOn earlier signal y z before active next =>
    obtain ⟨es, hes, htally⟩ := before.tally ne aw active
    obtain ⟨published, hu⟩ := before.underway ne active
    have haw := before.course.awaits aw
    cases signal with
    | none =>
      rw [next.unnoticed.phase, active] at ended
      cases ended
    | some signal =>
      obtain ⟨effects, hn⟩ := next.noticed
      obtain ⟨hactive, -⟩ | ⟨-, hends⟩ := hu.tally htally haw hn.step
      · rw [ended] at hactive
        cases hactive
      · obtain ⟨own, sweep, heffects, hclosed⟩ := closed_of_ends hends htally before next
          fun output power way => calling_of_awaits active (way ▸ haw)
        refine ⟨own, sweep, ?_, hclosed⟩
        rw [hn.effects, hes, List.append_assoc, heffects, List.append_assoc]

/-- **The journal agrees with the commands of a run that has ended**, if the counts of its program
fit. In every course, its entries are the beginning of what its program switches; they are those of
its commands that were confirmed before it ended; and at most one command was sent besides, the one
that failed or was on its way when the run was cancelled. A run that is complete has an entry for
everything that its program switches. While no program runs, nothing is entered, whatever happens;
so the off commands of a sweep never are. -/
theorem runs_logged {world : σ} (accepts : Accepts s drift log) :
    (∀ {before x t p signals z}, Course s drift { world } before x → p.steps ≠ [] →
        p.CountsFit → Runs s drift t p x signals z → z.phase.isActive = false →
        ∃ own sweep, z.effects = x.effects ++ own ++ sweep
          ∧ (sweep = [] ∨ sweep = [.command .first .off])
          ∧ log z.world = log x.world ++ entries own
          ∧ entries own <+: switchings p.expand
          ∧ entries own = confirmed (commands own) (answers signals)
          ∧ Closed s drift t p p.expand x signals z own)
      ∧ ∀ {before x signal y}, Course s drift { world } before x → x.phase.isActive = false →
        Happens s drift x signal y → log y.world = log x.world := by
  refine ⟨fun reach ne fits run ended => ?_, fun reach rests next => ?_⟩
  · obtain ⟨own, sweep, heffects, hsweep, hupTo, hconfirmed, hclosed⟩ :=
      run.closed ne (reach.awaits rfl) ended
    rw [fits.route_eq] at hupTo hclosed
    obtain ⟨es, hes, hlog⟩ := accepts.course run.course
    have hown : entries es = entries own := by
      rw [heffects, List.append_assoc] at hes
      rw [← List.append_cancel_left hes, entries_append]
      obtain rfl | rfl := hsweep
      · exact List.append_nil _
      · exact List.append_nil _
    exact ⟨own, sweep, heffects, hsweep, hown ▸ hlog, hupTo, hconfirmed, hclosed⟩
  · obtain ⟨es, -, hlog, hnone⟩ := accepts.happens next
    rw [hlog, hnone rests, List.append_nil]

/-- Surroundings that keep nothing but a journal, with a controller that confirms every
command. -/
def notebook : Surroundings (List (Relay × Power)) where
  panel := .unlabelled
  tickPeriod := 1000
  latency := 0
  switch _ _ _ world := (.ok (), world)
  record _ output power world := world ++ [(output, power)]
  draw lo _ world := (lo, world)

theorem accepts_notebook : Accepts notebook (fun _ _ => False) id where
  record _ _ _ _ := rfl
  switch _ _ _ _ := rfl
  draw _ _ _ := rfl
  drift _ _ h := h.elim

/-- A run of `blink` that is stopped while its second command is on its way has sent that
command, but made no entry for it. -/
theorem runs_logged_blink :
    ∃ before x signals z own sweep,
      Course notebook (fun _ _ => False) { world := [] } before x
        ∧ Runs notebook (fun _ _ => False) 0 blink x signals z ∧ z.phase.isActive = false
        ∧ z.effects = x.effects ++ own ++ sweep ∧ z.world = entries own
        ∧ z.world = [(.first, .on)] ∧ entries own = confirmed (commands own) (answers signals)
        ∧ Closed notebook (fun _ _ => False) 0 blink blink.expand x signals z own := by
  have h₀ : Course notebook (fun _ _ => False) { world := [] } [] _ := .refl
  have h₁ := h₀.snoc (.asks (.start 0 blink) (.inl rfl))
  have r₁ : Runs notebook (fun _ _ => False) 0 blink
      { world := [], queue := [.start 0 blink] } [] _ := .begins rfl rfl rfl
  have r₂ := r₁.goesOn rfl (.lands rfl rfl)
  have r₃ := r₂.goesOn rfl (.goesOn rfl rfl rfl)
  have r₄ := r₃.goesOn rfl (.passes 1000 (by decide))
  have r₅ := r₄.goesOn rfl (.rings rfl)
  have r₆ := r₅.goesOn rfl (.goesOn rfl rfl rfl)
  have r₇ := r₆.goesOn rfl (.asks (.stop 1) (.inl rfl))
  have r₈ := r₇.goesOn rfl (.takes rfl rfl)
  obtain ⟨own, sweep, heffects, -, hlog, -, hconfirmed, hclosed⟩ :=
    (runs_logged accepts_notebook).1 h₁ (List.cons_ne_nil _ _) (by decide) r₈ rfl
  exact ⟨_, _, _, _, own, sweep, h₁, r₈, rfl, heffects, hlog, rfl, hconfirmed, hclosed⟩

end Simulation

end Engine

end Switchboard
