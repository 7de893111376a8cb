import Switchboard.Proofs.Itinerary
import Switchboard.Proofs.Requests

/-!
# What a run shows of itself

A run tells how it stands in two ways: by a status, which is replaced each time, and by events.
An observer may look at either, and this module proves that the two never contradict each other.
When an event comes, the status shown already says the same (`Event.Fits`); and a run is shown
from its first announcement to its last event, and at no other time.

The two are published one after the other, so that between them the status is ahead of the
events. `Display` is what an observer knows who has seen both so far. `Effect.Suits` says
what may come next for such an observer, and `Suiting` that all effects do in turn. Each leg
of a run does (`Leg.suiting`), since what is on display is settled by the place at which the run
is (`Place.Shows`).
-/

namespace Switchboard.Engine

/-! ## What has been shown -/

/-- **What is on display**, for an observer who has followed a run from its start. -/
structure Display where
  /-- The status shown last. -/
  status : Status := .idle
  /-- Whether a step was announced, and no terminal event has come since. -/
  ongoing : Bool := false
  /-- How many steps were announced. -/
  announced : Nat := 0
  /-- The seconds left of the current wait, as shown last. -/
  remaining : Option Nat := none

/-- What is on display after an effect. -/
def Display.after (seen : Display) : Effect → Display
  | .status (.waiting id action n) =>
    { seen with status := .waiting id action n, remaining := some n }
  | .status st => { seen with status := st }
  | .event (.stepAdvanced _) =>
    { seen with ongoing := true, announced := seen.announced + 1, remaining := none }
  | .event e => { seen with ongoing := seen.ongoing && !e.isTerminal }
  | _ => seen

/-- **What is on display after some effects** of a run. -/
def display (es : List Effect) : Display := es.foldl Display.after {}

/-- The status on display is the last that an effect shows. -/
theorem status_foldl_after (seen : Display) (es : List Effect) :
    (es.foldl Display.after seen).status = es.foldl Status.after seen.status := by
  induction es generalizing seen with
  | nil => rfl
  | cons e es ih =>
    have hone : (seen.after e).status = seen.status.after e := by
      cases e with
      | status st => cases st <;> rfl
      | event e => cases e <;> rfl
      | _ => rfl
    rw [List.foldl_cons, ih, hone, List.foldl_cons]

/-- **A status that an event fits**, in a run of a program. -/
def Event.Fits (id : ProgramId) (status : Status) : Event → Prop
  | .stepAdvanced words => status = .running id words
  | .tick 0 => status = .waiting id waitingWords 1
  | .tick (n + 1) => status = .waiting id waitingWords (n + 1)
  | .finished => status = .idle
  | .error _ => status = .idle
  | .cancelled => status = .idle

/-- **A status that a run may show**, for the dispatches that it has begun and what is on display
before it. -/
def Status.Suits (id : ProgramId) (timed : List (Dispatch × Nat)) (seen : Display) :
    Status → Prop
  | .idle => True
  | .running program _ => program = id
  | .waiting program action n => program = id ∧ action = waitingWords ∧ 0 < n
    ∧ (∃ k d length, seen.announced = k + 1 ∧ timed[k]? = some (d, length) ∧ n ≤ length)
    ∧ ∀ left, seen.remaining = some left → n ≤ left

/-- The status is idle exactly when no step is announced that is still to be carried out. -/
def Display.IsSettled (seen : Display) : Prop := seen.status = .idle ↔ seen.ongoing = false

/-- **What a run may do** next. Only an event may come while the status is ahead of the
events. -/
def Effect.Suits (id : ProgramId) (timed : List (Dispatch × Nat)) (seen : Display) :
    Effect → Prop
  | .event e => e.Fits id seen.status
  | .status st => seen.IsSettled ∧ st.Suits id timed seen
  | _ => seen.IsSettled

/-- **Effects that suit a run**, one after the other. -/
def Suiting (id : ProgramId) (timed : List (Dispatch × Nat)) (seen : Display) :
    List Effect → Prop
  | [] => True
  | e :: es => e.Suits id timed seen ∧ Suiting id timed (seen.after e) es

variable {id : ProgramId} {timed more : List (Dispatch × Nat)} {seen : Display}
  {es fs before after : List Effect} {e : Effect}

theorem suiting_append :
    Suiting id timed seen (es ++ fs)
      ↔ Suiting id timed seen es ∧ Suiting id timed (es.foldl Display.after seen) fs := by
  induction es generalizing seen with
  | nil => exact (iff_of_eq (true_and _)).symm
  | cons e es ih => rw [List.cons_append, Suiting, Suiting, ih, and_assoc, List.foldl_cons]

/-- Where effects suit a run, each does so when it comes. -/
theorem Suiting.suits (h : Suiting id timed seen es) (split : es = before ++ e :: after) :
    e.Suits id timed (before.foldl Display.after seen) := by
  rw [split, suiting_append] at h
  exact h.2.1

/-- What suits a run still does when more dispatches are begun. -/
theorem Suiting.mono (h : Suiting id timed seen es) (le : timed <+: more) :
    Suiting id more seen es := by
  induction es generalizing seen with
  | nil => trivial
  | cons e es ih =>
    refine ⟨?_, ih h.2⟩
    have he := h.1
    cases e with
    | status st =>
      cases st with
      | waiting program action n =>
        obtain ⟨settled, program, action, pos, ⟨k, d, length, hk, hget, le'⟩, falls⟩ := he
        obtain ⟨lt, hd⟩ := List.getElem?_eq_some_iff.mp hget
        have hmore : more[k]? = some (d, length) :=
          (List.prefix_iff_getElem?.mp le k lt).trans (congrArg some hd)
        exact ⟨settled, program, action, pos, ⟨k, d, length, hk, hmore, le'⟩, falls⟩
      | _ => exact he
    | _ => exact he

/-- **What is on display at a place** of a run. -/
def Place.Shows (panel : Panel) (id : ProgramId) (place : Place) (seen : Display) : Prop :=
  match place.stage with
  | .drawing _ _ => seen.status = .running id waitingWords ∧ seen.ongoing = true
    ∧ seen.announced = place.done.length + 1 ∧ seen.remaining = none
  | .calling step output power =>
    seen.status = .running id (panel.words (.relay step output power)) ∧ seen.ongoing = true
      ∧ seen.announced = place.done.length + 1
  | .waiting _ _ _ left => seen.status = .waiting id waitingWords left ∧ seen.ongoing = true
    ∧ seen.announced = place.done.length + 1 ∧ seen.remaining = some left
  | .between => seen.status ≠ .idle ∧ seen.ongoing = true ∧ seen.announced = place.done.length
  | .ended => seen.status = .idle ∧ seen.ongoing = false

variable {panel : Panel} {p : Program} {place place' : Place} {signal : Signal}
  {effects told : List Effect} {done : List (Dispatch × Nat)} {step : StepId} {span : Span}

theorem Place.Shows.isSettled (h : place.Shows panel id seen) : seen.IsSettled := by
  obtain ⟨done, stage⟩ := place
  cases stage with
  | drawing step span => simp [Display.IsSettled, h.1, h.2.1]
  | calling step output power => simp [Display.IsSettled, h.1, h.2.1]
  | waiting step span length left => simp [Display.IsSettled, h.1, h.2.1]
  | between => simp [Display.IsSettled, h.1, h.2.1]
  | ended => simp [Display.IsSettled, h.1, h.2]

/-- Between two dispatches, a run still shows the last of them. -/
theorem Place.shows_between (x : Dispatch × Nat) (status : seen.status ≠ .idle)
    (ongoing : seen.ongoing = true) (announced : seen.announced = done.length + 1) :
    Place.Shows panel id ⟨done ++ [x], .between⟩ seen :=
  ⟨status, ongoing, announced.trans (@List.length_append _ done [x]).symm⟩

/-- First some effects of a leg, and then the others. -/
theorem Suiting.append_shows {mid : Display} (h : Suiting id timed seen es)
    (hmid : es.foldl Display.after seen = mid)
    (hfs : Suiting id timed mid fs ∧ place.Shows panel id (fs.foldl Display.after mid)) :
    Suiting id timed seen (es ++ fs)
      ∧ place.Shows panel id ((es ++ fs).foldl Display.after seen) := by
  rw [suiting_append, List.foldl_append, hmid]
  exact ⟨⟨h, hfs.1⟩, hfs.2⟩

/-- A wait may show the seconds that are left of it, unless fewer were left before. -/
theorem Status.suits_waiting {n m : Nat} (pos : 0 < m) (le : m ≤ n)
    (announced : seen.announced = done.length + 1)
    (falls : ∀ left, seen.remaining = some left → m ≤ left) :
    Status.Suits id (done ++ [(.wait step span, n)]) seen (.waiting id waitingWords m) :=
  ⟨rfl, rfl, pos, ⟨done.length, .wait step span, n, announced, List.getElem?_concat_length, le⟩,
    falls⟩

/-- A wait that begins. -/
theorem Waits.suiting {n : Nat} (h : Waits p done step span n place effects)
    (hs : Place.Shows panel p.id ⟨done, .drawing step span⟩ seen) :
    Suiting p.id place.begun seen effects
      ∧ place.Shows panel p.id (effects.foldl Display.after seen) := by
  have settled := hs.isSettled
  obtain ⟨hstatus, hongoing, hannounced, hremaining⟩ := hs
  cases h with
  | skips =>
    refine ⟨trivial, Place.shows_between _ ?_ hongoing hannounced⟩
    rw [List.foldl_nil, hstatus]
    exact Status.noConfusion
  | counts pos =>
    refine ⟨⟨⟨settled, Status.suits_waiting pos (Nat.le_refl n) hannounced ?_⟩, ?_, trivial⟩, rfl,
      hongoing, hannounced, rfl⟩
    · intro left hleft
      rw [hremaining] at hleft
      cases hleft
    · refine iff_of_false Status.noConfusion ?_
      rw [Display.after, hongoing]
      exact Bool.noConfusion

/-- Answers change nothing of what is on display. -/
theorem suiting_answers (quiet : ∀ e ∈ told, ∃ t r, e = .answer t r) (settled : seen.IsSettled) :
    Suiting id timed seen told ∧ told.foldl Display.after seen = seen := by
  induction told with
  | nil => exact ⟨trivial, rfl⟩
  | cons e told ih =>
    obtain ⟨hsuits, hsame⟩ := ih fun e he => quiet e (List.mem_cons_of_mem _ he)
    obtain ⟨t, r, rfl⟩ := quiet e List.mem_cons_self
    exact ⟨⟨settled, hsuits⟩, hsame⟩

/-- What is on display when a step was announced behind others. -/
def announced (panel : Panel) (id : ProgramId) (done : List (Dispatch × Nat)) (d : Dispatch) :
    Display :=
  ⟨.running id (panel.words d), true, done.length + 1, none⟩

theorem isSettled_announced (d : Dispatch) : (announced panel id done d).IsSettled :=
  iff_of_false Status.noConfusion Bool.noConfusion

/-- A step is announced, whatever is answered then. -/
theorem suiting_announcement (quiet : ∀ e ∈ told, ∃ t r, e = .answer t r)
    (settled : seen.IsSettled) (count : seen.announced = done.length) (d : Dispatch) :
    Suiting p.id timed seen (announcement panel p d ++ told)
      ∧ (announcement panel p d ++ told).foldl Display.after seen
        = announced panel p.id done d := by
  have hafter : (announcement panel p d).foldl Display.after seen
      = announced panel p.id done d := by
    rw [announced, ← count]
    rfl
  have hannounces : Suiting p.id timed seen (announcement panel p d) :=
    ⟨⟨settled, rfl⟩, rfl, trivial⟩
  obtain ⟨hsuits, hsame⟩ := suiting_answers quiet (isSettled_announced d)
  rw [suiting_append, List.foldl_append, hafter]
  exact ⟨⟨hannounces, hsuits⟩, hsame⟩

/-- **A run that sets out** for its next dispatch announces it, or shows that it is complete. -/
theorem SetsOut.suiting (h : SetsOut panel p done told place effects)
    (quiet : ∀ e ∈ told, ∃ t r, e = .answer t r) (settled : seen.IsSettled)
    (count : seen.announced = done.length) :
    Suiting p.id place.begun seen effects
      ∧ place.Shows panel p.id (effects.foldl Display.after seen) := by
  cases h with
  | finishes all =>
    obtain ⟨hsuits, hsame⟩ := suiting_answers quiet settled
    exact hsuits.append_shows hsame ⟨⟨⟨settled, trivial⟩, rfl, trivial⟩, rfl, Bool.and_false _⟩
  | calls =>
    obtain ⟨hsuits, hseen⟩ := suiting_announcement quiet settled count _
    exact hsuits.append_shows hseen ⟨⟨isSettled_announced _, trivial⟩, rfl, rfl, rfl⟩
  | draws =>
    obtain ⟨hsuits, hseen⟩ := suiting_announcement quiet settled count _
    exact hsuits.append_shows hseen ⟨trivial, rfl, rfl, rfl, rfl⟩
  | waits _ begins =>
    obtain ⟨hsuits, hseen⟩ := suiting_announcement quiet settled count _
    exact hsuits.append_shows hseen (begins.suiting ⟨rfl, rfl, rfl, rfl⟩)

/-- **A leg suits a run** in the state that the place before it shows, and what is shown after
it is as the place behind it has it. -/
theorem Leg.suiting (h : Leg panel p place signal place' effects)
    (hs : place.Shows panel p.id seen) :
    Suiting p.id place'.begun seen effects
      ∧ place'.Shows panel p.id (effects.foldl Display.after seen) := by
  have settled := hs.isSettled
  cases h with
  | refuses => exact ⟨⟨settled, trivial⟩, hs⟩
  | draws drawn begins => exact begins.suiting hs
  | confirms =>
    obtain ⟨hstatus, hongoing, hannounced⟩ := hs
    refine ⟨⟨settled, trivial⟩, Place.shows_between _ ?_ hongoing hannounced⟩
    show seen.status ≠ .idle
    rw [hstatus]
    exact Status.noConfusion
  | fails => exact ⟨⟨⟨settled, trivial⟩, rfl, trivial⟩, rfl, Bool.and_false _⟩
  | @ticks done step span n m pos lt =>
    obtain ⟨hstatus, hongoing, hannounced, hremaining⟩ := hs
    refine ⟨⟨⟨settled, Status.suits_waiting pos (Nat.le_of_lt lt) hannounced ?_⟩, ?_, trivial⟩, rfl,
      ?_, hannounced, rfl⟩
    · intro left hleft
      rw [hremaining] at hleft
      cases hleft
      exact Nat.le_succ m
    · obtain ⟨k, rfl⟩ := Nat.exists_eq_succ_of_ne_zero (Nat.ne_of_gt pos)
      rfl
    · exact (Bool.and_true _).trans hongoing
  | rings pos =>
    obtain ⟨hstatus, hongoing, hannounced, hremaining⟩ := hs
    refine ⟨⟨hstatus, trivial⟩, Place.shows_between _ ?_ ((Bool.and_true _).trans hongoing)
      hannounced⟩
    show seen.status ≠ .idle
    rw [hstatus]
    exact Status.noConfusion
  | proceeds goes =>
    exact goes.suiting (fun e he => absurd he List.not_mem_nil) settled hs.2.2
  | cancels ends sends =>
    have hcancels : Suiting p.id (Place.begun ⟨place.begun, .ended⟩) seen cancellation :=
      ⟨⟨settled, trivial⟩, rfl, trivial⟩
    refine hcancels.append_shows rfl ?_
    have hover : Place.Shows panel p.id ⟨place.begun, .ended⟩
        (cancellation.foldl Display.after seen) := ⟨rfl, Bool.and_false _⟩
    rcases sends with rfl | rfl
    · exact ⟨trivial, hover⟩
    · exact ⟨⟨hover.isSettled, trivial⟩, hover⟩

/-! ## Status and events -/

/-- **Status and events of a run agree**, for the dispatches that it has begun. -/
structure Agrees (p : Program) (timed : List (Dispatch × Nat)) (own : List Effect) : Prop where
  /-- When an event comes, the status says the same. -/
  event : ∀ {before e after}, own = before ++ .event e :: after →
    e.Fits p.id (display before).status
  /-- Unless an event is about to come, the status is idle exactly if no step was announced or
  the run has ended since. -/
  idle : ∀ {before after}, own = before ++ after → (∀ e rest, after ≠ .event e :: rest) →
    ((display before).status = .idle ↔ (display before).ongoing = false)
  /-- A status that is shown is one of the program, and counts the seconds left of the wait that
  was announced last. -/
  status : ∀ {before st after}, own = before ++ .status st :: after →
    st.Suits p.id timed (display before)
  /-- The seconds left never become more until another step is announced. -/
  falls : ∀ {before id action n during id' action' n' after},
    own = before ++ .status (.waiting id action n) :: during
      ++ .status (.waiting id' action' n') :: after →
    (∀ words, .event (.stepAdvanced words) ∉ during) → n' ≤ n

/-- The seconds left do not become more while no step is announced. -/
theorem Suiting.falls {n n' : Nat} {action : String} {id' : ProgramId}
    (h : Suiting id timed seen (es ++ .status (.waiting id' action n') :: after))
    (remaining : seen.remaining = some n) (same : ∀ words, .event (.stepAdvanced words) ∉ es) :
    n' ≤ n := by
  induction es generalizing seen n with
  | nil => exact h.1.2.2.2.2.2 n remaining
  | cons e es ih =>
    obtain ⟨he, hes⟩ := h
    have hsame : ∀ words, .event (.stepAdvanced words) ∉ es := fun words hm =>
      same words (List.mem_cons_of_mem _ hm)
    cases e with
    | status st =>
      cases st with
      | waiting program action m => exact Nat.le_trans (ih hes rfl hsame) (he.2.2.2.2.2 n remaining)
      | _ => exact ih hes remaining hsame
    | event e =>
      cases e with
      | stepAdvanced words => exact absurd List.mem_cons_self (same words)
      | _ => exact ih hes remaining hsame
    | _ => exact ih hes remaining hsame

/-- **Effects that suit a run agree with each other**, if nothing is left half said. -/
theorem Suiting.agrees {own : List Effect} (h : Suiting p.id timed {} own)
    (settled : (display own).IsSettled) : Agrees p timed own where
  event split := h.suits split
  idle {before after} split ahead := by
    cases after with
    | nil =>
      rw [List.append_nil] at split
      exact split ▸ settled
    | cons e after =>
      have he := h.suits split
      cases e with
      | event e => exact absurd rfl (ahead e after)
      | status st => exact he.1
      | _ => exact he
  status split := (h.suits split).2
  falls {before id action n during id' action' n' after} split same := by
    rw [split, List.append_assoc, suiting_append] at h
    exact h.2.2.falls rfl same

namespace Simulation

variable {σ : Type} {s : Surroundings σ} {drift : σ → σ → Prop} {w x y z : Simulation σ}
  {t : Ticket} {signals earlier : List Signal}

/-! ## Runs and what is between them -/

/-- A run begins when nothing runs. -/
theorem Runs.idle (h : Runs s drift t p x signals z) : x.phase = .idle := by
  induction h with
  | begins idle head took => exact idle
  | goesOn before active next ih => exact ih

/-- **What a run has shown so far**, when it is at a place. -/
structure Shown (panel : Panel) (t : Ticket) (p : Program) (x : Simulation σ)
    (signals : List Signal) (z : Simulation σ) (place : Place) (own : List Effect) : Prop where
  /-- Where the run is. -/
  located : Located p z.phase place
  /-- What it has done. -/
  effects : z.effects = x.effects ++ own
  /-- The status is the last that it has shown. -/
  status : z.status = own.foldl Status.after x.status
  /-- Its start was answered. -/
  started : (t, .started) ∈ replies own
  /-- It has used the lengths that were drawn. -/
  drawn : drawnLengths place.begun = draws signals
  /-- What it has done suits it. -/
  suiting : Suiting p.id place.begun {} own
  /-- What is on display is as the place has it. -/
  shows : place.Shows panel p.id (display own)

/-- **What a run has shown suits it**, wherever it is. -/
theorem Runs.shown (h : Runs s drift t p x signals z) (ne : p.steps ≠ []) :
    ∃ place own, Shown s.panel t p x signals z place own := by
  induction h with
  | @begins rest y idle head took =>
    obtain ⟨effects, hn, hstep⟩ := noticed_of_begins idle head took
    obtain ⟨place, hsets, hplace⟩ := Located.start ne hstep
    obtain ⟨new, hbegun, hdrawn⟩ := hsets.begun
    obtain ⟨hsuits, hshows⟩ := hsets.suiting
      (fun e he => ⟨t, .started, List.mem_singleton.mp he⟩)
      (show Display.IsSettled {} from iff_of_true rfl rfl) rfl
    refine ⟨place, effects, hplace, hn.effects, hn.status, ?_, ?_, hsuits, hshows⟩
    · exact List.mem_filterMap.mpr ⟨_, hsets.mem_effects List.mem_cons_self, rfl⟩
    · rw [hbegun, List.nil_append, hdrawn]
      rfl
  | @goesOn signals signal y z before active next ih =>
    obtain ⟨place, own, hy⟩ := ih
    cases signal with
    | none =>
      have hn := next.unnoticed
      refine ⟨place, own, hn.phase ▸ hy.located, hn.effects.trans hy.effects,
        hn.status.trans hy.status, hy.started, ?_, hy.suiting, hy.shows⟩
      rw [Option.toList_none, List.append_nil]
      exact hy.drawn
    | some signal =>
      obtain ⟨effects, hn⟩ := next.noticed
      obtain ⟨place', hleg, hplace'⟩ := hy.located.leg active hn.step
      obtain ⟨new, hbegun, hdrawn⟩ := hleg.begun
      obtain ⟨hsuits, hshows⟩ := hleg.suiting hy.shows
      refine ⟨place', own ++ effects, hplace', ?_, ?_, ?_, ?_, ?_, ?_⟩
      · rw [hn.effects, hy.effects, List.append_assoc]
      · rw [hn.status, hy.status, List.foldl_append]
      · rw [replies_append]
        exact List.mem_append_left _ hy.started
      · rw [hbegun, drawnLengths_append, hy.drawn, hdrawn]
        exact (draws_concat signals signal).symm
      · exact suiting_append.mpr ⟨hy.suiting.mono (hbegun ▸ List.prefix_append _ _), hsuits⟩
      · rw [display, List.foldl_append]
        exact hshows

variable {panel : Panel} {place : Place} {own : List Effect}

/-- The status is the one on display. -/
theorem Shown.status_eq (h : Shown panel t p x signals z place own) (idle : x.status = .idle) :
    z.status = (display own).status := by
  rw [h.status, idle]
  exact (status_foldl_after {} own).symm

/-- The status is idle exactly if the run has ended. -/
theorem Shown.idle_iff (h : Shown panel t p x signals z place own) (idle : x.status = .idle) :
    z.status = .idle ↔ z.phase.isActive = false := by
  have hactive := h.located.isActive_iff
  have hshows := h.shows
  rw [h.status_eq idle, ← Bool.not_eq_true, hactive]
  obtain ⟨done, stage⟩ := place
  cases stage with
  | ended => simp [hshows.1]
  | drawing step span => simp [hshows.1]
  | calling step output power => simp [hshows.1]
  | waiting step span length left => simp [hshows.1]
  | between => simp [hshows.1]

/-- An engine that runs nothing takes a start only when it is idle. -/
theorem idle_of_takes_start {phase next : Phase} {q : Program} {effects : List Effect}
    (ht : Transition panel phase (.request (.start t q)) next effects)
    (inactive : phase.isActive = false) : phase = .idle := by
  generalize hsignal : Signal.request (.start t q) = signal at ht
  cases ht with
  | declines none => rfl
  | starts ne goes => rfl
  | refuses listens =>
    rw [Phase.isActive_of_isListening listens] at inactive
    cases inactive
  | cuts ends => cases inactive
  | haltsWaiting ends => cases inactive
  | haltsBetween ends => cases inactive
  | _ => cases hsignal

/-- **An engine that runs nothing** begins a run, or shows and publishes nothing. -/
theorem Happens.begins_or_rests {signal : Signal} (h : Happens s drift x (some signal) y)
    (inactive : x.phase.isActive = false) :
    (∃ t p, p.steps ≠ [] ∧ Runs s drift t p x [] y)
      ∨ y.phase.isActive = false ∧ y.status = x.status
        ∧ ∃ es, y.effects = x.effects ++ es ∧ ∀ e ∈ es, e.IsRestful := by
  obtain ⟨effects, hn⟩ := h.noticed
  by_cases start : ∃ t p, signal = .request (.start t p)
  · obtain ⟨t, p, rfl⟩ := start
    have idle := idle_of_takes_start hn.step inactive
    by_cases ne : p.steps = []
    · have hstep := hn.step
      rw [idle] at hstep
      generalize y.phase = after at hstep ⊢
      cases hstep with
      | declines none =>
        refine .inr ⟨rfl, hn.status, _, hn.effects, fun e he => ?_⟩
        exact .inr ⟨t, _, List.mem_singleton.mp he⟩
      | starts ne' goes => exact absurd ne ne'
      | refuses listens => cases listens
    · cases h with
      | takes head took => exact .inl ⟨t, p, ne, .begins idle head took⟩
  · obtain ⟨hinactive, hrests, hshown⟩ :=
      hn.step.resting inactive fun t p hsignal => start ⟨t, p, hsignal⟩
    exact .inr ⟨hinactive, hn.status.trans (hshown _), effects, hn.effects, hrests⟩

/-- **An engine rests, or a run is going on** that began in a state in which it rested. -/
theorem Course.rests_or_runs {world : σ} (h : Course s drift { world } signals x) :
    x.phase.isActive = false ∧ x.status = .idle
      ∨ x.phase.isActive = true ∧ ∃ earlier w t p since, Course s drift { world } earlier w
        ∧ w.status = .idle ∧ Runs s drift t p w since x ∧ p.steps ≠ [] := by
  -- where a run has come to decides which it is
  have settle : ∀ {earlier w t p since z}, Course s drift { world } earlier w → w.status = .idle →
      Runs s drift t p w since z → p.steps ≠ [] →
      z.phase.isActive = false ∧ z.status = .idle
        ∨ z.phase.isActive = true ∧ ∃ earlier w t p since, Course s drift { world } earlier w
          ∧ w.status = .idle ∧ Runs s drift t p w since z ∧ p.steps ≠ [] := by
    intro earlier w t p since z course idle run ne
    obtain ⟨place, own, hshown⟩ := run.shown ne
    cases hactive : z.phase.isActive with
    | true => exact .inr ⟨rfl, earlier, w, t, p, since, course, idle, run, ne⟩
    | false => exact .inl ⟨rfl, (hshown.idle_iff idle).mpr hactive⟩
  induction h with
  | refl => exact .inl ⟨rfl, rfl⟩
  | @snoc signals signal y z before next ih =>
    rcases ih with ⟨inactive, idle⟩ | ⟨active, earlier, w, t, p, since, course, idle, run, ne⟩
    · cases signal with
      | none =>
        have hn := next.unnoticed
        exact .inl ⟨hn.phase ▸ inactive, hn.status.trans idle⟩
      | some signal =>
        rcases next.begins_or_rests inactive with ⟨t, p, ne, run⟩ | ⟨hinactive, hstatus, -⟩
        · exact settle before idle run ne
        · exact .inl ⟨hinactive, hstatus.trans idle⟩
    · exact settle course idle (run.goesOn active next) ne

/-- **How status and events go together**: what holds of every state that an engine can reach
from its start. -/
structure Displays (s : Surroundings σ) (drift : σ → σ → Prop) (first x : Simulation σ) :
    Prop where
  /-- The status is idle exactly if no run is going on. -/
  idle : x.status = .idle ↔ isRunning x.effects = false
  /-- A run that is going on began with a start, and has shown everything since. -/
  runs : isRunning x.effects = true → ∃ earlier w t p since, Course s drift first earlier w
    ∧ Runs s drift t p w since x ∧ p.steps ≠ []
  /-- While none is going on, nothing is shown and published until one begins. -/
  rests : isRunning x.effects = false → ∀ {signal y}, Happens s drift x (some signal) y →
    (∃ t p, p.steps ≠ [] ∧ Runs s drift t p x [] y)
      ∨ y.status = x.status ∧ ∃ es, y.effects = x.effects ++ es ∧ ∀ e ∈ es, e.IsRestful
  /-- In a run that begins here, status and events agree: for the dispatches that it has begun,
  each with the length that was drawn for it. Where the counts of the program fit, these are the
  first of its expansion. -/
  agrees : ∀ {t p signals z}, Runs s drift t p x signals z → p.steps ≠ [] →
    x.status = .idle ∧ ∃ own timed, z.effects = x.effects ++ own
      ∧ z.status = (display own).status ∧ (t, .started) ∈ replies own
      ∧ (p.CountsFit → timed.map Prod.fst <+: p.expand) ∧ (∀ d ∈ timed, d.1.Lasts d.2)
      ∧ drawnLengths timed = draws signals ∧ Agrees p timed own

/-- **Status and events never contradict each other.** Between runs, which begin where a start
is answered by `started` and end with a terminal event, the status is idle and nothing is
published. In a run, the status already says what an event is about to say: which step is being
carried out, how many seconds are left of a wait, or that the run has ended. It names the
program that was started, and the seconds it counts begin at no more than the length of the
wait and never increase. -/
theorem status_fits_events {world : σ} (reach : Course s drift { world } earlier x) :
    Displays s drift { world } x := by
  obtain ⟨asked, dealings⟩ := reach.dealings
  have hrunning := (dealings.booked (booked_start world)).running
  have hcases := reach.rests_or_runs
  refine ⟨?_, fun running => ?_, fun resting signal y next => ?_, fun run ne => ?_⟩
  · rw [hrunning]
    rcases hcases with ⟨inactive, idle⟩ | ⟨active, _, w, t, p, since, _, idle, run, ne⟩
    · exact iff_of_true idle inactive
    · obtain ⟨place, own, hshown⟩ := run.shown ne
      exact hshown.idle_iff idle
  · rw [hrunning] at running
    rcases hcases with ⟨inactive, -⟩ | ⟨-, earlier, w, t, p, since, course, -, run, ne⟩
    · rw [running] at inactive
      cases inactive
    · exact ⟨earlier, w, t, p, since, course, run, ne⟩
  · rw [hrunning] at resting
    exact (next.begins_or_rests resting).imp_right And.right
  · have idle : x.status = .idle := by
      rcases hcases with ⟨-, idle⟩ | ⟨active, -⟩
      · exact idle
      · rw [run.idle] at active
        cases active
    obtain ⟨place, own, hshown⟩ := run.shown ne
    obtain ⟨hupTo, hlasting⟩ := hshown.located.begun
    exact ⟨idle, own, place.begun, hshown.effects, hshown.status_eq idle, hshown.started,
      fun fits => fits.route_eq ▸ hupTo, hlasting, hshown.drawn,
      hshown.suiting.agrees hshown.shows.isSettled⟩

/-- A run of `blink` that counts its first wait down. -/
theorem status_fits_events_blink :
    ∃ x signals z, Course (Rig.surroundings .unlabelled 1000 0) (fun _ _ => False) { world := {} }
        [] x
      ∧ Runs (Rig.surroundings .unlabelled 1000 0) (fun _ _ => False) 0 blink x signals z
      ∧ z.status = .waiting "blink" waitingWords 1 ∧ isRunning z.effects = true
      ∧ Displays (Rig.surroundings .unlabelled 1000 0) (fun _ _ => False) { world := {} } x
      ∧ Displays (Rig.surroundings .unlabelled 1000 0) (fun _ _ => False) { world := {} } z := by
  have h₀ : Course (Rig.surroundings .unlabelled 1000 0) (fun _ _ => False) { world := {} } [] _ :=
    .refl
  have h₁ := h₀.snoc (.asks (.start 0 blink) (.inl rfl))
  have r₁ : Runs (Rig.surroundings .unlabelled 1000 0) (fun _ _ => False) 0 blink
      { world := {}, queue := [.start 0 blink] } [] _ := .begins rfl rfl rfl
  have r₂ := r₁.goesOn rfl (.lands rfl rfl)
  have r₃ := r₂.goesOn rfl (.goesOn rfl rfl rfl)
  exact ⟨_, _, _, h₁, r₃, rfl, rfl, status_fits_events h₁,
    status_fits_events (h₁.trans r₃.course)⟩

end Simulation

end Switchboard.Engine
