import Switchboard.Proofs.Requests
import Switchboard.Proofs.Stop

/-!
# Every request is answered

Requests are answered in the order in which they were handed in, each exactly
once, and none is left unanswered. The first half is bookkeeping
(`Proofs.Requests`). The second half is a matter of progress, and has two parts:
an engine with a request to answer cannot come to a standstill, and it cannot go
on forever without answering. Both are in `Inevitable`, which says of a goal that
it comes about after finitely many signals *whatever* the engine takes notice of,
and that there always is something for it to take notice of.

A run can be as long as it likes and still does not keep a request waiting for
long, since the engine looks into the queue after each step and, during a wait or
a command, at any time. The worst that can happen is that the requests have yet to
move up from the line; they do so when the current step is complete
(`Keeps.paused`). So the next answer is due after at most one step of a run
(`inevitable_of_awaiting`), or else after the off commands of a sweep.
-/

namespace Switchboard.Engine

variable {σ : Type}

/-- **Lengths are drawn between their bounds**, both included. -/
def Surroundings.DrawsWithin (s : Surroundings σ) : Prop :=
  ∀ lo hi world, lo ≤ hi → lo ≤ (s.draw lo hi world).1 ∧ (s.draw lo hi world).1 ≤ hi

/-- The machine takes a length that is drawn between its bounds. -/
theorem Surroundings.DrawsWithin.listens {s : Surroundings σ} (within : s.DrawsWithin)
    {phase : Phase} {run : Run} {lo hi : Nat} (drawing : phase = .drawing run lo hi)
    (le : lo ≤ hi) (world : σ) :
    (step s.panel phase (.drawn (s.draw lo hi world).1)).isSome = true := by
  rw [drawing]
  dsimp only [step]
  rw [if_pos (within lo hi world le)]
  rfl

namespace Simulation

/-! ## What comes about whatever happens -/

/-- **A goal comes about whatever happens**: it is reached, or the engine can take
notice of something, and whatever it takes notice of next, the goal comes about
from there. What it does not notice may happen in between, as often as it likes. -/
inductive Inevitable (s : Surroundings σ) (drift : σ → σ → Prop) (goal : Simulation σ → Prop) :
    Simulation σ → Prop where
  /-- The goal is reached. -/
  | here {x : Simulation σ} (now : goal x) : Inevitable s drift goal x
  /-- The goal lies ahead. -/
  | ahead {x : Simulation σ}
      (possible : ∀ {y}, Course s drift x [] y → ∃ signal z, Course s drift y [signal] z)
      (soon : ∀ {y signal z}, Course s drift x [] y → Happens s drift y (some signal) z →
        Inevitable s drift goal z) : Inevitable s drift goal x

variable {s : Surroundings σ} {drift : σ → σ → Prop} {x y z : Simulation σ}
  {asked : List Request} {signals : List Signal} {goal further : Simulation σ → Prop}

/-- What nothing unnoticed undoes holds after any number of unnoticed happenings. -/
theorem Course.unnoticed {keeps : Simulation σ → Prop} (h : Course s drift x [] y) (hx : keeps x)
    (closed : ∀ {v w}, keeps v → Happens s drift v none w → keeps w) : keeps y := by
  generalize hnil : ([] : List Signal) = signals at h
  induction h with
  | refl => exact hx
  | @snoc signals signal v w before next ih =>
    obtain ⟨hsignals, hsignal⟩ := List.append_eq_nil_iff.mp hnil.symm
    cases signal with
    | none => exact closed (ih hsignals.symm) next
    | some signal => cases hsignal

/-- From an inevitable goal to a further one, with an invariant at hand. -/
theorem Inevitable.bind {keeps : Simulation σ → Prop} (h : Inevitable s drift goal x)
    (hx : keeps x)
    (closed : ∀ {v signal w}, keeps v → Happens s drift v signal w → keeps w)
    (next : ∀ {v}, keeps v → goal v → Inevitable s drift further v) :
    Inevitable s drift further x := by
  induction h with
  | here now => exact next hx now
  | ahead possible soon ih =>
    refine .ahead possible fun course happens => ih course happens ?_
    exact closed (course.unnoticed hx fun hv hw => closed hv hw) happens

/-! ## Waiting for an answer -/

/-- **An answer is due** in a phase: `n` have been given, and a further one is owed, or a
request is waiting. -/
structure Awaiting (n : Nat) (phase : Phase) (x : Simulation σ) : Prop where
  /-- The request that is still to be answered. -/
  due : phase.owed.isSome = true ∨ x.pending ≠ []
  /-- The state is sound. -/
  sound : Sound x
  /-- The phase. -/
  phase : x.phase = phase
  /-- The answers given. -/
  given : n ≤ (replies x.effects).length

/-- Another answer than the first few has been given. -/
abbrev Given (n : Nat) (x : Simulation σ) : Prop := n < (replies x.effects).length

variable {n : Nat} {phase : Phase} {signal : Signal}

/-- Nothing unnoticed makes an answer less due, or takes a request from the queue. -/
theorem Awaiting.unnoticed (h : Awaiting n phase x) (next : Happens s drift x none y) :
    Awaiting n phase y ∧ x.queue <+: y.queue := by
  have hn := next.unnoticed
  refine ⟨⟨h.due.imp_right fun hne => ?_, h.sound.happens next, hn.phase.trans h.phase, ?_⟩,
    hn.queue⟩
  rotate_left
  · rw [hn.effects]
    exact h.given
  · rcases next.asks_or_idles with ⟨r, -, rfl⟩ | ⟨hp, -⟩
    · rw [pending_submit]
      exact List.concat_ne_nil _ _
    · rwa [hp]

/-- An abandoned engine has no request waiting. -/
theorem Happens.pending_of_abandoned (h : Happens s drift x (some .abandoned) y) :
    x.pending = [] := by
  cases h with
  | abandons alone fed => exact (of_isAbandoned alone).2.2

/-- A run goes on to its next step only if the queue is empty. -/
theorem Happens.queue_of_quiet (h : Happens s drift x (some .quiet) y) : x.queue = [] := by
  cases h with
  | goesOn empty held fed => exact empty

/-- A signal that the engine is given and the machine takes is taken notice of. -/
theorem Offers.exists_happens {v : Simulation σ} (h : Offers s x signal v)
    (listens : (step s.panel x.phase signal).isSome = true) :
    ∃ y, Happens s drift x (some signal) y := by
  rw [← h.same.1] at listens
  obtain ⟨y, fed⟩ := Option.isSome_iff_exists.mp (isSome_feed listens)
  exact ⟨y, h.happens fed⟩

/-- A command on its way comes back once it is due, if the phase takes answers. -/
theorem exists_answered (listens : ∀ a, (step s.panel x.phase (.answered a)).isSome = true)
    (hway : x.onWay.isSome = true) : ∃ signal y, Course s drift x [signal] y := by
  rw [onWay, Option.isSome_map] at hway
  obtain ⟨c, hc⟩ := Option.isSome_iff_exists.mp hway
  have offers : Offers s { x with clock := max x.clock c.due } _ _ :=
    .answered hc (Nat.le_max_right _ _)
  obtain ⟨y, hy⟩ := offers.exists_happens (listens _)
  exact ⟨_, y, (Course.refl.snoc (.passes _ (Nat.le_max_left _ _))).snoc hy⟩

/-- **An engine from which an answer is due can take notice of something**, perhaps
after a pause, or when the command on its way is due. -/
theorem Awaiting.possible (within : s.DrawsWithin) (h : Awaiting n phase x) :
    ∃ signal y, Course s drift x [signal] y := by
  -- a request is taken as soon as it is in the queue, if the phase takes requests
  have takes : (∀ r, (step s.panel x.phase (.request r)).isSome = true) → x.pending ≠ [] →
      ∃ signal y, Course s drift x [signal] y := by
    intro listens hne
    have hne' := queue_pause_ne_nil hne
    cases hq : x.pause.queue with
    | nil => exact absurd hq hne'
    | cons r rest =>
      obtain ⟨y, hy⟩ := (Offers.request hq).exists_happens (listens r)
      exact ⟨.request r, y, (Course.refl.snoc .pauses).snoc hy⟩
  have lands : (∀ a, (step s.panel x.phase (.answered a)).isSome = true) →
      x.onWay.isSome = true → ∃ signal y, Course s drift x [signal] y := exists_answered
  have haw := h.sound.awaits
  have halone := h.sound.alone
  have hphase := h.phase
  rw [hphase] at takes lands haw halone
  cases phase with
  | idle =>
    refine takes (fun r => ?_) (h.due.resolve_left Bool.false_ne_true)
    cases r with
    | start t p =>
      dsimp only [step]
      split
      · rfl
      · rfl
    | stop t => rfl
  | drawing run lo hi =>
    obtain ⟨y, hy⟩ := (Offers.drawn hphase).exists_happens
      (within.listens hphase (h.sound.ordered run lo hi hphase) x.world)
    exact ⟨_, y, Course.refl.snoc hy⟩
  | calling run output power =>
    exact takes (fun r => by cases r <;> rfl) (h.due.resolve_left Bool.false_ne_true)
  | waiting run m =>
    exact takes (fun r => by cases r <;> rfl) (h.due.resolve_left Bool.false_ne_true)
  | between run =>
    exact takes (fun r => by cases r <;> rfl) (h.due.resolve_left Bool.false_ne_true)
  | landing caller => exact lands (fun a => rfl) haw
  | sweeping current rest report caller =>
    refine lands (fun a => rfl) ?_
    rw [show x.onWay = some (current, .off) from haw]
    rfl
  | ended => exact absurd (halone rfl).2.2 (h.due.resolve_left Bool.false_ne_true)

/-- **To give the next answer, it is enough to look at the next signal.** -/
theorem Awaiting.inevitable (within : s.DrawsWithin) (h : Awaiting n phase x)
    (soon : ∀ {y signal z}, Awaiting n phase y → x.queue <+: y.queue →
      Happens s drift y (some signal) z → Inevitable s drift (Given n) z) :
    Inevitable s drift (Given n) x := by
  have closed : ∀ {v w}, Awaiting n phase v ∧ x.queue <+: v.queue → Happens s drift v none w →
      Awaiting n phase w ∧ x.queue <+: w.queue :=
    fun hv hw => ⟨(hv.1.unnoticed hw).1, hv.2.trans (hv.1.unnoticed hw).2⟩
  have keeps : ∀ {y}, Course s drift x [] y → Awaiting n phase y ∧ x.queue <+: y.queue :=
    fun course => course.unnoticed ⟨h, List.prefix_refl _⟩ closed
  exact .ahead (fun course => (keeps course).1.possible within)
    fun course happens => soon (keeps course).1 (keeps course).2 happens

/-- **What a signal does to an answer that is due**: it is given, or it is still due, and
then it is owed, or no request was taken. -/
theorem Awaiting.noticed (h : Awaiting n phase x) (next : Happens s drift x (some signal) y) :
    Given n y ∨ Awaiting n y.phase y
      ∧ (y.phase.owed.isSome = true ∨ signal.request? = none) := by
  obtain ⟨effects, hn⟩ := next.noticed
  have hk := next.keeps
  have hsound := h.sound.happens next
  have hgiven : ∀ {answers}, replies effects = answers →
      (replies y.effects).length = (replies x.effects).length + answers.length := by
    intro answers ha
    rw [hn.effects, replies_append, List.length_append, ha]
  have hbefore := h.given
  have hh := hn.step.handles
  generalize hphase : y.phase = after at hh ⊢
  cases hh with
  | start free next_free answers =>
    left
    have hlen := hgiven answers
    show n < _
    rw [hlen, List.length_singleton]
    omega
  | stop free owes silent =>
    right
    have howed : after.owed.isSome = true := by
      rw [owes.1]
      rfl
    refine ⟨⟨.inl howed, hsound, hphase, ?_⟩, .inl howed⟩
    rw [hgiven silent]
    exact hbefore
  | @report t result report owed =>
    left
    have hreplies : replies [.answer t (.stopped report)] = [(t, .stopped report)] := rfl
    have hlen := hgiven hreplies
    show n < _
    rw [hlen, List.length_singleton]
    omega
  | aside untaken same silent closes =>
    right
    refine ⟨⟨?_, hsound, hphase, ?_⟩, .inr untaken⟩
    · rw [same, h.phase]
      refine h.due.imp_right fun hne => ?_
      have hp := hk.pending
      rw [untaken] at hp
      rwa [show x.pending = y.pending from hp] at hne
    · rw [hgiven silent]
      exact hbefore

/-! ## The next answer -/

/-- The answer to a stop comes once the off commands that are left are answered. -/
theorem inevitable_of_sweeping (within : s.DrawsWithin) {t : Ticket} {rest : List Relay}
    {current : Relay} {report : Sweep}
    (h : Awaiting n (.sweeping current rest report (some t)) x) :
    Inevitable s drift (Given n) x := by
  induction rest generalizing current report x with
  | nil =>
    refine h.inevitable within fun hy _ happens => ?_
    obtain hgiven | ⟨hz, -⟩ := hy.noticed happens
    · exact .here hgiven
    · obtain ⟨effects, hn⟩ := happens.noticed
      have hstep := hn.step
      rw [hy.phase] at hstep
      generalize hphase : Simulation.phase _ = after at hstep hz
      cases hstep with
      | refuses listens => cases listens
      -- the last answer is followed by that to the stop
      | reports =>
        refine .here ?_
        show n < _
        rw [hn.effects, replies_append, List.length_append]
        exact Nat.lt_succ_of_le hy.given
  | cons following rest ih =>
    refine h.inevitable within fun hy _ happens => ?_
    obtain hgiven | ⟨hz, -⟩ := hy.noticed happens
    · exact .here hgiven
    · obtain ⟨effects, hn⟩ := happens.noticed
      have hstep := hn.step
      rw [hy.phase] at hstep
      generalize hphase : Simulation.phase _ = after at hstep hz
      cases hstep with
      | refuses listens => cases listens
      | sweepsOn => exact ih hz

/-- **An answer that is owed is given.** -/
theorem inevitable_of_owed (within : s.DrawsWithin) (h : Awaiting n phase x)
    (owed : phase.owed.isSome = true) : Inevitable s drift (Given n) x := by
  cases phase with
  | landing caller =>
    obtain ⟨t, rfl⟩ := Option.isSome_iff_exists.mp owed
    refine h.inevitable within fun hy _ happens => ?_
    obtain hgiven | ⟨hz, -⟩ := hy.noticed happens
    · exact .here hgiven
    · obtain ⟨effects, hn⟩ := happens.noticed
      have hstep := hn.step
      rw [hy.phase] at hstep
      generalize hphase : Simulation.phase _ = after at hstep hz
      cases hstep with
      | refuses listens => cases listens
      | lands => exact inevitable_of_sweeping within hz
  | sweeping current rest report caller =>
    obtain ⟨t, rfl⟩ := Option.isSome_iff_exists.mp owed
    exact inevitable_of_sweeping within h
  | _ => cases owed

/-- **If requests are taken, an answer is given**: what is left to look at are the
signals that take none. -/
theorem Awaiting.inevitable_of_others (within : s.DrawsWithin) (h : Awaiting n phase x)
    (free : phase.owed = none)
    (soon : ∀ {y signal z effects}, Awaiting n phase y → x.queue <+: y.queue →
      Happens s drift y (some signal) z → signal.request? = none → signal ≠ .abandoned →
      Awaiting n z.phase z → Transition s.panel phase signal z.phase effects →
      Inevitable s drift (Given n) z) :
    Inevitable s drift (Given n) x := by
  refine h.inevitable within fun {y signal z} hy hqueue happens => ?_
  obtain hgiven | ⟨hz, howed | huntaken⟩ := hy.noticed happens
  · exact .here hgiven
  · exact inevitable_of_owed within hz howed
  · obtain ⟨effects, hn⟩ := happens.noticed
    have hstep := hn.step
    rw [hy.phase] at hstep
    have hne : y.pending ≠ [] := hy.due.resolve_left (by rw [free]; exact Bool.false_ne_true)
    refine soon hy hqueue happens huntaken ?_ hz hstep
    rintro rfl
    exact hne happens.pending_of_abandoned

/-- An idle engine takes the next request. -/
theorem inevitable_of_idle (within : s.DrawsWithin) (h : Awaiting n .idle x) :
    Inevitable s drift (Given n) x := by
  refine h.inevitable_of_others within rfl fun hy _ _ untaken held hz hstep => ?_
  generalize Simulation.phase _ = after at hstep
  cases hstep with
  | ends => exact absurd rfl held
  | refuses listens => cases listens
  | _ => cases untaken

/-- An engine between two steps that finds a request in its queue takes it. -/
theorem inevitable_of_between_of_queue (within : s.DrawsWithin) {run : Run}
    (h : Awaiting n (.between run) x) (queue : x.queue ≠ []) :
    Inevitable s drift (Given n) x := by
  refine h.inevitable_of_others within rfl fun hy hqueue happens untaken held hz hstep => ?_
  generalize Simulation.phase _ = after at hstep
  cases hstep with
  | proceeds goes =>
    have hempty := happens.queue_of_quiet
    rw [hempty] at hqueue
    exact absurd (List.prefix_nil.mp hqueue) queue
  | refuses listens => cases untaken
  | haltsBetween ends =>
    cases ends with
    | stop t => cases untaken
    | abandoned => exact absurd rfl held

/-- When a step is complete, whoever waits has moved up. -/
theorem inevitable_of_completed (within : s.DrawsWithin) {run : Run}
    (hz : Awaiting n z.phase z) (phase : z.phase = .between run)
    (next : Happens s drift y (some signal) z) (untaken : signal.request? = none) :
    Inevitable s drift (Given n) z := by
  have hne : z.pending ≠ [] := hz.due.resolve_left (by rw [phase]; exact Bool.false_ne_true)
  have hqueue := next.keeps.paused untaken run phase hne
  rw [phase] at hz
  exact inevitable_of_between_of_queue within hz hqueue

/-- A wait keeps a request waiting until it is over at most. -/
theorem inevitable_of_waiting (within : s.DrawsWithin) {run : Run} {m : Nat}
    (h : Awaiting n (.waiting run m) x) : Inevitable s drift (Given n) x := by
  induction m using Nat.strongRecOn generalizing x with
  | _ m ih =>
    refine h.inevitable_of_others within rfl fun hy _ happens untaken held hz hstep => ?_
    generalize hphase : Simulation.phase _ = after at hstep
    cases hstep with
    | ticks pos =>
      rw [hphase] at hz
      exact ih _ (Nat.lt_succ_self _) hz
    | rings le => exact inevitable_of_completed within hz hphase happens untaken
    | refuses listens => cases untaken
    | haltsWaiting ends =>
      cases ends with
      | stop t => cases untaken
      | abandoned => exact absurd rfl held

/-- A command keeps a request waiting until it is answered at most. -/
theorem inevitable_of_calling (within : s.DrawsWithin) {run : Run} {output : Relay}
    {power : Power} (h : Awaiting n (.calling run output power) x) :
    Inevitable s drift (Given n) x := by
  refine h.inevitable_of_others within rfl fun hy _ happens untaken held hz hstep => ?_
  generalize hphase : Simulation.phase _ = after at hstep
  cases hstep with
  | confirms => exact inevitable_of_completed within hz hphase happens untaken
  | fails =>
    rw [hphase] at hz
    exact inevitable_of_idle within hz
  | refuses listens => cases untaken
  | cuts ends =>
    cases ends with
    | stop t => cases untaken
    | abandoned => exact absurd rfl held

/-- A length that is to be drawn is drawn. -/
theorem inevitable_of_drawing (within : s.DrawsWithin) {run : Run} {lo hi : Nat}
    (h : Awaiting n (.drawing run lo hi) x) : Inevitable s drift (Given n) x := by
  refine h.inevitable_of_others within rfl fun hy _ happens untaken held hz hstep => ?_
  generalize hphase : Simulation.phase _ = after at hstep
  cases hstep with
  | draws ge le waits =>
    unfold Run.wait at waits
    split at waits
    · cases waits
      exact inevitable_of_completed within hz hphase happens untaken
    · cases waits
      rw [hphase] at hz
      exact inevitable_of_waiting within hz
  | refuses listens => cases listens

/-- **The next answer is inevitable** as long as one is due. -/
theorem inevitable_of_awaiting (within : s.DrawsWithin) (h : Awaiting n phase x) :
    Inevitable s drift (Given n) x := by
  have halone := h.sound.alone
  rw [h.phase] at halone
  cases phase with
  | idle => exact inevitable_of_idle within h
  | drawing run lo hi => exact inevitable_of_drawing within h
  | calling run output power => exact inevitable_of_calling within h
  | waiting run m => exact inevitable_of_waiting within h
  | between run =>
    refine h.inevitable_of_others within rfl fun hy _ happens untaken held hz hstep => ?_
    generalize hphase : Simulation.phase _ = after at hstep
    cases hstep with
    | proceeds goes =>
      -- the run goes on, and the phase is one of those above
      have hp := Run.proceeds s.panel { run with cursor := run.cursor.advance }
        (show Alternate true [] from trivial) rfl
      rw [goes] at hp
      cases after with
      | between run => exact inevitable_of_completed within hz hphase happens untaken
      | idle => rw [hphase] at hz; exact inevitable_of_idle within hz
      | drawing run lo hi => rw [hphase] at hz; exact inevitable_of_drawing within hz
      | calling run output power => rw [hphase] at hz; exact inevitable_of_calling within hz
      | waiting run m => rw [hphase] at hz; exact inevitable_of_waiting within hz
      | landing caller => rcases hp.phase with hf | hf <;> cases hf
      | sweeping current rest report caller => rcases hp.phase with hf | hf <;> cases hf
      | ended => rcases hp.phase with hf | hf <;> cases hf
    | refuses listens => cases untaken
    | haltsBetween ends =>
      cases ends with
      | stop t => cases untaken
      | abandoned => exact absurd rfl held
  | landing caller =>
    cases caller with
    | some t => exact inevitable_of_owed within h rfl
    | none => exact absurd (halone rfl).2.2 (h.due.resolve_left Bool.false_ne_true)
  | sweeping current rest report caller =>
    cases caller with
    | some t => exact inevitable_of_owed within h rfl
    | none => exact absurd (halone rfl).2.2 (h.due.resolve_left Bool.false_ne_true)
  | ended => exact absurd (halone rfl).2.2 (h.due.resolve_left Bool.false_ne_true)

/-! ## All answers -/

/-- **How many answers there are to give in all**, those given included. -/
def answerCount (x : Simulation σ) : Nat :=
  (replies x.effects).length + x.phase.owed.toList.length + x.pending.length

/-- The books count every request that was handed in. -/
theorem Booked.answerCount_eq (h : Booked asked signals z) : z.answerCount = asked.length := by
  obtain ⟨served, htaken, hserved⟩ := h.answered
  rw [h.accepted, htaken, List.length_append, List.length_append, hserved.length_eq, answerCount]
  cases z.phase.owed <;> rfl

/-- **No request is ever dropped.** -/
theorem Happens.answerCount_le {signal : Option Signal} (h : Happens s drift x signal y) :
    x.answerCount ≤ y.answerCount := by
  unfold answerCount
  cases signal with
  | none =>
    have hn := h.unnoticed
    rw [hn.phase, hn.effects]
    rcases h.asks_or_idles with ⟨r, -, rfl⟩ | ⟨hp, -⟩
    · rw [pending_submit, List.length_append]
      omega
    · exact Nat.le_of_eq (by rw [hp])
  | some signal =>
    obtain ⟨effects, hn⟩ := h.noticed
    have hpending := congrArg List.length h.keeps.pending
    have hh := hn.step.handles
    rw [hn.effects, replies_append]
    rw [List.length_append] at hpending ⊢
    generalize y.phase = next at hh ⊢
    cases hh with
    | start free next_free answers =>
      rw [free, next_free.1, answers, hpending]
      simp [Signal.request?]
      omega
    | stop free owes silent =>
      rw [free, owes.1, silent, hpending]
      simp [Signal.request?]
      omega
    | @report t result report owed =>
      rw [owed, hpending]
      simp [Signal.request?, Phase.owed, replies, Effect.reply?]
    | aside untaken same silent closes =>
      rw [same, silent, hpending, untaken]
      simp

/-- **As many answers are given as there are requests**, whatever happens. -/
theorem inevitable_of_sound (within : s.DrawsWithin) {k : Nat} (hx : Sound x)
    (hk : k ≤ x.answerCount) :
    Inevitable s drift (fun y => k ≤ (replies y.effects).length) x := by
  induction k with
  | zero => exact .here (Nat.zero_le _)
  | succ k ih =>
    -- after the first answers, one more is due, or has been given already
    have closed : ∀ {v signal w}, Sound v ∧ k + 1 ≤ v.answerCount → Happens s drift v signal w →
        Sound w ∧ k + 1 ≤ w.answerCount :=
      fun hv hw => ⟨hv.1.happens hw, Nat.le_trans hv.2 hw.answerCount_le⟩
    refine (ih (Nat.le_of_succ_le hk)).bind ⟨hx, hk⟩ closed ?_
    intro v hv hgiven
    by_cases hmore : k + 1 ≤ (replies v.effects).length
    · exact .here hmore
    · refine inevitable_of_awaiting within ⟨?_, hv.1, rfl, hgiven⟩
      have hcount := hv.2
      rw [answerCount] at hcount
      cases howed : v.phase.owed with
      | some t => exact .inl rfl
      | none =>
        right
        rw [howed] at hcount
        intro hempty
        rw [hempty] at hcount
        simp only [Option.toList_none, List.length_nil] at hcount
        omega

end Simulation

end Switchboard.Engine
