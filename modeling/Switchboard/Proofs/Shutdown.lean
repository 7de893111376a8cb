import Switchboard.Proofs.Answers

/-!
# When everybody has left

An engine that nobody holds on to any more can never be asked for anything again. It finds that
out where it would otherwise wait for a request, or look for one between two steps. If it runs
a program then, it ends the run as it would for a stop, with nobody to answer; if it runs
nothing, there is nothing to do. In both cases it ends.

`Closing` says how far an engine has come that ends a run for this reason, after a number of
answers of the controller, and what it has done up to then. The engine takes notice of nothing but
those answers (`Closing.step`), needs at most five of them (`inevitable_of_closing`), and of
nothing at all once it has ended (`Course.of_ended`).

When a step is complete, the engine has paused, so that whoever was answered has let go
(`Happens.lingering_of_completed`). If nobody else holds on to it, it does not begin another
step (`Course.of_left`), however short the steps of its program are.
-/

namespace Switchboard.Engine

variable {σ : Type}

/-- **How far an engine has come that closes**, for the command that was on its way when it
found that it was alone: after which answers of the controller it is in which phase, with
which command on its way, and what it has done since. -/
inductive Closing (flight : Option (Relay × Power)) :
    List Answer → Phase → Option (Relay × Power) → List Effect → Prop where
  /-- The run is over, and its last command is still on its way. -/
  | landing (inFlight : flight.isSome = true) :
      Closing flight [] (.landing none) flight cancellation
  /-- The last command of the run has been answered, if one was on its way, and
  some off commands after it. The next is on its way. -/
  | sweeping {ignored swept : List Answer} {attempted rest : List Relay} {current : Relay}
      {report : Sweep} (flew : ignored.length = flight.toList.length)
      (split : attempted ++ current :: rest = Relay.all)
      (each : attempted.length = swept.length) :
      Closing flight (ignored ++ swept) (.sweeping current rest report none)
        (some (current, .off)) (cancellation ++ offCommands (attempted ++ [current]))
  /-- Every off command has been answered, and the engine has ended. -/
  | ended {ignored swept : List Answer} (flew : ignored.length = flight.toList.length)
      (each : Relay.all.length = swept.length) :
      Closing flight (ignored ++ swept) .ended none (cancellation ++ offCommands Relay.all)

variable {panel : Panel} {flight way : Option (Relay × Power)} {phase next : Phase}
  {as : List Answer} {es effects : List Effect} {signal : Signal}

/-- **A run whose engine is alone** is cancelled, and the engine has closed as far as it can
without an answer. -/
theorem Closing.ofAbandoned (active : phase.isActive = true) (aw : phase.Awaits way)
    (ht : Transition panel phase .abandoned next effects) :
    Closing way [] next (effects.foldl Effect.onWay way) effects
      ∧ (∀ shown, effects.foldl Status.after shown = .idle) ∧ events effects = [.cancelled] := by
  have sweeps : Closing none [] (.sweeping .first Relay.others .empty none)
      (some (.first, .off)) (cancellation ++ [.command .first .off]) :=
    @Closing.sweeping none [] [] [] _ _ _ rfl rfl rfl
  cases ht with
  | cuts ends =>
    cases ends
    cases aw
    exact ⟨.landing rfl, fun _ => rfl, rfl⟩
  | haltsWaiting ends =>
    cases ends
    cases aw
    exact ⟨sweeps, fun _ => rfl, rfl⟩
  | haltsBetween ends =>
    cases ends
    cases aw
    exact ⟨sweeps, fun _ => rfl, rfl⟩
  | ends => cases active

/-- **Until it has ended, the engine takes notice of nothing but answers of the controller**,
each of which brings it closer to its end. -/
theorem Closing.step (h : Closing flight as phase way es)
    (ht : Transition panel phase signal next effects) :
    ∃ a, signal = .answered a
      ∧ Closing flight (as ++ [a]) next (effects.foldl Effect.onWay none) (es ++ effects)
      ∧ effects.foldl Status.after .idle = .idle := by
  cases h with
  | landing inFlight =>
    obtain ⟨c, rfl⟩ := Option.isSome_iff_exists.mp inFlight
    cases ht with
    | @lands _ a =>
      exact ⟨a, rfl, @Closing.sweeping (some c) [a] [] [] _ _ _ rfl rfl rfl, rfl⟩
    | refuses listens => cases listens
  | @sweeping ignored swept attempted rest current report flew split each =>
    have each' : ∀ a, (attempted ++ [current]).length = (swept ++ [a]).length := by
      intro a
      rw [List.length_append, List.length_append, each]
      rfl
    cases ht with
    | @sweepsOn _ following rest _ _ a =>
      refine ⟨a, rfl, ?_, rfl⟩
      rw [List.append_assoc ignored, List.append_assoc cancellation, ← offCommands_concat]
      refine .sweeping flew ?_ (each' a)
      rw [← split, List.append_assoc]
      rfl
    | @sweepsUp _ _ a =>
      refine ⟨a, rfl, ?_, rfl⟩
      have heach := each' a
      rw [List.append_assoc ignored, List.append_nil]
      rw [split] at heach ⊢
      exact .ended flew heach
    | refuses listens => cases listens
  | ended flew each =>
    cases ht with
    | refuses listens => cases listens

/-- The last command of the run and the off commands are all that has to be answered. -/
theorem Closing.length_le (h : Closing flight as phase way es) :
    as.length ≤ flight.toList.length + Relay.all.length := by
  cases h with
  | landing inFlight => exact Nat.zero_le _
  | @sweeping ignored swept attempted rest current report flew split each =>
    rw [List.length_append, flew, ← each, ← split, List.length_append]
    exact Nat.add_le_add_left (Nat.le_add_right _ _) _
  | ended flew each => exact Nat.le_of_eq (by rw [List.length_append, flew, each])

/-- Until it has ended, a command is on its way, and the engine waits for the answer. -/
theorem Closing.listens (h : Closing flight as phase way es) (panel : Panel)
    (going : phase ≠ .ended) :
    way.isSome = true ∧ ∀ a, (Engine.step panel phase (.answered a)).isSome = true := by
  cases h with
  | landing inFlight => exact ⟨inFlight, fun _ => rfl⟩
  | sweeping flew split each => exact ⟨rfl, fun _ => rfl⟩
  | ended flew each => exact absurd rfl going

namespace Simulation

variable {s : Surroundings σ} {drift : σ → σ → Prop} {w x y z : Simulation σ}
  {asked : List Request} {signals before : List Signal}

/-! ## An engine that closes -/

/-- **An engine closes**, however that is interleaved with everything else. -/
theorem Course.closing {done : List Effect} (h : Course s drift y signals z)
    (hc : Closing flight [] y.phase y.onWay es) (heffects : y.effects = done ++ es)
    (hstatus : y.status = .idle) :
    ∃ as es, signals = as.map .answered ∧ Closing flight as z.phase z.onWay es
      ∧ z.effects = done ++ es ∧ z.status = .idle := by
  induction h with
  | refl => exact ⟨[], es, rfl, hc, heffects, hstatus⟩
  | @snoc signals signal v z course next ih =>
    obtain ⟨as, es, hsignals, hclosing, heff, hst⟩ := ih
    cases signal with
    | none =>
      have hn := next.unnoticed
      refine ⟨as, es, ?_, ?_, hn.effects.trans heff, hn.status.trans hst⟩
      · rw [Option.toList_none, List.append_nil]
        exact hsignals
      · rw [hn.phase, onWay, hn.call]
        exact hclosing
    | some signal =>
      obtain ⟨effects, hn⟩ := next.noticed
      obtain ⟨a, rfl, hclosing', hshown⟩ := hclosing.step hn.step
      refine ⟨as ++ [a], es ++ effects, ?_, ?_, ?_, ?_⟩
      · rw [hsignals, List.map_append]
        rfl
      · rw [hn.onWay]
        exact hclosing'
      · rw [hn.effects, heff, List.append_assoc]
      · rw [hn.status, hst, hshown]

/-- **An engine that closes comes to its end**, whatever happens. -/
theorem inevitable_of_closing (h : Closing flight as x.phase x.onWay es) :
    Inevitable s drift (fun z => z.phase = .ended) x := by
  -- the induction is on the answers that have yet to come
  generalize hleft : flight.toList.length + Relay.all.length - as.length = left
  induction left using Nat.strongRecOn generalizing as es x with
  | _ left ih =>
    by_cases hended : x.phase = .ended
    · exact .here hended
    have same : ∀ {y}, Course s drift x [] y → y.phase = x.phase ∧ y.onWay = x.onWay := by
      intro y course
      refine @Course.unnoticed _ _ _ _ _ (fun y => y.phase = x.phase ∧ y.onWay = x.onWay) course
        ⟨rfl, rfl⟩ fun hv next => ?_
      have hn := next.unnoticed
      rw [hn.phase, onWay, hn.call]
      exact hv
    refine .ahead (fun {y} course => ?_) fun {y signal z} course next => ?_
    · obtain ⟨hphase, hway⟩ := same course
      rw [← hphase, ← hway] at h
      rw [← hphase] at hended
      obtain ⟨inFlight, listens⟩ := h.listens s.panel hended
      exact exists_answered listens inFlight
    · obtain ⟨hphase, hway⟩ := same course
      rw [← hphase, ← hway] at h
      obtain ⟨effects, hn⟩ := next.noticed
      obtain ⟨a, rfl, hclosing, -⟩ := h.step hn.step
      rw [show effects.foldl Effect.onWay none = z.onWay from hn.onWay.symm] at hclosing
      have hlen := hclosing.length_le
      refine ih _ ?_ hclosing rfl
      rw [List.length_append, List.length_singleton] at hlen ⊢
      omega

/-! ## An engine that has ended -/

/-- **Of an engine that has ended nothing more comes.** It takes notice of nothing. -/
theorem Course.of_ended (h : Course s drift x signals z) (ended : x.phase = .ended) :
    signals = [] ∧ z.phase = .ended ∧ z.effects = x.effects ∧ z.status = x.status := by
  induction h with
  | refl => exact ⟨rfl, ended, rfl, rfl⟩
  | @snoc signals signal y z before next ih =>
    obtain ⟨rfl, hphase, heffects, hstatus⟩ := ih
    cases signal with
    | none =>
      have hn := next.unnoticed
      exact ⟨rfl, hn.phase.trans hphase, hn.effects.trans heffects, hn.status.trans hstatus⟩
    | some signal =>
      obtain ⟨effects, hn⟩ := next.noticed
      have hstep := hn.step
      rw [hphase] at hstep
      generalize z.phase = after at hstep
      cases hstep with
      | refuses listens => cases listens

/-! ## Nobody holds on to a run between two steps -/

/-- An engine is abandoned if nobody holds on to it. -/
theorem isAbandoned_of (held : x.held = false) (lingering : x.lingering = false)
    (pending : x.pending = []) : x.isAbandoned = true := by
  obtain ⟨hqueue, hline⟩ := List.append_eq_nil_iff.mp pending
  simp [isAbandoned, isPending, held, lingering, hqueue, hline]

/-- Nobody comes back who has left. -/
theorem isAbandoned_of_unnoticed (h : x.isAbandoned = true) (next : Happens s drift x none y) :
    y.isAbandoned = true := by
  obtain ⟨hheld, hlingering, hpending⟩ := of_isAbandoned h
  rcases next.asks_or_idles with ⟨r, may, -⟩ | ⟨hp, hh, hl⟩
  · rw [hheld, hlingering] at may
    rcases may with hf | hf <;> cases hf
  · exact isAbandoned_of (Bool.eq_false_iff.mpr fun ht => Bool.eq_false_iff.mp hheld (hh ht))
      (Bool.eq_false_iff.mpr fun ht => Bool.eq_false_iff.mp hlingering (hl ht)) (hp.trans hpending)

/-- An engine between two steps that nobody holds on to finds that out, and nothing else. -/
theorem Happens.eq_abandoned {run : Run} (h : Happens s drift x (some signal) y)
    (phase : x.phase = .between run) (alone : x.isAbandoned = true) : signal = .abandoned := by
  have hqueue : x.queue = [] := (List.append_eq_nil_iff.mp (of_isAbandoned alone).2.2).1
  obtain ⟨effects, hn⟩ := h.noticed
  have hstep := hn.step
  rw [phase] at hstep
  generalize y.phase = after at hstep
  cases hstep with
  | refuses listens =>
    cases h with
    | takes head fed => rw [hqueue] at head; cases head
  | haltsBetween ends =>
    cases ends with
    | stop t =>
      cases h with
      | takes head fed => rw [hqueue] at head; cases head
    | abandoned => rfl
  | proceeds goes =>
    cases h with
    | goesOn empty held fed => rw [alone] at held; cases held

/-- When a step is complete, whoever was answered has let go. -/
theorem Happens.lingering_of_completed {run : Run} (h : Happens s drift x (some signal) y)
    (untaken : signal.request? = none) (completed : y.phase = .between run) :
    y.lingering = false := by
  obtain ⟨v, -, fed⟩ := h.fed
  unfold feed at fed
  cases hs : Engine.step s.panel v.phase signal with
  | none => simp [hs] at fed
  | some next =>
    obtain ⟨phase, es⟩ := next
    have hp := performed s { v with phase } es
    simp only [hs, Option.some.injEq] at fed
    generalize es.foldl (perform s) { v with phase } = z at fed hp
    split at fed
    · subst fed
      rfl
    · rename_i hpauses
      subst fed
      obtain rfl : phase = .between run := by rw [← completed, hp.phase]
      exact absurd (pausesAt_of_completed untaken) hpauses

/-- **If everybody has left when a step is complete**, the run does not go on: the next thing
that the engine notices is that it is alone. -/
theorem Course.of_left {run : Run} (h : Course s drift x signals z) (phase : x.phase = .between run)
    (alone : x.isAbandoned = true) :
    (signals = [] ∧ z.phase = .between run ∧ z.isAbandoned = true ∧ z.effects = x.effects)
      ∨ ∃ v w later, Course s drift x [] v ∧ v.phase = .between run ∧ v.effects = x.effects
        ∧ Happens s drift v (some .abandoned) w ∧ Course s drift w later z
        ∧ signals = .abandoned :: later := by
  induction h with
  | refl => exact .inl ⟨rfl, phase, alone, rfl⟩
  | @snoc signals signal y z before next ih =>
    obtain ⟨rfl, hphase, halone, heffects⟩ | ⟨v, w, later, hxv, hv, hev, hvw, hwy, hsig⟩ := ih
    · cases signal with
      | none =>
        have hn := next.unnoticed
        exact .inl ⟨rfl, hn.phase.trans hphase, isAbandoned_of_unnoticed halone next,
          hn.effects.trans heffects⟩
      | some signal =>
        obtain rfl := next.eq_abandoned hphase halone
        exact .inr ⟨y, z, [], before, hphase, heffects, next, .refl, rfl⟩
    · refine .inr ⟨v, w, later ++ signal.toList, hxv, hv, hev, hvw, hwy.snoc next, ?_⟩
      rw [hsig]
      rfl

/-! ## Shutting down -/

/-- **What follows when an engine that runs a program finds that it is alone**, in the state
that it finds this in and the one that this leads to. -/
structure ClosesRun (s : Surroundings σ) (drift : σ → σ → Prop) (x y : Simulation σ) : Prop where
  /-- The status is idle at once. -/
  status : y.status = .idle
  /-- The run is cancelled at once, and nothing else is published. -/
  published : y.published = x.published ++ [.cancelled]
  /-- A command is on its way only if the run is carrying it out. -/
  flight : x.onWay = none ∨ ∃ run output power,
    x.phase = .calling run output power ∧ x.onWay = some (output, power)
  /-- The engine takes notice of nothing but answers of the controller. After each of them it
  has come as far as `Closing` says. -/
  closes : ∀ {signals z}, Course s drift y signals z → ∃ as es,
    signals = as.map .answered ∧ Closing x.onWay as z.phase z.onWay es
      ∧ z.effects = x.effects ++ es ∧ z.status = .idle
  /-- It ends. -/
  ends : Inevitable s drift (fun z => z.phase = .ended) y

/-- A run is closed when its engine is alone, if the command on its way is its own. -/
theorem closesRun (active : x.phase.isActive = true) (aw : x.phase.Awaits x.onWay)
    (next : Happens s drift x (some .abandoned) y) : ClosesRun s drift x y := by
  obtain ⟨effects, hn⟩ := next.noticed
  obtain ⟨hclosing, hshown, hevents⟩ := Closing.ofAbandoned active aw hn.step
  have hc : Closing x.onWay [] y.phase y.onWay effects := by
    rw [hn.onWay]
    exact hclosing
  have hstatus : y.status = .idle := by rw [hn.status, hshown]
  refine ⟨hstatus, ?_, aw.flight active, fun course => course.closing hc hn.effects hstatus,
    inevitable_of_closing hc⟩
  rw [published, hn.effects, events_append, hevents]
  rfl

/-- An engine that runs nothing and finds that it is alone ends there and then. -/
theorem Happens.ends_of_inactive (h : Happens s drift x (some .abandoned) y)
    (inactive : x.phase.isActive = false) :
    y.phase = .ended ∧ y.effects = x.effects ∧ y.status = x.status := by
  obtain ⟨effects, hn⟩ := h.noticed
  have hstep := hn.step
  have heffects := hn.effects
  have hstatus := hn.status
  generalize x.phase = phase at inactive hstep
  generalize y.phase = after at hstep ⊢
  cases hstep with
  | ends => exact ⟨rfl, heffects.trans (List.append_nil _), hstatus⟩
  | _ => cases inactive

/-- An engine between two steps that nobody holds on to can find that out. -/
theorem exists_abandons {run : Run} (phase : x.phase = .between run)
    (alone : x.isAbandoned = true) : ∃ y, Happens s drift x (some .abandoned) y := by
  refine (Offers.abandoned alone).exists_happens ?_
  rw [phase]
  rfl

/-- **How an engine shuts down**: what holds of every state that it can reach, for the
requests that were handed in. -/
structure ShutsDown (s : Surroundings σ) (drift : σ → σ → Prop) (asked : List Request)
    (x : Simulation σ) : Prop where
  /-- When the engine finds that it is alone, every request has been answered. -/
  answered : ∀ {y}, Happens s drift x (some .abandoned) y →
    List.Forall₂ Request.Answered asked (replies x.effects)
  /-- A run ends then as it does when it is stopped, and the engine with it. -/
  running : ∀ {y}, x.phase.isActive = true → Happens s drift x (some .abandoned) y →
    ClosesRun s drift x y
  /-- If nothing runs, the engine ends and does nothing more. -/
  resting : ∀ {y}, x.phase.isActive = false → Happens s drift x (some .abandoned) y →
    y.phase = .ended ∧ y.effects = x.effects ∧ y.status = x.status
  /-- After its end nothing ever follows. -/
  after : x.phase = .ended → ∀ {signals z}, Course s drift x signals z →
    signals = [] ∧ z.phase = .ended ∧ z.effects = x.effects ∧ z.status = x.status
  /-- When a step is complete and nobody holds on to the engine or waits for it, those who
  were answered have let go as well. -/
  completed : ∀ {w signal run}, Happens s drift w (some signal) x → signal.request? = none →
    x.phase = .between run → x.held = false → x.pending = [] → x.isAbandoned = true
  /-- If everybody has left between two steps, the next step does not begin: nothing happens
  until the run is closed, and the engine ends. -/
  left : ∀ {run}, x.phase = .between run → x.isAbandoned = true →
    Inevitable s drift (fun z => z.phase = .ended) x
      ∧ ∀ {signals z}, Course s drift x signals z → signals = [] ∧ z.effects = x.effects
        ∨ ∃ as es, signals = .abandoned :: as.map .answered ∧ Closing none as z.phase z.onWay es
          ∧ z.effects = x.effects ++ es ∧ z.status = .idle

/-- An engine that can find that it is alone owes no answer. -/
theorem Happens.owed_of_abandoned (h : Happens s drift x (some .abandoned) y) :
    x.phase.owed = none := by
  obtain ⟨effects, hn⟩ := h.noticed
  have hstep := hn.step
  generalize x.phase = phase at hstep ⊢
  generalize y.phase = after at hstep
  cases hstep <;> rfl

/-- **When the last one has left, the engine shuts down**, whatever it is at. A run that is
going on ends as it does when it is stopped: it is cancelled, its command comes back and is
ignored, and the off commands follow one after the other. Then the engine ends, as it does at
once if nothing runs, and nothing ever follows. A step that is complete when everybody has
left is the last of its run. -/
theorem shutdown {world : σ} {asked : List Request}
    (reach : Dealings s drift { world } asked before x) : ShutsDown s drift asked x := by
  have hsound := reach.course.sound (sound_start world)
  -- whatever nothing notices leaves a run alone that everybody has left
  have keeps : ∀ {run y}, x.phase = .between run → x.isAbandoned = true →
      Course s drift x [] y → y.phase = .between run ∧ y.isAbandoned = true := by
    intro run y phase alone course
    exact @Course.unnoticed _ _ _ _ _
      (fun y => y.phase = .between run ∧ y.isAbandoned = true) course ⟨phase, alone⟩
      fun hv next => ⟨next.unnoticed.phase.trans hv.1, isAbandoned_of_unnoticed hv.2 next⟩
  have closes : ∀ {run v w}, Course s drift x [] v → v.phase = .between run →
      Happens s drift v (some .abandoned) w → ClosesRun s drift v w := by
    intro run v w course phase next
    refine closesRun ?_ (course.awaits hsound.awaits) next
    rw [phase]
    rfl
  refine ⟨fun next => ?_, fun active next => closesRun active hsound.awaits next,
    fun inactive next => next.ends_of_inactive inactive, fun ended _ _ course =>
    course.of_ended ended, fun next untaken completed held pending =>
    isAbandoned_of held (next.lingering_of_completed untaken completed) pending,
    fun {run} phase alone => ⟨.ahead (fun {y} course => ?_) fun {y signal z} course next => ?_,
      fun {signals z} course => ?_⟩⟩
  · have hbooked := reach.booked (booked_start world)
    obtain ⟨served, htaken, hserved⟩ := hbooked.answered
    -- nothing waits where the engine finds that it is alone, and no answer is owed
    have hasked : asked = served := by
      rw [hbooked.accepted, htaken, next.owed_of_abandoned, next.pending_of_abandoned]
      exact (List.append_nil _).trans (List.append_nil _)
    rw [hasked]
    exact hserved
  · obtain ⟨hphase, halone⟩ := keeps phase alone course
    obtain ⟨z, next⟩ : ∃ z, Happens s drift y (some .abandoned) z :=
      exists_abandons hphase halone
    exact ⟨_, z, next.course⟩
  · obtain ⟨hphase, halone⟩ := keeps phase alone course
    obtain rfl := next.eq_abandoned hphase halone
    exact (closes course hphase next).ends
  · obtain ⟨hsig, -, -, heffects⟩ | ⟨v, w, later, hxv, hv, hev, hvw, hwz, hsig⟩ :=
      course.of_left phase alone
    · exact .inl ⟨hsig, heffects⟩
    · obtain ⟨as, es, hlater, hclosing, heffects, hstatus⟩ := (closes hxv hv hvw).closes hwz
      have hway : v.onWay = none := by
        have haw := hxv.awaits hsound.awaits
        rw [hv] at haw
        exact haw
      rw [hway] at hclosing
      exact .inr ⟨as, es, by rw [hsig, hlater], hclosing, heffects.trans (by rw [hev]), hstatus⟩

/-- Everybody leaves a run of `blink` while its first command is on its way. The engine can
find that out, and then closes the run. -/
theorem shutdown_blink :
    ∃ x y, Dealings (Rig.surroundings .unlabelled 1000 0) (fun _ _ => False) { world := {} }
        [.start 0 blink] [.request (.start 0 blink)] x
      ∧ Happens (Rig.surroundings .unlabelled 1000 0) (fun _ _ => False) x (some .abandoned) y
      ∧ x.onWay = some (.first, .on)
      ∧ ClosesRun (Rig.surroundings .unlabelled 1000 0) (fun _ _ => False) x y
      ∧ ShutsDown (Rig.surroundings .unlabelled 1000 0) (fun _ _ => False) [.start 0 blink] x := by
  have h₀ : Dealings (Rig.surroundings .unlabelled 1000 0) (fun _ _ => False) { world := {} }
      [] [] _ := .refl
  have h₁ := h₀.asks (.start 0 blink) (.inl rfl)
  have h₂ := h₁.befalls (.takes rfl rfl) nofun
  have h₃ := h₂.befalls .letsGo fun _ => rfl
  have h₄ := h₃.befalls .pauses fun _ => rfl
  exact ⟨_, _, h₄, .abandons rfl rfl, rfl, (shutdown h₄).running rfl (.abandons rfl rfl),
    shutdown h₄⟩

end Simulation

end Switchboard.Engine
