import Mathlib.Logic.Relation
import Switchboard.Console.Outcome
import Switchboard.Proofs.LastWord

/-!
# Following a run to its end

Whoever follows a run may be slower than the engine by any amount, and misses whatever the channel
has forgotten by the time it reads. It still learns how the run ended: the event that tells is
the last one that is published (`Proofs.LastWord`), and a channel that keeps anything keeps the
last item.

`Followed` allows the engine, its follower and everybody else to act in any order. What holds of
all that can come about is proved in two parts. `Kept` is about the engine's answers, and ties the
follower's stop to its report; `Reading` is about its events, and says that nothing that tells
of an end was read or missed while the follower goes on.
-/

namespace Switchboard.Console

open Engine Engine.Simulation

variable {σ : Type}

/-! ## Ends and events -/

/-- The events that tell how a run ended are those that end it. -/
theorem RunEnd.isSome_ofEvent? (e : Event) : (RunEnd.ofEvent? e).isSome = e.isTerminal := by
  cases e <;> rfl

/-- Different events tell of different ends. -/
theorem RunEnd.ofEvent?_inj {e e' : Event} {r : RunEnd} (h : RunEnd.ofEvent? e = some r)
    (h' : RunEnd.ofEvent? e' = some r) : e = e' := by
  cases e <;> cases h <;> cases e' <;> cases h' <;> rfl

/-- No event tells of a stop by the follower. -/
theorem RunEnd.ofEvent?_ne_stopped (e : Event) (sweep : Sweep) :
    RunEnd.ofEvent? e ≠ some (.stopped sweep) := by
  cases e <;> exact nofun

/-- **An end fits the events of a run**: it is the one that they tell of. -/
structure RunEnd.Fits (r : RunEnd) (es : List Event) : Prop where
  /-- One of the events tells of it. -/
  told : ∃ e ∈ es, RunEnd.ofEvent? e = some r
  /-- The program is complete exactly if that was published. -/
  finished : r = .finished ↔ .finished ∈ es
  /-- The run has failed exactly if that was published, and for the same reason. -/
  failed : ∀ reason, r = .failed reason ↔ .error reason ∈ es
  /-- Someone else stopped the run exactly if it was published that it is cancelled. -/
  cancelled : r = .cancelled ↔ .cancelled ∈ es

/-- An event that tells of an end is one that ends the run. -/
theorem RunEnd.isTerminal {e : Event} {r : RunEnd} (tells : RunEnd.ofEvent? e = some r) :
    e.isTerminal = true := by
  rw [← RunEnd.isSome_ofEvent?, tells]
  rfl

/-- The events of a run that is over tell of a single end. -/
theorem RunEnd.eq_of_concluded {r r' : RunEnd} {es : List Event} {e e' : Event} (h : Concluded es)
    (he : e ∈ es) (tells : RunEnd.ofEvent? e = some r) (he' : e' ∈ es)
    (tells' : RunEnd.ofEvent? e' = some r') : r = r' := by
  rw [h.eq_of_mem he he' (RunEnd.isTerminal tells) (RunEnd.isTerminal tells'), tells'] at tells
  exact (Option.some.inj tells).symm

/-- The end that one of the events of a run tells of fits them all. -/
theorem RunEnd.fits_of_mem {r : RunEnd} {es : List Event} {e : Event} (h : Concluded es)
    (he : e ∈ es) (tells : RunEnd.ofEvent? e = some r) : r.Fits es := by
  have key : ∀ {e' r'}, RunEnd.ofEvent? e' = some r' → (r = r' ↔ e' ∈ es) := by
    intro e' r' tells'
    constructor
    · rintro rfl
      exact RunEnd.ofEvent?_inj tells tells' ▸ he
    · exact fun he' => RunEnd.eq_of_concluded h he tells he' tells'
  exact ⟨⟨e, he, tells⟩, key rfl, fun reason => key rfl, key rfl⟩

namespace Watch

/-! ## Taking note of what the engine did -/

/-- What the follower knows about the end of the run after an answer of the engine. -/
def knowing (known : Option RunEnd) : Ticket × Reply → Option RunEnd
  | (ticket, .stopped sweep) => if ticket = stopTicket then some (.stopped sweep) else known
  | _ => known

/-- **What taking note of effects does.** -/
structure Absorbed (w : Watch σ) (es : List Effect) (v : Watch σ) : Prop where
  /-- The engine is left alone. -/
  sim : v.sim = w.sim
  /-- The channel keeps as many items as before. -/
  capacity : v.channel.capacity = w.channel.capacity
  /-- Events are published. -/
  published : v.channel.published.toList = w.channel.published.toList ++ events es
  /-- Answers are received. -/
  replies : v.replies = (Engine.replies es).reverse ++ w.replies
  /-- Nothing is read. -/
  seen : v.seen = w.seen
  /-- Nobody interrupts. -/
  interrupted : v.interrupted = w.interrupted
  /-- The answer to the follower's stop is the end for it. -/
  ended : v.ended = (Engine.replies es).foldl knowing w.ended

theorem absorbed (w : Watch σ) (es : List Effect) : Absorbed w es (es.foldl absorb w) := by
  induction es generalizing w with
  | nil => exact ⟨rfl, rfl, (List.append_nil _).symm, rfl, rfl, rfl, rfl⟩
  | cons e es ih =>
    have h := ih (w.absorb e)
    cases e with
    | event e =>
      refine ⟨h.sim, h.capacity, h.published.trans ?_, h.replies, h.seen, h.interrupted, h.ended⟩
      show (w.channel.published.push e).toList ++ events es = _ ++ e :: events es
      rw [Array.toList_push, List.append_assoc]
      rfl
    | answer ticket reply =>
      refine ⟨h.sim, h.capacity, h.published, h.replies.trans ?_, h.seen, h.interrupted,
        h.ended.trans ?_⟩
      · show _ = ((ticket, reply) :: Engine.replies es).reverse ++ w.replies
        rw [List.reverse_cons, List.append_assoc]
        rfl
      · cases reply <;> rfl
    | _ => exact ⟨h.sim, h.capacity, h.published, h.replies, h.seen, h.interrupted, h.ended⟩

/-- **What comes of a happening**: the engine is in another state, and the follower is sent whatever
the engine has published and answered on the way. -/
def after (w : Watch σ) (y : Simulation σ) : Watch σ :=
  (y.effects.drop w.sim.effects.length).foldl absorb { w with sim := y }

theorem absorbed_after {w : Watch σ} {y : Simulation σ} {es : List Effect}
    (heffects : y.effects = w.sim.effects ++ es) :
    Absorbed { w with sim := y } es (w.after y) := by
  unfold after
  rw [heffects, List.drop_left]
  exact absorbed _ es

/-- Hands in a request. -/
def handIn (w : Watch σ) (r : Request) : Watch σ := { w with sim := w.sim.submit r }

/-! ## What can come about -/

/-- **What can happen while the follower does nothing**, with the requests that are handed in. The
follower holds on to the engine all the time. -/
inductive Stirs (s : Surroundings σ) (drift : σ → σ → Prop) (w : Watch σ) :
    List Request → Watch σ → Prop where
  /-- Something happens to the engine. -/
  | happens {signal : Option Signal} {y : Simulation σ} (next : Happens s drift w.sim signal y)
      (unasked : signal = none → y.pending = w.sim.pending) (held : y.held = true) :
      Stirs s drift w [] (w.after y)
  /-- Someone else hands in a request. -/
  | asks (r : Request) (other : r.ticket ≠ startTicket ∧ r.ticket ≠ stopTicket) :
      Stirs s drift w [r] (w.handIn r)

/-- **What can come about when a program is started and followed**, with the requests that were
handed in, oldest first. The follower begins to read when it has been told that the program
runs; then it may read as early and as late as it likes and interrupt the run at any time,
until it learns how the run ended. -/
inductive Followed (s : Surroundings σ) (drift : σ → σ → Prop) (capacity : Nat) (world : σ)
    (p : Program) : List Request → Watch σ → Prop where
  /-- Nobody has asked for anything. -/
  | fresh : Followed s drift capacity world p [] (.fresh capacity world)
  /-- The program is asked for. -/
  | starts {asked : List Request} {w : Watch σ} (before : Followed s drift capacity world p asked w)
      (once : ∀ r ∈ asked, r.ticket ≠ startTicket) :
      Followed s drift capacity world p (asked ++ [.start startTicket p])
        (w.handIn (.start startTicket p))
  /-- The engine does something, or someone else asks for something. -/
  | stirs {asked new : List Request} {w v : Watch σ}
      (before : Followed s drift capacity world p asked w) (going : w.ended = none)
      (next : Stirs s drift w new v) : Followed s drift capacity world p (asked ++ new) v
  /-- The follower reads from the channel. -/
  | reads {asked : List Request} {w v : Watch σ}
      (before : Followed s drift capacity world p asked w) (going : w.ended = none)
      (began : startTicket ∈ begun w.replies) (read : w.read? = some v) :
      Followed s drift capacity world p asked v
  /-- The follower interrupts the run. -/
  | interrupts {asked : List Request} {w v : Watch σ}
      (before : Followed s drift capacity world p asked w) (going : w.ended = none)
      (began : startTicket ∈ begun w.replies) (interrupt : w.interrupt? = some v) :
      Followed s drift capacity world p (asked ++ [.stop stopTicket]) v

variable {s : Surroundings σ} {drift : σ → σ → Prop} {capacity : Nat} {world : σ} {p : Program}
  {asked new : List Request} {w v : Watch σ}

/-! ## Answers -/

/-- The follower's requests to stop, among those that were handed in. -/
def stops (asked : List Request) : List Request := asked.filter fun r => r.ticket = stopTicket

/-- **What holds of the answers that the follower gets**, whatever comes about. -/
structure Kept (s : Surroundings σ) (drift : σ → σ → Prop) (world : σ) (asked : List Request)
    (w : Watch σ) : Prop where
  /-- The channel keeps something. -/
  capacity : 0 < w.channel.capacity
  /-- Everything that the engine published is on the channel. -/
  published : w.channel.published.toList = w.sim.published
  /-- Everything that it answered was received. -/
  replies : w.replies = (Engine.replies w.sim.effects).reverse
  /-- The engine is held. -/
  held : w.sim.held = true
  /-- The requests are in the books. -/
  dealings : ∃ signals, Dealings s drift { world } asked signals w.sim
  /-- The follower has asked for a stop exactly if it has interrupted the run. -/
  stops : Watch.stops asked = if w.interrupted then [.stop stopTicket] else []
  /-- The answer to a stop is the end for the follower, and it is told of no other stop. -/
  stopped : ∀ sweep, w.ended = some (.stopped sweep) ↔ (stopTicket, .stopped sweep) ∈ w.replies
  /-- Once it has interrupted the run, nothing else is the end for it. -/
  ended : w.interrupted = true → ∀ r, w.ended = some r → ∃ sweep, r = .stopped sweep

theorem mem_stops {r : Request} : r ∈ stops asked ↔ r ∈ asked ∧ r.ticket = stopTicket := by
  simp [stops]

theorem stops_append (asked new : List Request) : stops (asked ++ new) = stops asked ++ stops new :=
  List.filter_append ..

namespace Kept

theorem booked (h : Kept s drift world asked w) : ∃ signals, Booked asked signals w.sim := by
  obtain ⟨signals, hd⟩ := h.dealings
  exact ⟨signals, hd.booked (booked_start world)⟩

theorem sound (h : Kept s drift world asked w) : Sound w.sim := by
  obtain ⟨signals, hd⟩ := h.dealings
  exact hd.course.sound (sound_start world)

theorem mem_replies (h : Kept s drift world asked w) {a : Ticket × Reply} :
    a ∈ w.replies ↔ a ∈ Engine.replies w.sim.effects := by
  rw [h.replies, List.mem_reverse]

/-- **Nobody answers a stop that was not asked for**: what has the ticket of the follower's stop is
an answer to it. -/
theorem of_stopTicket (h : Kept s drift world asked w) {reply : Reply}
    (ha : (stopTicket, reply) ∈ w.replies) :
    w.interrupted = true ∧ (∃ sweep, reply = .stopped sweep)
      ∧ .stop stopTicket ∉ w.sim.pending := by
  obtain ⟨signals, hb⟩ := h.booked
  obtain ⟨r, before, hanswered, hr, hasked⟩ := hb.exists_request (h.mem_replies.mp ha)
  have hstops := h.stops
  have hmem : r ∈ Watch.stops before := mem_stops.mpr ⟨hr, ticket_of_answered hanswered⟩
  rw [hasked, stops_append] at hstops
  cases hinterrupted : w.interrupted with
  | false =>
    rw [hinterrupted] at hstops
    rw [(List.append_eq_nil_iff.mp hstops).1] at hmem
    exact absurd hmem List.not_mem_nil
  | true =>
    rw [hinterrupted, if_pos rfl] at hstops
    obtain ⟨hbefore, -⟩ | ⟨hbefore, hpending⟩ := List.append_eq_singleton_iff.mp hstops
    · rw [hbefore] at hmem
      exact absurd hmem List.not_mem_nil
    · rw [hbefore, List.mem_singleton] at hmem
      subst hmem
      refine ⟨rfl, ?_, fun hp => ?_⟩
      · cases hanswered with
        | stop t report => exact ⟨report, rfl⟩
      · have hstop : Request.stop stopTicket ∈ Watch.stops w.sim.pending := mem_stops.mpr ⟨hp, rfl⟩
        rw [hpending] at hstop
        exact absurd hstop List.not_mem_nil

end Kept

/-- **The answer to the follower's stop is the end for it**, and no other answer is. -/
theorem foldl_knowing {answers : List (Ticket × Reply)} (one : answers.length ≤ 1) (r : RunEnd) :
    answers.foldl knowing none = some r
      ↔ ∃ sweep, r = .stopped sweep ∧ (stopTicket, .stopped sweep) ∈ answers := by
  match answers, one with
  | [], _ => simp
  | [(ticket, reply)], _ =>
    cases reply with
    | stopped sweep =>
      by_cases own : ticket = stopTicket
      · simp [knowing, own, eq_comm]
      · simp [knowing, own, Ne.symm own]
    | _ => simp [knowing]

namespace Kept

theorem fresh : Kept s drift world [] (.fresh capacity world) where
  capacity := Nat.pos_of_isPowerOfTwo (Nat.isPowerOfTwo_nextPowerOfTwo _)
  published := rfl
  replies := rfl
  held := rfl
  dealings := ⟨[], .refl⟩
  stops := rfl
  stopped := fun _ => ⟨nofun, nofun⟩
  ended := nofun

/-- A request is handed in, perhaps by the follower in order to interrupt the run. -/
theorem handIn (h : Kept s drift world asked w) {r : Request} (interrupted : Bool)
    (stops : Watch.stops (asked ++ [r]) = if interrupted then [.stop stopTicket] else [])
    (ended : interrupted = true → ∀ r, w.ended = some r → ∃ sweep, r = .stopped sweep) :
    Kept s drift world (asked ++ [r]) { w.handIn r with interrupted } := by
  obtain ⟨heffects, hheld⟩ := submit_same w.sim r
  refine ⟨h.capacity, h.published.trans ?_, h.replies.trans ?_, hheld.trans h.held, ?_, stops,
    h.stopped, ended⟩
  · show events w.sim.effects = events (w.sim.submit r).effects
    rw [heffects]
  · show _ = (Engine.replies (w.sim.submit r).effects).reverse
    rw [heffects]
  · obtain ⟨signals, hd⟩ := h.dealings
    exact ⟨signals, hd.asks r (.inl h.held)⟩

/-- **The follower learns the end of a stop** from the answer to it. -/
theorem ended_after {y : Simulation σ} {es : List Effect} (going : w.ended = none)
    (heffects : y.effects = w.sim.effects ++ es) (one : (Engine.replies es).length ≤ 1)
    (r : RunEnd) :
    (w.after y).ended = some r
      ↔ ∃ sweep, r = .stopped sweep ∧ (stopTicket, .stopped sweep) ∈ Engine.replies es := by
  rw [(absorbed_after heffects).ended, show ({ w with sim := y } : Watch σ).ended = none from going]
  exact foldl_knowing one r

/-- Something happens to the engine. -/
theorem after (h : Kept s drift world asked w) (going : w.ended = none) {signal : Option Signal}
    {y : Simulation σ} (next : Happens s drift w.sim signal y)
    (unasked : signal = none → y.pending = w.sim.pending) (held : y.held = true) :
    Kept s drift world asked (w.after y) := by
  obtain ⟨es, heffects, hone⟩ := next.exists_effects
  have ha := absorbed_after heffects
  have hended := ended_after going heffects hone
  refine ⟨ha.capacity ▸ h.capacity, ?_, ?_, ?_, ?_, ?_, fun sweep => ?_, fun _ r hr => ?_⟩
  · rw [ha.published, ha.sim, Simulation.published, heffects, events_append]
    exact congrArg (· ++ events es) h.published
  · rw [ha.replies, ha.sim, heffects, replies_append, List.reverse_append]
    exact congrArg ((Engine.replies es).reverse ++ ·) h.replies
  · rw [ha.sim]
    exact held
  · obtain ⟨signals, hd⟩ := h.dealings
    rw [ha.sim]
    exact ⟨signals ++ signal.toList, hd.befalls next unasked⟩
  · rw [ha.interrupted]
    exact h.stops
  · -- the follower goes on, so that none of the earlier answers was one to its stop
    have hearlier : (stopTicket, .stopped sweep) ∉ w.replies := by
      rw [← h.stopped, going]
      exact (Option.some_ne_none _).symm
    rw [hended, ha.replies, List.mem_append, List.mem_reverse]
    constructor
    · rintro ⟨sweep', hsweep, hm⟩
      cases hsweep
      exact .inl hm
    · rintro (hm | hm)
      · exact ⟨sweep, rfl, hm⟩
      · exact absurd hm hearlier
  · obtain ⟨sweep, hsweep, -⟩ := (hended r).mp hr
    exact ⟨sweep, hsweep⟩

/-- Whatever happens while the follower does nothing. -/
theorem stirs (h : Kept s drift world asked w) (going : w.ended = none)
    (next : Stirs s drift w new v) : Kept s drift world (asked ++ new) v := by
  cases next with
  | happens next unasked held =>
    rw [List.append_nil]
    exact h.after going next unasked held
  | asks r other =>
    refine h.handIn w.interrupted ?_ h.ended
    rw [stops_append, h.stops]
    simp [Watch.stops, other.2]

end Kept

/-! ## Reading -/

/-- **What reading does**: the follower skips what the channel has forgotten, or it reads one event
and learns whether that is the end. -/
theorem read?_eq_some (read : w.read? = some v) :
    w.interrupted = false ∧ (w.seen < w.channel.oldest ∧ v = { w with seen := w.channel.oldest }
      ∨ ∃ e, w.channel.published[w.seen]? = some e ∧ v = { w with
          seen := w.seen + 1
          heard := (w.sim.clock, e) :: w.heard
          ended := RunEnd.ofEvent? e }) := by
  unfold read? Broadcast.receive at read
  split at read
  · cases read
  · rename_i uninterrupted
    refine ⟨Bool.eq_false_iff.mpr uninterrupted, ?_⟩
    by_cases behind : w.seen < w.channel.oldest
    · simp only [if_pos behind] at read
      exact .inl ⟨behind, (Option.some.inj read).symm⟩
    · simp only [if_neg behind] at read
      cases he : w.channel.published[w.seen]? with
      | none => simp [he] at read
      | some e =>
        simp only [he] at read
        exact .inr ⟨e, rfl, (Option.some.inj read).symm⟩

/-- Whoever reads gets further, and leaves the engine alone. -/
theorem further_of_read (read : w.read? = some v) :
    w.seen < v.seen ∧ v.sim = w.sim ∧ v.interrupted = false := by
  obtain ⟨uninterrupted, ⟨behind, rfl⟩ | ⟨e, -, rfl⟩⟩ := read?_eq_some read
  · exact ⟨behind, rfl, uninterrupted⟩
  · exact ⟨Nat.lt_succ_self _, rfl, uninterrupted⟩

/-- The follower reads. -/
theorem Kept.reads (h : Kept s drift world asked w) (going : w.ended = none)
    (read : w.read? = some v) : Kept s drift world asked v := by
  obtain ⟨uninterrupted, ⟨-, rfl⟩ | ⟨e, -, rfl⟩⟩ := read?_eq_some read
  · exact ⟨h.capacity, h.published, h.replies, h.held, h.dealings, h.stops, h.stopped, h.ended⟩
  · refine ⟨h.capacity, h.published, h.replies, h.held, h.dealings, h.stops, fun sweep => ?_,
      fun interrupted => ?_⟩
    · refine iff_of_false (RunEnd.ofEvent?_ne_stopped e sweep) ?_
      rw [← h.stopped, going]
      exact (Option.some_ne_none _).symm
    · rw [show w.interrupted = true from interrupted] at uninterrupted
      cases uninterrupted

/-- **Whatever comes about, the follower gets the answers it should.** -/
theorem Followed.kept (h : Followed s drift capacity world p asked w) :
    Kept s drift world asked w := by
  induction h with
  | fresh => exact .fresh
  | starts before once ih =>
    refine ih.handIn _ ?_ ih.ended
    rw [stops_append, ih.stops]
    exact List.append_nil _
  | stirs before going next ih => exact ih.stirs going next
  | reads before going began read ih => exact ih.reads going read
  | @interrupts asked w v before going began interrupt ih =>
    obtain ⟨uninterrupted, hv⟩ := Option.ite_none_left_eq_some.mp interrupt
    cases hv
    refine ih.handIn true ?_ fun _ r hr => ?_
    · rw [stops_append, ih.stops, if_neg uninterrupted]
      rfl
    · rw [going] at hr
      cases hr

/-- Handing in a request publishes nothing and begins no run. -/
theorem handIn_same (w : Watch σ) (r : Request) :
    (w.handIn r).sim.published = w.sim.published ∧ (w.handIn r).sim.runs = w.sim.runs := by
  have heffects : (w.handIn r).sim.effects = w.sim.effects := (submit_same w.sim r).1
  exact ⟨congrArg events heffects, congrArg (begun ∘ Engine.replies) heffects⟩

/-- What happens while the follower does nothing happens to the engine. -/
theorem Stirs.happened (next : Stirs s drift w new v) (held : w.sim.held = true) :
    ∃ signal, Happens s drift w.sim signal v.sim := by
  cases next with
  | @happens signal y next unasked _ =>
    obtain ⟨es, heffects, -⟩ := next.exists_effects
    refine ⟨signal, ?_⟩
    rw [(absorbed_after heffects).sim]
    exact next
  | asks r other => exact ⟨none, .asks r (.inl held)⟩

/-- Runs that have begun stay so. -/
theorem Stirs.runs_kept (next : Stirs s drift w new v) : w.sim.runs <+: v.sim.runs := by
  cases next with
  | happens next unasked held =>
    obtain ⟨es, heffects, -⟩ := next.exists_effects
    rw [(absorbed_after heffects).sim]
    exact next.runs_kept
  | asks r other => exact (handIn_same w r).2.symm ▸ List.prefix_refl _

/-- The follower has not moved meanwhile. -/
theorem Stirs.same (next : Stirs s drift w new v) :
    v.seen = w.seen ∧ v.interrupted = w.interrupted := by
  cases next with
  | happens next unasked held =>
    obtain ⟨es, heffects, -⟩ := next.exists_effects
    have ha := absorbed_after heffects
    exact ⟨ha.seen, ha.interrupted⟩
  | asks r other => exact ⟨rfl, rfl⟩

/-- **A follower that has not interrupted the run** learns nothing while it does nothing. -/
theorem Kept.going (h : Kept s drift world asked w) (going : w.ended = none)
    (uninterrupted : w.interrupted = false) (next : Stirs s drift w new v) : v.ended = none := by
  have hv := h.stirs going next
  have hsame := next.same.2
  cases next with
  | happens next unasked held =>
    obtain ⟨es, heffects, hone⟩ := next.exists_effects
    refine Option.eq_none_iff_forall_ne_some.mpr fun r hr => ?_
    obtain ⟨sweep, rfl, -⟩ := (ended_after going heffects hone r).mp hr
    obtain ⟨hinterrupted, -⟩ := hv.of_stopTicket ((hv.stopped sweep).mp hr)
    rw [hsame, uninterrupted] at hinterrupted
    cases hinterrupted
  | asks r other => exact going

/-! ## What was read -/

/-- **What holds of a follower that reads**, as long as a single run begins. -/
structure Reading (w : Watch σ) : Prop where
  /-- It has read or missed no more than was published. -/
  within : w.seen ≤ w.sim.published.length
  /-- While it goes on, nothing of that tells of an end. -/
  ongoing : w.ended = none → Ongoing (w.sim.published.take w.seen)
  /-- What it has learnt was published. -/
  told : ∀ r, w.ended = some r → ∃ e ∈ w.sim.published, RunEnd.ofEvent? e = some r

theorem Kept.oneRun (h : Kept s drift world asked w) (once : w.sim.runs.length ≤ 1) :
    OneRun w.sim.phase w.sim.runs w.sim.published := by
  obtain ⟨signals, hd⟩ := h.dealings
  exact hd.course.oneRun (.before rfl) once

/-- **Nothing that tells of an end was read or missed** while an uninterrupted follower goes on. -/
theorem Followed.reading (h : Followed s drift capacity world p asked w)
    (once : w.sim.runs.length ≤ 1) (uninterrupted : w.interrupted = false) : Reading w := by
  induction h with
  | fresh => exact ⟨Nat.le_refl 0, fun _ => ongoing_nil, nofun⟩
  | @starts asked w before fresh ih =>
    obtain ⟨hpublished, hruns⟩ := handIn_same w (.start startTicket p)
    rw [hruns] at once
    obtain ⟨within, ongoing, told⟩ := ih once uninterrupted
    rw [← hpublished] at within ongoing told
    exact ⟨within, ongoing, told⟩
  | @stirs asked new w v before going next ih =>
    obtain ⟨signal, happened⟩ := next.happened before.kept.held
    obtain ⟨hseen, hinterrupted⟩ := next.same
    rw [hinterrupted] at uninterrupted
    obtain ⟨within, ongoing, -⟩ :=
      ih (Nat.le_trans happened.runs_kept.length_le once) uninterrupted
    obtain ⟨es, hes⟩ := happened.published_kept
    refine ⟨?_, fun _ => ?_, fun r hr => ?_⟩
    · rw [hseen, ← hes, List.length_append]
      exact Nat.le_trans within (Nat.le_add_right _ _)
    · rw [hseen, ← hes, List.take_append_of_le_length within]
      exact ongoing going
    · rw [before.kept.going going uninterrupted next] at hr
      cases hr
  | @reads asked w v before going began read ih =>
    have hk := before.kept
    obtain ⟨-, ⟨behind, rfl⟩ | ⟨e, he, rfl⟩⟩ := read?_eq_some read
    · -- the newest event is kept, so that it is not among those that were missed
      have holdest : w.channel.oldest < w.sim.published.length := by
        have hcapacity := hk.capacity
        rw [← hk.published, Array.length_toList]
        rw [Broadcast.oldest] at behind ⊢
        omega
      refine ⟨Nat.le_of_lt holdest, fun _ => (hk.oneRun once).ongoing_take holdest, fun r hr => ?_⟩
      rw [show w.ended = some r from hr] at going
      cases going
    · rw [← Array.getElem?_toList, hk.published] at he
      obtain ⟨hlt, -⟩ := List.getElem?_eq_some_iff.mp he
      refine ⟨hlt, fun hnone => ?_, fun r hr => ⟨e, List.mem_of_getElem? he, hr⟩⟩
      show Ongoing (w.sim.published.take (w.seen + 1))
      rw [List.take_add_one, he]
      refine ((ih once uninterrupted).ongoing going).append (ongoing_singleton ?_)
      rw [← RunEnd.isSome_ofEvent?, show RunEnd.ofEvent? e = none from hnone]
      rfl
  | interrupts before going began interrupt ih =>
    obtain ⟨-, hv⟩ := Option.ite_none_left_eq_some.mp interrupt
    cases hv
    cases uninterrupted

/-! ## Learning how the run ended -/

/-- **What may come about while the follower does nothing**, if no other run is begun. -/
def Meanwhile (s : Surroundings σ) (drift : σ → σ → Prop) (w v : Watch σ) : Prop :=
  Relation.ReflTransGen (fun w v => ∃ new, Stirs s drift w new v) w v
    ∧ v.sim.runs = [startTicket]

/-- **An uninterrupted follower is going to return an end**, however slow it is: it has done so, or
there is something for it to read, and whatever comes about before it reads next, it is going to
return that end from there. -/
inductive Concludes (s : Surroundings σ) (drift : σ → σ → Prop) (r : RunEnd) : Watch σ → Prop where
  /-- It has returned. -/
  | here {w : Watch σ} (now : w.ended = some r) : Concludes s drift r w
  /-- It has yet to read. -/
  | ahead {w : Watch σ}
      (readable : ∀ {v}, Meanwhile s drift w v → v.ended = none ∧ ∃ u, v.read? = some u)
      (soon : ∀ {v u}, Meanwhile s drift w v → v.read? = some u → Concludes s drift r u) :
      Concludes s drift r w

/-- The follower has been told of every run that has begun. -/
theorem Kept.mem_runs (h : Kept s drift world asked w) {t : Ticket} :
    t ∈ w.sim.runs ↔ t ∈ begun w.replies := by
  rw [Simulation.runs, mem_begun, mem_begun, h.mem_replies]

/-- There is something to read for whoever has not read everything. -/
theorem exists_read (uninterrupted : w.interrupted = false)
    (lt : w.seen < w.channel.published.size) : ∃ v, w.read? = some v := by
  unfold read? Broadcast.receive
  rw [if_neg (Bool.eq_false_iff.mp uninterrupted)]
  by_cases behind : w.seen < w.channel.oldest
  · rw [if_pos behind]
    exact ⟨_, rfl⟩
  · rw [if_neg behind, Array.getElem?_eq_getElem lt]
    exact ⟨_, rfl⟩

/-- **After the end of the only run**, nothing is published while the follower does nothing. -/
theorem Followed.meanwhile (h : Followed s drift capacity world p asked w) (going : w.ended = none)
    (uninterrupted : w.interrupted = false) {e : Event} (he : e ∈ w.sim.published)
    (terminal : e.isTerminal = true)
    (chain : Relation.ReflTransGen (fun w v => ∃ new, Stirs s drift w new v) w v)
    (once : v.sim.runs.length ≤ 1) :
    (∃ asked', Followed s drift capacity world p asked' v) ∧ v.ended = none
      ∧ v.interrupted = false ∧ v.seen = w.seen ∧ v.sim.published = w.sim.published := by
  induction chain with
  | refl => exact ⟨⟨asked, h⟩, going, uninterrupted, rfl, rfl⟩
  | @tail u v chain next ih =>
    obtain ⟨new, next⟩ := next
    obtain ⟨⟨asked', hu⟩, hgoing, hinterrupted, hseen, hpublished⟩ :=
      ih (Nat.le_trans next.runs_kept.length_le once)
    obtain ⟨signal, happened⟩ := next.happened hu.kept.held
    rw [← hpublished] at he
    obtain ⟨-, hrests, hone⟩ :=
      (hu.kept.oneRun (Nat.le_trans next.runs_kept.length_le once)).concluded he terminal
    have hruns := happened.runs_eq (List.ne_nil_of_length_pos (hone ▸ Nat.one_pos)) once
    refine ⟨⟨_, hu.stirs hgoing next⟩, hu.kept.going hgoing hinterrupted next,
      next.same.2.trans hinterrupted, next.same.1.trans hseen,
      (happened.silent hrests hruns).2.trans hpublished⟩

/-- **A run that has published how it ended** is going to be reported to have ended so. -/
theorem Followed.concludes {r : RunEnd} {e : Event} (h : Followed s drift capacity world p asked w)
    (only : w.sim.runs = [startTicket]) (uninterrupted : w.interrupted = false)
    (he : e ∈ w.sim.published) (tells : RunEnd.ofEvent? e = some r) : Concludes s drift r w := by
  have terminal := RunEnd.isTerminal tells
  have once : ∀ {v : Watch σ}, v.sim.runs = [startTicket] → v.sim.runs.length ≤ 1 := by
    intro v honly
    rw [honly]
    exact Nat.le_refl 1
  generalize hleft : w.sim.published.length - w.seen = left
  induction left using Nat.strongRecOn generalizing w asked with
  | _ left ih =>
    have hreading := h.reading (once only) uninterrupted
    cases hended : w.ended with
    | some r' =>
      obtain ⟨e', he', tells'⟩ := hreading.told r' hended
      obtain ⟨hconcluded, -⟩ := (h.kept.oneRun (once only)).concluded he terminal
      obtain rfl := RunEnd.eq_of_concluded hconcluded he' tells' he tells
      exact .here hended
    | none =>
      -- what tells of the end has not been read yet
      have hunread : w.seen < w.sim.published.length := by
        by_contra hread
        have hall := hreading.ongoing hended
        rw [List.take_of_length_le (Nat.le_of_not_lt hread)] at hall
        rw [hall e he] at terminal
        cases terminal
      have keeps := fun {v} (meanwhile : Meanwhile s drift w v) =>
        h.meanwhile hended uninterrupted he terminal meanwhile.1 (once meanwhile.2)
      refine .ahead (fun {v} meanwhile => ?_) fun {v u} meanwhile read => ?_
      · obtain ⟨⟨asked', hv⟩, hgoing, hinterrupted, hseen, hpublished⟩ := keeps meanwhile
        refine ⟨hgoing, exists_read hinterrupted ?_⟩
        rw [hseen, ← Array.length_toList, hv.kept.published, hpublished]
        exact hunread
      · obtain ⟨⟨asked', hv⟩, hgoing, hinterrupted, hseen, hpublished⟩ := keeps meanwhile
        have hbegan : startTicket ∈ begun v.replies := by
          rw [← hv.kept.mem_runs, meanwhile.2]
          exact List.mem_singleton_self _
        have hu := hv.reads hgoing hbegan read
        obtain ⟨hfurther, hsim, huninterrupted⟩ := further_of_read read
        rw [← hsim] at hpublished
        refine ih _ ?_ hu (hsim ▸ meanwhile.2) huninterrupted (hpublished ▸ he) rfl
        rw [hpublished]
        omega

/-! ## Interrupting the run -/

/-- **What the follower's stop did to the run.** The engine took it in some state that it came to
after the run had begun. A run that was going on then was cancelled at once; nothing else has been
published since, and nothing runs any more. -/
def Halted (s : Surroundings σ) (drift : σ → σ → Prop) (world : σ) (z : Simulation σ) : Prop :=
  ∃ earlier x y later, Course s drift { world } earlier x ∧ startTicket ∈ x.runs
    ∧ Happens s drift x (some (.request (.stop stopTicket))) y ∧ Course s drift y later z
    ∧ z.published = x.published ++ (if x.phase.isActive then [.cancelled] else [])
    ∧ z.phase.isActive = false

/-- **The follower's stop is pending until it is taken**, and then the run is over. -/
theorem Kept.halted_or_pending {z : Simulation σ} {signal : Option Signal}
    (h : Kept s drift world asked w) (began : startTicket ∈ w.sim.runs)
    (next : Happens s drift w.sim signal z) (once : z.runs.length ≤ 1)
    (prior : .stop stopTicket ∈ w.sim.pending ∨ Halted s drift world w.sim) :
    .stop stopTicket ∈ z.pending ∨ Halted s drift world z := by
  rcases prior with hpending | ⟨earlier, x, y, later, hx, hbegan, taken, hlater, hpublished, hrests⟩
  · rcases next.takes_or_keeps hpending with hpending | rfl
    · exact .inl hpending
    · obtain ⟨signals, hd⟩ := h.dealings
      obtain ⟨hrests, hpublished⟩ := next.stops
      exact .inr ⟨signals, w.sim, z, [], hd.course, began, next, .refl, hpublished, hrests⟩
  · have hruns := next.runs_eq (List.ne_nil_of_mem began) once
    obtain ⟨hrests', hpublished'⟩ := next.silent hrests hruns
    exact .inr ⟨earlier, x, y, _, hx, hbegan, taken, hlater.snoc next, hpublished'.trans hpublished,
      hrests'⟩

/-- **Whoever has interrupted a run** has asked for a stop after the run had begun. -/
theorem Followed.interrupted (h : Followed s drift capacity world p asked w)
    (once : w.sim.runs.length ≤ 1) (interrupted : w.interrupted = true) :
    startTicket ∈ w.sim.runs
      ∧ (.stop stopTicket ∈ w.sim.pending ∨ Halted s drift world w.sim) := by
  induction h with
  | fresh => cases interrupted
  | @starts asked w before fresh ih =>
    have next : Happens s drift w.sim none (w.handIn (.start startTicket p)).sim :=
      .asks _ (.inl before.kept.held)
    obtain ⟨hbegan, hprior⟩ := ih (Nat.le_trans next.runs_kept.length_le once) interrupted
    exact ⟨next.runs_kept.subset hbegan, before.kept.halted_or_pending hbegan next once hprior⟩
  | @stirs asked new w v before going next ih =>
    rw [next.same.2] at interrupted
    obtain ⟨signal, next⟩ := next.happened before.kept.held
    obtain ⟨hbegan, hprior⟩ := ih (Nat.le_trans next.runs_kept.length_le once) interrupted
    exact ⟨next.runs_kept.subset hbegan, before.kept.halted_or_pending hbegan next once hprior⟩
  | reads before going began read ih =>
    rw [(further_of_read read).2.2] at interrupted
    cases interrupted
  | @interrupts asked w v before going began interrupt ih =>
    obtain ⟨-, hv⟩ := Option.ite_none_left_eq_some.mp interrupt
    cases hv
    refine ⟨?_, .inl ?_⟩
    · rw [← before.kept.mem_runs] at began
      exact (handIn_same w _).2 ▸ began
    · show Request.stop stopTicket ∈ (w.sim.submit (.stop stopTicket)).pending
      rw [pending_submit]
      exact List.mem_append_right _ (List.mem_singleton_self _)

/-- **The follower's stop is going to be answered** by a report, whatever happens. -/
theorem Kept.inevitable (h : Kept s drift world asked w) (within : s.DrawsWithin)
    (interrupted : w.interrupted = true) :
    Inevitable s drift (fun y => ∃ sweep, (stopTicket, .stopped sweep) ∈ Engine.replies y.effects)
      w.sim := by
  obtain ⟨signals, hd⟩ := h.dealings
  have hb := hd.booked (booked_start world)
  have hstop : Request.stop stopTicket ∈ asked := by
    refine (mem_stops.mp ?_).1
    rw [h.stops, interrupted]
    exact List.mem_singleton_self _
  -- other requests may be handed in meanwhile, but behind those that there are
  have closed : ∀ {v signal u},
      (∃ asked' signals', asked <+: asked' ∧ Dealings s drift { world } asked' signals' v) →
      Happens s drift v signal u →
      ∃ asked' signals', asked <+: asked' ∧ Dealings s drift { world } asked' signals' u := by
    rintro v signal u ⟨asked', signals', hbehind, hd'⟩ next
    obtain ⟨asked'', hbehind', hd''⟩ := hd'.snoc next
    exact ⟨asked'', _, hbehind.trans hbehind', hd''⟩
  refine (inevitable_of_sound within h.sound (Nat.le_of_eq hb.answerCount_eq.symm)).bind
    ⟨asked, signals, List.prefix_refl _, hd⟩ closed ?_
  rintro v ⟨asked', signals', hbehind, hd'⟩ hgiven
  obtain ⟨⟨ticket, reply⟩, ha, hanswered⟩ :=
    (hd'.booked (booked_start world)).exists_answer hbehind hgiven hstop
  cases hanswered with
  | stop t report => exact .here ⟨report, ha⟩

/-! ## Every end is reported -/

/-- **What a follower makes of a run**: what holds of whatever can come about when a program is
started and followed, if no other run is begun. -/
structure Reports (s : Surroundings σ) (drift : σ → σ → Prop) (world : σ) (w : Watch σ) :
    Prop where
  /-- The end that an uninterrupted follower returns is the one that the run has published. -/
  fits : w.interrupted = false → ∀ r, w.ended = some r → r.Fits w.sim.published
  /-- Once the run has published how it ended, an uninterrupted follower returns that end. -/
  concludes : w.interrupted = false → ∀ e ∈ w.sim.published, ∀ r, RunEnd.ofEvent? e = some r →
    Concludes s drift r w
  /-- A follower that has interrupted the run returns when its stop is answered, and what it returns
  is the report of that stop. -/
  stopped : w.interrupted = true → ∀ r, w.ended = some r
    ↔ ∃ sweep, r = .stopped sweep ∧ (stopTicket, .stopped sweep) ∈ Engine.replies w.sim.effects
  /-- By then the stop has put an end to the run, which is cancelled unless it was over. -/
  halted : w.interrupted = true → ∀ r, w.ended = some r → Halted s drift world w.sim
  /-- The stop is going to be answered. -/
  answered : w.interrupted = true →
    Inevitable s drift (fun y => ∃ sweep, (stopTicket, .stopped sweep) ∈ Engine.replies y.effects)
      w.sim

/-- **No end is misreported.** -/
theorem Followed.reports (h : Followed s drift capacity world p asked w) (within : s.DrawsWithin)
    (only : w.sim.runs = [startTicket]) : Reports s drift world w := by
  have hk := h.kept
  have once : w.sim.runs.length ≤ 1 := by
    rw [only]
    exact Nat.le_refl 1
  refine ⟨fun uninterrupted r hr => ?_, fun uninterrupted e he r tells => ?_,
    fun interrupted r => ?_, fun interrupted r hr => ?_, hk.inevitable within⟩
  · obtain ⟨e, he, tells⟩ := (h.reading once uninterrupted).told r hr
    exact RunEnd.fits_of_mem ((hk.oneRun once).concluded he (RunEnd.isTerminal tells)).1 he tells
  · exact h.concludes only uninterrupted he tells
  · constructor
    · intro hr
      obtain ⟨sweep, rfl⟩ := hk.ended interrupted r hr
      exact ⟨sweep, rfl, hk.mem_replies.mp ((hk.stopped sweep).mp hr)⟩
    · rintro ⟨sweep, rfl, ha⟩
      exact (hk.stopped sweep).mpr (hk.mem_replies.mpr ha)
  · obtain ⟨sweep, rfl⟩ := hk.ended interrupted r hr
    obtain ⟨-, -, htaken⟩ := hk.of_stopTicket ((hk.stopped sweep).mp hr)
    exact (h.interrupted once interrupted).2.resolve_left htaken

end Watch

end Switchboard.Console
