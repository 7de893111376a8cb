import Switchboard.Proofs.Requests
import Switchboard.Proofs.Transcript

/-!
# A refused start has no effect

A start that is refused, because a program runs or because its own has no steps, waits in the
queue for a while, is taken at some moment, and is answered. Wherever that moment is, in the
middle of a countdown, while a command is on its way, between two steps or while nothing runs,
nothing else comes of it. To say so takes two histories: one with the start and one without.

A history is a list of `Move`s, each of which says what happens next and leaves nothing open.
What it leads to can therefore be computed (`play`), and the histories are the courses that an
engine can take (`exists_play_iff`). Taking a start out of a history means to take out the
moves in which it is handed in and taken. What the rest of the history leads to differs
from what the history itself leads to in nothing but the start (`SameBut`), at each point.

This calls for somebody who holds on to the engine throughout, since otherwise the caller of the
start might be the last one to do so. And the queue must never be full, since otherwise the start
might make others wait in line.
-/

namespace Switchboard.Engine

variable {σ : Type}

/-! ## Moves -/

/-- **Something that happens next**, with everything that is left open. -/
inductive Move (σ : Type) where
  /-- The command on its way takes effect and is answered. -/
  | lands
  /-- A second of a wait is over. -/
  | rings
  /-- The length of a random wait is drawn. -/
  | draws
  /-- The engine takes the oldest request in the queue, which is this one. -/
  | takes (r : Request)
  /-- The engine finds the queue empty between two steps. -/
  | goesOn
  /-- The engine finds that nobody holds on to it any more. -/
  | abandons
  /-- The engine pauses. -/
  | pauses
  /-- Someone who holds on to the engine hands in a request. -/
  | asks (r : Request)
  /-- The last one who holds on to the engine without a request lets go. -/
  | letsGo
  /-- Time passes until an instant. -/
  | passes (instant : Nat)
  /-- The surroundings change by themselves. -/
  | drifts (change : σ → σ)

/-- The move that a signal stands for. -/
def Signal.move : Signal → Move σ
  | .answered _ => .lands
  | .tick => .rings
  | .drawn _ => .draws
  | .request r => .takes r
  | .quiet => .goesOn
  | .abandoned => .abandons

/-- Whether the engine takes notice of a move. -/
def Move.isNoticed : Move σ → Bool
  | .lands | .rings | .draws | .takes _ | .goesOn | .abandons => true
  | .pauses | .asks _ | .letsGo | .passes _ | .drifts _ => false

/-- Whether a move hands in or takes a request with a ticket. -/
def Move.isFor (t : Ticket) : Move σ → Bool
  | .takes r => r.ticket = t
  | .asks r => r.ticket = t
  | _ => false

/-- Whether an effect answers a request with a ticket. -/
def Effect.isFor (t : Ticket) : Effect → Bool
  | .answer ticket _ => ticket = t
  | _ => false

/-! ## Steps and the requests with a ticket -/

section

variable {panel : Panel} {phase next : Phase} {signal : Signal} {effects : List Effect}
  {t : Ticket} {p : Program}

theorem mem_replies {reply : Reply} : (t, reply) ∈ replies effects ↔ .answer t reply ∈ effects := by
  rw [replies, List.mem_filterMap]
  constructor
  · rintro ⟨e, he, hreply⟩
    cases e with
    | answer ticket reply =>
      obtain ⟨rfl, rfl⟩ := Prod.mk.inj (Option.some.inj hreply)
      exact he
    | _ => cases hreply
  · exact fun he => ⟨_, he, rfl⟩

/-- **A ticket is answered only when its request is taken**, or when it is owed an answer. -/
theorem Transition.isFor_eq_false (ht : Transition panel phase signal next effects)
    (owed : phase.owed ≠ some t) (other : ∀ r, signal = .request r → r.ticket ≠ t) :
    ∀ e ∈ effects, e.isFor t = false := by
  have unanswered : ∀ reply, (t, reply) ∉ replies effects := by
    intro reply hreply
    cases ht.handles with
    | start free next_free answers =>
      rw [answers, List.mem_singleton] at hreply
      exact other _ rfl (Prod.mk.inj hreply).1.symm
    | stop free owes silent =>
      rw [silent] at hreply
      cases hreply
    | report owes =>
      obtain ⟨rfl, -⟩ := Prod.mk.inj (List.mem_singleton.mp hreply)
      exact owed owes
    | aside untaken same silent closes =>
      rw [silent] at hreply
      cases hreply
  intro e he
  cases e with
  | answer ticket reply =>
    refine decide_eq_false fun heq => unanswered reply ?_
    rw [← heq]
    exact mem_replies.mpr he
  | _ => rfl

/-- **A start that is refused leaves the machine where it is.** -/
theorem Transition.of_refused
    (ht : Transition panel phase (.request (.start t p)) next effects)
    (refused : ∀ reply, .answer t reply ∈ effects →
      reply = .alreadyRunning ∨ reply = .emptyProgram) :
    next = phase ∧ ∃ reply, effects = [.answer t reply] := by
  cases ht with
  | declines none => exact ⟨rfl, _, rfl⟩
  | refuses listens => exact ⟨rfl, _, rfl⟩
  | cuts ends => cases ends
  | haltsWaiting ends => cases ends
  | haltsBetween ends => cases ends
  | starts ne goes =>
    have hp := Run.proceeds panel ⟨p, .start p.steps⟩
      (show Alternate false [.answer t .started] from ⟨rfl, trivial⟩) rfl
    rw [goes] at hp
    have hstarted : .answer t .started ∈ effects := by
      rw [← mem_replies, hp.replies]
      exact List.mem_singleton_self _
    rcases refused _ hstarted with h | h <;> cases h

end

namespace Simulation

variable {s : Surroundings σ} {x x' y z : Simulation σ} {t : Ticket}

/-- The length of a random wait is drawn, if one begins. -/
def draw? (s : Surroundings σ) (x : Simulation σ) : Option (Simulation σ) :=
  match x.phase with
  | .drawing _ lo hi =>
    feed s { x with world := (s.draw lo hi x.world).2 } (.drawn (s.draw lo hi x.world).1)
  | _ => none

/-- **Makes a move**, if it is possible. -/
def move? (s : Surroundings σ) (x : Simulation σ) : Move σ → Option (Simulation σ)
  | .lands => land? s x
  | .rings => ring? s x
  | .draws => draw? s x
  | .takes r => if x.queue.head? = some r then take? s x else none
  | .goesOn => if x.queue.isEmpty && !x.isAbandoned then feed s x .quiet else none
  | .abandons => if x.isAbandoned then feed s x .abandoned else none
  | .pauses => some x.pause
  | .asks r => if x.held || x.lingering then some (x.submit r) else none
  | .letsGo => some x.release
  | .passes instant => if x.clock ≤ instant then some { x with clock := instant } else none
  | .drifts change => some { x with world := change x.world }

/-- **Plays a history**: makes one move after the other, if each is possible. -/
def play (s : Surroundings σ) (x : Simulation σ) (moves : List (Move σ)) :
    Option (Simulation σ) :=
  moves.foldlM (move? s) x

theorem draw?_eq_some_iff :
    draw? s x = some y ↔ ∃ run lo hi, x.phase = .drawing run lo hi
      ∧ feed s { x with world := (s.draw lo hi x.world).2 } (.drawn (s.draw lo hi x.world).1)
        = some y := by
  unfold draw?
  constructor
  · intro h
    split at h
    · rename_i run lo hi phase
      exact ⟨run, lo, hi, phase, h⟩
    · cases h
  · rintro ⟨run, lo, hi, phase, fed⟩
    split
    · rename_i phase'
      rw [phase] at phase'
      cases phase'
      exact fed
    · rename_i other
      exact absurd phase (other run lo hi)

/-- **A move that the engine takes notice of** gives it the signal that the move stands for. -/
theorem offers_of_move? {m : Move σ} (hm : move? s x m = some y) (noticed : m.isNoticed = true) :
    ∃ signal v, m = signal.move ∧ Offers s x signal v ∧ feed s v signal = some y := by
  cases m with
  | lands =>
    obtain ⟨c, way, due, fed⟩ := land?_eq_some_iff.mp hm
    exact ⟨_, _, rfl, .answered way due, fed⟩
  | rings =>
    obtain ⟨instant, timer, due, fed⟩ := ring?_eq_some_iff.mp hm
    exact ⟨_, _, rfl, .tick timer due, fed⟩
  | draws =>
    obtain ⟨run, lo, hi, phase, fed⟩ := draw?_eq_some_iff.mp hm
    exact ⟨_, _, rfl, .drawn phase, fed⟩
  | takes r =>
    obtain ⟨head, took⟩ := Option.ite_none_right_eq_some.mp hm
    obtain ⟨q, rest, hqueue, fed⟩ := take?_eq_some_iff.mp took
    obtain rfl : q = r := by
      rw [hqueue] at head
      exact Option.some.inj head
    exact ⟨_, _, rfl, .request hqueue, fed⟩
  | goesOn =>
    obtain ⟨hquiet, fed⟩ := Option.ite_none_right_eq_some.mp hm
    rw [Bool.and_eq_true, List.isEmpty_iff, Bool.not_eq_true'] at hquiet
    exact ⟨_, _, rfl, .quiet hquiet.1 hquiet.2, fed⟩
  | abandons =>
    obtain ⟨alone, fed⟩ := Option.ite_none_right_eq_some.mp hm
    exact ⟨_, _, rfl, .abandoned alone, fed⟩
  | _ => cases noticed

/-- **A signal that the engine is given** is a move. -/
theorem Offers.move?_eq {signal : Signal} {v : Simulation σ} (h : Offers s x signal v)
    (fed : feed s v signal = some y) : move? s x signal.move = some y := by
  cases h with
  | answered way due => exact land?_eq_some_iff.mpr ⟨_, way, due, fed⟩
  | tick timer due => exact ring?_eq_some_iff.mpr ⟨_, timer, due, fed⟩
  | drawn phase => exact draw?_eq_some_iff.mpr ⟨_, _, _, phase, fed⟩
  | request head =>
    exact Option.ite_none_right_eq_some.mpr
      ⟨by rw [head]; rfl, take?_eq_some_iff.mpr ⟨_, _, head, fed⟩⟩
  | quiet empty held =>
    exact Option.ite_none_right_eq_some.mpr ⟨by rw [empty, held]; rfl, fed⟩
  | abandoned alone => exact Option.ite_none_right_eq_some.mpr ⟨alone, fed⟩

/-- What a move leads to happens. -/
theorem happens_of_move? {m : Move σ} (hm : move? s x m = some y) :
    ∃ signal, Happens s (fun _ _ => True) x signal y := by
  cases m with
  | pauses =>
    obtain rfl := Option.some.inj hm
    exact ⟨none, .pauses⟩
  | asks r =>
    obtain ⟨may, hy⟩ := Option.ite_none_right_eq_some.mp hm
    obtain rfl := Option.some.inj hy
    exact ⟨none, .asks r (Bool.or_eq_true _ _ ▸ may)⟩
  | letsGo =>
    obtain rfl := Option.some.inj hm
    exact ⟨none, .letsGo⟩
  | passes instant =>
    obtain ⟨le, hy⟩ := Option.ite_none_right_eq_some.mp hm
    obtain rfl := Option.some.inj hy
    exact ⟨none, .passes instant le⟩
  | drifts change =>
    obtain rfl := Option.some.inj hm
    exact ⟨none, .drifts _ trivial⟩
  | _ =>
    obtain ⟨signal, v, -, offers, fed⟩ := offers_of_move? hm rfl
    exact ⟨signal, offers.happens fed⟩

/-- Whatever happens is a move. -/
theorem Happens.exists_move? {drift : σ → σ → Prop} {signal : Option Signal}
    (h : Happens s drift x signal y) : ∃ m, move? s x m = some y := by
  cases signal with
  | some signal =>
    obtain ⟨v, offers, fed⟩ := h.fed
    exact ⟨signal.move, offers.move?_eq fed⟩
  | none =>
    cases h with
    | pauses => exact ⟨.pauses, rfl⟩
    | asks r may =>
      exact ⟨.asks r, Option.ite_none_right_eq_some.mpr ⟨by rw [Bool.or_eq_true]; exact may, rfl⟩⟩
    | letsGo => exact ⟨.letsGo, rfl⟩
    | passes instant le => exact ⟨.passes instant, if_pos le⟩
    | drifts world may => exact ⟨.drifts fun _ => world, rfl⟩

theorem play_append (s : Surroundings σ) (x : Simulation σ) (first second : List (Move σ)) :
    play s x (first ++ second) = (play s x first).bind fun y => play s y second :=
  List.foldlM_append

/-- **The histories that can be played are the courses that an engine can take.** -/
theorem exists_play_iff :
    (∃ moves, play s x moves = some z) ↔ ∃ signals, Course s (fun _ _ => True) x signals z := by
  constructor
  · rintro ⟨moves, h⟩
    induction moves generalizing x with
    | nil =>
      obtain rfl := Option.some.inj h
      exact ⟨[], .refl⟩
    | cons m moves ih =>
      obtain ⟨y, hm, hrest⟩ := Option.bind_eq_some_iff.mp h
      obtain ⟨signal, next⟩ := happens_of_move? hm
      obtain ⟨signals, course⟩ := ih hrest
      exact ⟨_, next.course.trans course⟩
  · rintro ⟨signals, h⟩
    induction h with
    | refl => exact ⟨[], rfl⟩
    | @snoc signals signal y z before next ih =>
      obtain ⟨moves, hmoves⟩ := ih
      obtain ⟨m, hm⟩ := next.exists_move?
      refine ⟨moves ++ [m], ?_⟩
      rw [play_append, hmoves]
      show (move? s y m).bind some = _
      rw [hm]
      rfl

/-! ## The same engine without a request -/

/-- What was done stays done. -/
theorem effects_of_play {moves : List (Move σ)} (h : play s x moves = some z) :
    x.effects <+: z.effects := by
  obtain ⟨signals, course⟩ := exists_play_iff.mp ⟨moves, h⟩
  exact course.effects_kept

/-- A request finds room in a queue that is not full. -/
theorem submit_of_room {r : Request} (line : x.line = []) (room : x.queue.length < queueLength) :
    x.submit r = { x with queue := x.queue ++ [r] } :=
  if_pos ⟨List.isEmpty_iff.mpr line, room⟩

/-- Where few requests wait, the last one has found room. -/
theorem room_of_few {r : Request} (few : (x.submit r).pending.length ≤ queueLength) :
    x.queue.length < queueLength := by
  rw [pending_submit, List.length_append, pending, List.length_append] at few
  exact Nat.lt_of_lt_of_le (Nat.lt_succ_of_le (Nat.le_add_right _ _)) few

/-- **What is known of a ticket** that only starts have, of an engine whose queue was never
full. -/
structure OnlyStarts (t : Ticket) (x : Simulation σ) : Prop where
  /-- A request with the ticket is a start. -/
  start : ∀ r ∈ x.pending, r.ticket = t → ∃ p, r = .start t p
  /-- No answer is owed to the ticket. -/
  owed : x.phase.owed ≠ some t
  /-- Nobody is in line. -/
  line : x.line = []
  /-- Seconds are counted only while the engine waits. -/
  timer : (∀ run n, x.phase ≠ .waiting run n) → x.timer = none
  /-- Somebody holds on to the engine. -/
  held : x.held = true

theorem onlyStarts_start (t : Ticket) (world : σ) : OnlyStarts t { world } :=
  ⟨nofun, nofun, rfl, fun _ => rfl, rfl⟩

/-- After a signal nobody is in line who was not before, and no seconds are counted but of a
wait. -/
theorem settled_of_feed {signal : Signal} (line : x.line = [])
    (fed : feed s x signal = some y) :
    y.line = [] ∧ ((∀ run n, y.phase ≠ .waiting run n) → y.timer = none) := by
  unfold feed at fed
  cases hs : step s.panel x.phase signal with
  | none => simp [hs] at fed
  | some next =>
    obtain ⟨phase, es⟩ := next
    have hp := performed s { x with phase } es
    simp only [hs, Option.some.injEq] at fed
    generalize es.foldl (perform s) { x with phase } = v at fed hp
    have hline : v.line = [] := hp.line.trans line
    have hphase : v.phase = phase := hp.phase
    subst fed
    split
    · refine ⟨?_, fun other => timer_of_not_waiting _ _ (hphase ▸ other)⟩
      show v.line.drop _ = []
      rw [hline, List.drop_nil]
    · exact ⟨hline, fun other => timer_of_not_waiting _ _ (hphase ▸ other)⟩

/-- **A signal keeps what is known of the ticket.** -/
theorem OnlyStarts.fed (h : OnlyStarts t x) {signal : Signal} {v : Simulation σ}
    (offers : Offers s x signal v) (fed : feed s v signal = some y) : OnlyStarts t y := by
  obtain ⟨hpending, hheld, -, -⟩ := keeps_of_feed fed
  obtain ⟨es, hf⟩ := fed_of_feed fed
  have hphase := offers.same.1
  obtain ⟨hkept, hline, hheld', -, -⟩ := offers.requests
  obtain ⟨line, timer⟩ := settled_of_feed (hline.trans h.line) fed
  refine ⟨fun r hr => h.start r ?_, ?_, line, timer, ?_⟩
  · rw [hkept, ← hpending]
    exact List.mem_append_right _ hr
  · have handles := (transition_of_step hf.step).handles
    have howed : v.phase.owed ≠ some t := hphase ▸ h.owed
    generalize y.phase = next at handles ⊢
    cases handles with
    | start free next_free answers => simp [next_free.1]
    | @stop t' next effects free owes silent =>
      rw [owes.1]
      intro hticket
      obtain rfl := Option.some.inj hticket
      -- a stop with the ticket would have been waiting
      cases offers with
      | request head =>
        have hmem : Request.stop t' ∈ x.pending := by
          rw [pending, head]
          exact List.mem_cons_self
        obtain ⟨p, hp⟩ := h.start _ hmem rfl
        cases hp
    | report owed => simp [Phase.owed]
    | aside untaken same silent closes =>
      rw [same]
      exact howed
  · rw [hheld, hheld', h.held]

/-- **A move keeps what is known of the ticket**, if the queue is not full and no other request
with the ticket is handed in. -/
theorem OnlyStarts.move (h : OnlyStarts t x) {m : Move σ} (hm : move? s x m = some y)
    (held : y.held = true) (few : y.pending.length ≤ queueLength)
    (start : ∀ r, m = .asks r → r.ticket = t → ∃ p, r = .start t p) : OnlyStarts t y := by
  cases m with
  | pauses =>
    obtain rfl := Option.some.inj hm
    refine { h with start := ?_, line := ?_ }
    · rw [pending_pause]
      exact h.start
    · show x.line.drop _ = []
      rw [h.line, List.drop_nil]
  | asks r =>
    obtain ⟨-, hy⟩ := Option.ite_none_right_eq_some.mp hm
    obtain rfl := Option.some.inj hy
    have hpending := pending_submit x r
    rw [submit_of_room h.line (room_of_few few)] at hpending ⊢
    refine { h with start := ?_ }
    rw [hpending]
    intro q hq
    rcases List.mem_append.mp hq with hq | hq
    · exact h.start q hq
    · rw [List.mem_singleton.mp hq]
      exact start r rfl
  | letsGo =>
    obtain rfl := Option.some.inj hm
    cases held
  | passes instant =>
    obtain ⟨-, hy⟩ := Option.ite_none_right_eq_some.mp hm
    obtain rfl := Option.some.inj hy
    exact { h with }
  | drifts change =>
    obtain rfl := Option.some.inj hm
    exact { h with }
  | _ =>
    obtain ⟨signal, v, -, offers, fed⟩ := offers_of_move? hm rfl
    exact h.fed offers fed

/-- **Two engines are the same but for the requests with a ticket**: in the second one they do
not wait in the queue, and have not been answered. Whether an answered caller still holds
on to the engine may differ. -/
structure SameBut (t : Ticket) (x x' : Simulation σ) : Prop where
  /-- The surroundings are in the same state. -/
  world : x'.world = x.world
  /-- It is the same time. -/
  clock : x'.clock = x.clock
  /-- The engine does the same. -/
  phase : x'.phase = x.phase
  /-- The same status is shown. -/
  status : x'.status = x.status
  /-- As many commands were sent. -/
  calls : x'.calls = x.calls
  /-- The same command is on its way. -/
  call : x'.call = x.call
  /-- The next second of a wait is over at the same instant. -/
  timer : x'.timer = x.timer
  /-- The other requests wait in the same order. -/
  queue : x'.queue = x.queue.filter fun r => r.ticket ≠ t
  /-- The queue is as full or less so. -/
  line : x'.line = x.line
  /-- The engine is held by somebody. -/
  held : x'.held = x.held
  /-- Everything else was done at the same instants. -/
  trace : x'.trace = x.trace.filter fun e => !e.2.isFor t

namespace SameBut

theorem refl (world : σ) : SameBut t ({ world } : Simulation σ) { world } := by
  constructor <;> rfl

/-- A request with the ticket that is handed in is all that differs. -/
theorem asked (h : SameBut t x x') {r : Request} (room : x.queue.length < queueLength)
    (free : x.line = []) (hr : r.ticket = t) : SameBut t (x.submit r) x' := by
  rw [submit_of_room free room]
  refine { h with queue := ?_ }
  rw [List.filter_append, List.filter_singleton, h.queue]
  simp [hr]

theorem perform (h : SameBut t x x') {e : Effect} (other : e.isFor t = false) :
    SameBut t (perform s x e) (perform s x' e) := by
  have noted : SameBut t { x with trace := (x.clock, e) :: x.trace }
      { x' with trace := (x'.clock, e) :: x'.trace } := by
    refine { h with trace := ?_ }
    rw [List.filter_cons_of_pos (by rw [other]; rfl), h.clock, h.trace]
  cases e with
  | status shown => exact { noted with status := rfl }
  | event e => exact noted
  | answer ticket reply => exact { noted with }
  | command output power =>
    refine { noted with calls := congrArg (· + 1) h.calls, call := ?_ }
    show some (Call.mk (x'.calls + 1) output power (x'.clock + s.latency)) = _
    rw [h.calls, h.clock]
    rfl
  | record output power =>
    refine { noted with world := ?_ }
    show s.record x'.clock output power x'.world = _
    rw [h.clock, h.world]
    rfl
  | countdown =>
    refine { noted with timer := ?_ }
    show some (x'.clock + s.tickPeriod) = _
    rw [h.clock]
    rfl

theorem foldl_perform (h : SameBut t x x') {es : List Effect}
    (others : ∀ e ∈ es, e.isFor t = false) :
    SameBut t (es.foldl (Simulation.perform s) x) (es.foldl (Simulation.perform s) x') := by
  induction es generalizing x x' with
  | nil => exact h
  | cons e es ih =>
    rw [List.forall_mem_cons] at others
    exact ih (h.perform others.1) others.2

theorem pause (h : SameBut t x x') (free : x.line = []) : SameBut t x.pause x'.pause := by
  -- nobody is in line who could move up
  have still {v : Simulation σ} (hv : v.line = []) : v.pause = { v with lingering := false } := by
    simp [Simulation.pause, hv]
  rw [still free, still (h.line.trans free)]
  exact { h with }

/-- What is left to do after the effects of a step is the same in both. -/
theorem settle (h : SameBut t x x') (free : x.line = []) (counts pauses : Bool) :
    SameBut t
      (if pauses then Simulation.pause { x with timer := if counts then x.timer else none }
        else { x with timer := if counts then x.timer else none })
      (if pauses then Simulation.pause { x' with timer := if counts then x'.timer else none }
        else { x' with timer := if counts then x'.timer else none }) := by
  have htimer : SameBut t { x with timer := if counts then x.timer else none }
      { x' with timer := if counts then x'.timer else none } :=
    { h with timer := by rw [h.timer] }
  cases pauses with
  | false => exact htimer
  | true => exact htimer.pause free

/-- **A signal does the same in both**, unless it brings a request with the ticket an
answer. -/
theorem feed (h : SameBut t x x') {signal : Signal} (free : x.line = [])
    (others : ∀ next es, step s.panel x.phase signal = some (next, es) →
      ∀ e ∈ es, e.isFor t = false)
    (fed : feed s x signal = some y) :
    ∃ y', Simulation.feed s x' signal = some y' ∧ SameBut t y y' := by
  unfold Simulation.feed at fed ⊢
  rw [h.phase]
  cases hs : step s.panel x.phase signal with
  | none => simp [hs] at fed
  | some next =>
    obtain ⟨phase, es⟩ := next
    simp only [hs, Option.some.injEq] at fed ⊢
    have hphase : SameBut t { x with phase } { x' with phase } := { h with phase := rfl }
    have hp := hphase.foldl_perform (s := s) (others phase es hs)
    have hline : (es.foldl (Simulation.perform s) { x with phase }).line = [] :=
      (performed s { x with phase } es).line.trans free
    generalize es.foldl (Simulation.perform s) { x with phase } = v at fed hp hline
    generalize es.foldl (Simulation.perform s) { x' with phase } = v' at hp ⊢
    subst fed
    exact ⟨_, rfl, hp.settle hline _ _⟩

/-- **A start that is refused changes nothing** but that it has been answered. -/
theorem refused (h : SameBut t x x') {p : Program} {rest : List Request}
    (head : x.queue = .start t p :: rest)
    (timer : (∀ run n, x.phase ≠ .waiting run n) → x.timer = none)
    (fed : Simulation.feed s { x with queue := rest } (.request (.start t p)) = some y)
    (refused : ∀ reply, .answer t reply ∈ y.effects →
      reply = .alreadyRunning ∨ reply = .emptyProgram) : SameBut t y x' := by
  obtain ⟨es, hf⟩ := fed_of_feed fed
  obtain ⟨hphase, reply, rfl⟩ := (transition_of_step hf.step).of_refused fun reply he =>
    refused reply (hf.effects ▸ List.mem_append_right _ he)
  have hs := hf.step
  rw [hphase] at hs
  unfold Simulation.feed at fed
  simp only [hs, Option.some.injEq] at fed
  -- the engine does not pause, and the clock of a wait goes on
  have hpauses : pausesAt x.phase (.request (.start t p)) x.phase = false := by
    unfold pausesAt
    cases x.phase <;> rfl
  have hqueue : x'.queue = rest.filter fun r => r.ticket ≠ t := by
    rw [h.queue, head, List.filter_cons_of_neg (by simp [Request.ticket])]
  subst fed
  rw [hpauses]
  refine { h with
    queue := hqueue, timer := h.timer.trans (timer_of_stopped _ _ timer).symm, trace := ?_ }
  show x'.trace = List.filter _ ((x.clock, .answer t reply) :: x.trace)
  rw [List.filter_cons_of_neg (by simp [Effect.isFor]), h.trace]

/-- **A signal that brings no request with the ticket** is given to both. -/
theorem offers (h : SameBut t x x') (held : x.held = true) {signal : Signal} {v : Simulation σ}
    (offers : Offers s x signal v) (other : ∀ r, signal = .request r → r.ticket ≠ t) :
    ∃ v', Offers s x' signal v' ∧ SameBut t v v' := by
  cases offers with
  | answered way due =>
    rw [← h.world]
    exact ⟨_, .answered (h.call.trans way) (h.clock ▸ due), { h with world := rfl, call := rfl }⟩
  | tick timer due =>
    exact ⟨_, .tick (h.timer.trans timer) (h.clock ▸ due), { h with timer := rfl }⟩
  | drawn phase =>
    rw [← h.world]
    exact ⟨_, .drawn (h.phase.trans phase), { h with world := rfl }⟩
  | @request r rest head =>
    have hqueue : x'.queue = r :: rest.filter fun r => r.ticket ≠ t := by
      rw [h.queue, head, List.filter_cons_of_pos (by simpa using other r rfl)]
    exact ⟨_, .request hqueue, { h with queue := rfl }⟩
  | quiet empty free =>
    refine ⟨x', .quiet (by rw [h.queue, empty]; rfl) ?_, h⟩
    rw [isAbandoned, h.held, held]
    rfl
  | abandoned alone =>
    rw [(of_isAbandoned alone).1] at held
    cases held

/-- **A move that is not for the ticket does the same in both.** -/
theorem move (h : SameBut t x x') {m : Move σ} (other : m.isFor t = false)
    (known : OnlyStarts t x) (few : y.pending.length ≤ queueLength)
    (hm : move? s x m = some y) :
    ∃ y', move? s x' m = some y' ∧ SameBut t y y' := by
  cases m with
  | pauses =>
    obtain rfl := Option.some.inj hm
    exact ⟨_, rfl, h.pause known.line⟩
  | asks r =>
    have hr : r.ticket ≠ t := of_decide_eq_false other
    obtain ⟨-, hy⟩ := Option.ite_none_right_eq_some.mp hm
    obtain rfl := Option.some.inj hy
    have room := room_of_few few
    have room' : x'.queue.length < queueLength := by
      rw [h.queue]
      exact Nat.lt_of_le_of_lt (List.length_filter_le _ _) room
    refine ⟨x'.submit r, Option.ite_none_right_eq_some.mpr ⟨?_, rfl⟩, ?_⟩
    · rw [h.held, known.held]
      rfl
    · rw [submit_of_room known.line room, submit_of_room (h.line.trans known.line) room']
      refine { h with queue := ?_ }
      rw [List.filter_append, h.queue, List.filter_cons_of_pos (by simpa using hr)]
      rfl
  | letsGo =>
    obtain rfl := Option.some.inj hm
    exact ⟨_, rfl, { h with held := rfl }⟩
  | passes instant =>
    obtain ⟨le, hy⟩ := Option.ite_none_right_eq_some.mp hm
    obtain rfl := Option.some.inj hy
    refine ⟨_, if_pos (h.clock ▸ le), { h with clock := rfl }⟩
  | drifts change =>
    obtain rfl := Option.some.inj hm
    exact ⟨_, rfl, { h with world := congrArg change h.world }⟩
  | _ =>
    obtain ⟨signal, v, hmove, offers, fed⟩ := offers_of_move? hm rfl
    have hr : ∀ r, signal = .request r → r.ticket ≠ t := by
      rintro r rfl
      rw [hmove] at other
      exact of_decide_eq_false other
    obtain ⟨v', offers', hv⟩ := h.offers known.held offers hr
    obtain ⟨hphase, -⟩ := offers.same
    obtain ⟨-, hline, -⟩ := offers.requests
    -- whatever the engine is given, it answers none of the requests with the ticket
    obtain ⟨y', fed', hy⟩ := hv.feed (hline.trans known.line)
      (fun next es hs => (transition_of_step hs).isFor_eq_false (hphase ▸ known.owed) hr) fed
    exact ⟨y', hmove ▸ offers'.move?_eq fed', hy⟩

/-- **A move that is for the ticket changes nothing else**, if a start is handed in by it or
refused. -/
theorem skip (h : SameBut t x x') {m : Move σ} (concerned : m.isFor t = true)
    (known : OnlyStarts t x) (few : y.pending.length ≤ queueLength)
    (hm : move? s x m = some y)
    (refused : ∀ reply, .answer t reply ∈ y.effects →
      reply = .alreadyRunning ∨ reply = .emptyProgram) : SameBut t y x' := by
  cases m with
  | takes r =>
    have hr : r.ticket = t := of_decide_eq_true concerned
    obtain ⟨signal, v, hmove, offers, fed⟩ := offers_of_move? hm rfl
    cases offers with
    | @request q rest head =>
      obtain rfl := Move.takes.inj hmove
      have hmem : r ∈ x.pending := by
        rw [pending, head]
        exact List.mem_cons_self
      obtain ⟨p, rfl⟩ := known.start r hmem hr
      exact h.refused head known.timer fed refused
    | _ => cases hmove
  | asks r =>
    obtain ⟨-, hy⟩ := Option.ite_none_right_eq_some.mp hm
    obtain rfl := Option.some.inj hy
    exact h.asked (room_of_few few) known.line (of_decide_eq_true concerned)
  | _ => cases concerned

/-- **A history does the same without a start that it refuses.** -/
theorem play (h : SameBut t x x') (known : OnlyStarts t x) {moves : List (Move σ)}
    (played : Simulation.play s x moves = some z)
    (kept : ∀ earlier y, earlier <+: moves → Simulation.play s x earlier = some y →
      y.held = true ∧ y.pending.length ≤ queueLength)
    (start : ∀ r, .asks r ∈ moves → r.ticket = t → ∃ p, r = .start t p)
    (refused : ∀ reply, .answer t reply ∈ z.effects →
      reply = .alreadyRunning ∨ reply = .emptyProgram) :
    ∃ z', Simulation.play s x' (moves.filter fun m => !m.isFor t) = some z' ∧ SameBut t z z' := by
  induction moves generalizing x x' with
  | nil =>
    obtain rfl := Option.some.inj played
    exact ⟨x', rfl, h⟩
  | cons m moves ih =>
    obtain ⟨y, hm, hrest⟩ := Option.bind_eq_some_iff.mp played
    have hplay (rest : List (Move σ)) :
        Simulation.play s x (m :: rest) = Simulation.play s y rest := by
      show (move? s x m).bind _ = _
      rw [hm]
      rfl
    obtain ⟨held, few⟩ := kept [m] y ⟨moves, rfl⟩ (hplay [])
    have known' := known.move hm held few fun r he => start r (he ▸ List.mem_cons_self)
    have later : ∀ {v}, SameBut t y v → ∃ z',
        Simulation.play s v (moves.filter fun m => !m.isFor t) = some z' ∧ SameBut t z z' := by
      intro v hv
      refine ih hv known' hrest (fun earlier w hearlier hw => ?_)
        fun r hr => start r (List.mem_cons_of_mem _ hr)
      exact kept (m :: earlier) w ((List.prefix_cons_inj m).mpr hearlier) ((hplay earlier).trans hw)
    cases concerned : m.isFor t with
    | false =>
      obtain ⟨y', hm', hy⟩ := h.move concerned known few hm
      obtain ⟨z', hz', hz⟩ := later hy
      refine ⟨z', ?_, hz⟩
      rw [List.filter_cons_of_pos (by rw [concerned]; rfl)]
      exact Option.bind_eq_some_iff.mpr ⟨y', hm', hz'⟩
    | true =>
      have hy := h.skip concerned known few hm fun reply he =>
        refused reply ((effects_of_play hrest).subset he)
      obtain ⟨z', hz', hz⟩ := later hy
      refine ⟨z', ?_, hz⟩
      rw [List.filter_cons_of_neg (by rw [concerned]; nofun)]
      exact hz'

end SameBut

/-- **A refused start has no effect.** In every history in which somebody holds on to the engine
throughout and at most sixteen requests wait at any time, take out a start that was refused,
which is to say the moves in which it was handed in and taken. The rest can be played as
before, and what it leads to differs at every point in nothing but the start: everything
that the engine did was done at the same instants, the answer to the start excepted; the same status
is shown, the same commands were sent and the same is on its way; and the surroundings, with the
outputs and the journal in them, are in the same state. -/
theorem play_without_refused {world : σ} {moves : List (Move σ)} {t : Ticket}
    (played : play s { world } moves = some z)
    (kept : ∀ earlier x, earlier <+: moves → play s { world } earlier = some x →
      x.held = true ∧ x.pending.length ≤ queueLength)
    (start : ∀ r, .asks r ∈ moves → r.ticket = t → ∃ p, r = .start t p)
    (refused : ∀ reply, .answer t reply ∈ z.effects →
      reply = .alreadyRunning ∨ reply = .emptyProgram) :
    ∀ earlier, earlier <+: moves → ∃ x x', play s { world } earlier = some x
      ∧ play s { world } (earlier.filter fun m => !m.isFor t) = some x' ∧ SameBut t x x' := by
  rintro earlier ⟨later, rfl⟩
  rw [play_append] at played
  obtain ⟨x, hx, hz⟩ := Option.bind_eq_some_iff.mp played
  obtain ⟨x', hx', hsame⟩ := (SameBut.refl world).play (onlyStarts_start t world) hx
    (fun first y hfirst => kept first y (hfirst.trans (List.prefix_append _ _)))
    (fun r hr => start r (List.mem_append_left _ hr))
    fun reply he => refused reply ((effects_of_play hz).subset he)
  exact ⟨x, x', hx, hx', hsame⟩

/-- A history in which a start is handed in and refused during a countdown. -/
def interrupted : List (Move Rig) :=
  [.asks (.start 0 blink), .takes (.start 0 blink), .lands, .goesOn, .asks (.start 1 blink),
    .passes 500, .takes (.start 1 blink), .passes 1000, .rings]

/-- The countdown goes on as if nobody had asked. -/
theorem play_without_refused_blink :
    ∃ z z', play (Rig.surroundings .unlabelled 1000 0) { world := {} } interrupted = some z
      ∧ replies z.effects = [(0, .started), (1, .alreadyRunning)]
      ∧ play (Rig.surroundings .unlabelled 1000 0) { world := {} }
        [.asks (.start 0 blink), .takes (.start 0 blink), .lands, .goesOn, .passes 500,
          .passes 1000, .rings] = some z'
      ∧ SameBut 1 z z' := by
  have kept : ∀ earlier x, earlier <+: interrupted →
      play (Rig.surroundings .unlabelled 1000 0) { world := {} } earlier = some x →
      x.held = true ∧ x.pending.length ≤ queueLength := by
    intro earlier x hearlier hplay
    simp only [interrupted, List.prefix_cons_iff, List.prefix_nil] at hearlier
    rcases hearlier with rfl | ⟨_, rfl, rfl | ⟨_, rfl, rfl | ⟨_, rfl, rfl | ⟨_, rfl, rfl | ⟨_, rfl,
      rfl | ⟨_, rfl, rfl | ⟨_, rfl, rfl | ⟨_, rfl, rfl | ⟨_, rfl, rfl⟩⟩⟩⟩⟩⟩⟩⟩⟩
    all_goals
      obtain rfl := Option.some.inj hplay
      exact ⟨rfl, by decide⟩
  have start : ∀ r, .asks r ∈ interrupted → r.ticket = 1 → ∃ p, r = .start 1 p := by
    simp [interrupted, Request.ticket]
  obtain ⟨z, played⟩ : ∃ z, play (Rig.surroundings .unlabelled 1000 0) { world := {} } interrupted
      = some z := ⟨_, rfl⟩
  have answered : (play (Rig.surroundings .unlabelled 1000 0) { world := {} } interrupted).map
      (fun z => replies z.effects) = some [(0, .started), (1, .alreadyRunning)] := rfl
  rw [played] at answered
  have hreplies : replies z.effects = [(0, .started), (1, .alreadyRunning)] :=
    Option.some.inj answered
  have refused : ∀ reply, .answer 1 reply ∈ z.effects →
      reply = .alreadyRunning ∨ reply = .emptyProgram := by
    intro reply he
    rw [← mem_replies, hreplies] at he
    exact .inl (by simpa using he)
  obtain ⟨w, z', hw, hz', hsame⟩ :=
    play_without_refused played kept start refused interrupted (List.prefix_refl _)
  obtain rfl := Option.some.inj (played.symm.trans hw)
  exact ⟨z, z', played, hreplies, hz', hsame⟩

end Simulation

end Switchboard.Engine
