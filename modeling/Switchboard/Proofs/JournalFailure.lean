import Switchboard.Proofs.Refusal

/-!
# A journal that fails

The engine notes in the journal what a run has switched, and the journal answers whether it has
kept the note. Nothing depends on that answer. A run whose notes are all lost goes on as if
they had been kept: with the same events at the same instants, the same commands and the
same answers to everybody.

To say so, the surroundings are given a journal at their side (`Surroundings.keeping`), which may
fail as it likes: what it answers depends on the instant, on the output and on everything that it
was given before. Whoever does not look at the journal (`Simulation.unread`) sees each move do
what it does in the surroundings alone (`move?_keeping`), and therefore sees the same history
(`play_keeping`), whichever journal it is. The same holds of the turns that the simulation makes
by itself (`turn_keeping`), and of the state that it comes to when time passes
(`advance_keeping`).
-/

namespace Switchboard.Engine

variable {σ κ κ' : Type}

/-- **A journal with a state of its own**, which may fail to keep what it is given. -/
structure Logbook (κ : Type) where
  /-- Notes at an instant that an output was switched. -/
  append : Nat → Relay → Power → κ → Except HubFault Unit × κ

/-- **Notes that an output was switched**, and goes on as if nothing had happened if the journal
fails. -/
def Logbook.note (log : Logbook κ) (clock : Nat) (output : Relay) (power : Power) (kept : κ) : κ :=
  match log.append clock output power kept with
  | (.ok (), kept) => kept
  | (.error _, kept) => kept

/-- **Surroundings with a journal at their side.** -/
def Surroundings.keeping (s : Surroundings σ) (log : Logbook κ) : Surroundings (σ × κ) where
  panel := s.panel
  tickPeriod := s.tickPeriod
  latency := s.latency
  switch number output power world :=
    let (result, outside) := s.switch number output power world.1
    (result, outside, world.2)
  record clock output power world :=
    (s.record clock output power world.1, log.note clock output power world.2)
  draw min max world :=
    let (n, outside) := s.draw min max world.1
    (n, outside, world.2)

/-- A move, next to a journal that has no part in it. -/
def Move.beside : Move σ → Move (σ × κ)
  | .lands => .lands
  | .rings => .rings
  | .draws => .draws
  | .takes r => .takes r
  | .goesOn => .goesOn
  | .abandons => .abandons
  | .pauses => .pauses
  | .asks r => .asks r
  | .letsGo => .letsGo
  | .passes instant => .passes instant
  | .drifts change => .drifts fun world => (change world.1, world.2)

namespace Simulation

/-- **An engine, without a look at the journal.** -/
def unread (x : Simulation (σ × κ)) : Simulation σ := { x with world := x.world.1 }

/-- An engine next to what a journal has kept. -/
def writing (x : Simulation σ) (kept : κ) : Simulation (σ × κ) :=
  { x with world := (x.world, kept) }

variable {s : Surroundings σ} {log : Logbook κ} {x : Simulation (σ × κ)}

theorem unread_perform (e : Effect) :
    (perform (s.keeping log) x e).unread = perform s x.unread e := by
  cases e <;> rfl

theorem unread_foldl_perform (es : List Effect) :
    (es.foldl (perform (s.keeping log)) x).unread = es.foldl (perform s) x.unread := by
  induction es generalizing x with
  | nil => rfl
  | cons e es ih =>
    rw [List.foldl_cons, List.foldl_cons, ih, unread_perform]

/-- **A signal does the same** for whoever does not look at the journal. -/
theorem feed_keeping (signal : Signal) :
    (feed (s.keeping log) x signal).map unread = feed s x.unread signal := by
  unfold feed
  rw [show step (s.keeping log).panel x.phase signal = step s.panel x.unread.phase signal from rfl]
  cases step s.panel x.unread.phase signal with
  | none => rfl
  | some next =>
    obtain ⟨phase, es⟩ := next
    have hes : (es.foldl (perform (s.keeping log)) { x with phase }).unread
        = es.foldl (perform s) (unread { x with phase }) := unread_foldl_perform es
    simp only [Option.map_some, Option.some.injEq]
    show _ = if pausesAt x.phase signal phase then _ else _
    rw [show { x.unread with phase } = unread { x with phase } from rfl, ← hes]
    split
    · rfl
    · rfl

theorem land?_keeping : (land? (s.keeping log) x).map unread = land? s x.unread := by
  unfold land?
  rw [show x.unread.call = x.call from rfl]
  cases x.call with
  | none => rfl
  | some c =>
    dsimp only
    rw [apply_ite (Option.map unread)]
    congr 1
    exact feed_keeping _

theorem ring?_keeping : (ring? (s.keeping log) x).map unread = ring? s x.unread := by
  unfold ring?
  rw [show x.unread.timer = x.timer from rfl]
  cases x.timer with
  | none => rfl
  | some due =>
    dsimp only
    rw [apply_ite (Option.map unread)]
    congr 1
    exact feed_keeping _

theorem take?_keeping : (take? (s.keeping log) x).map unread = take? s x.unread := by
  unfold take?
  rw [show x.unread.queue = x.queue from rfl]
  cases x.queue with
  | nil => rfl
  | cons r rest => exact feed_keeping _

theorem draw?_keeping : (draw? (s.keeping log) x).map unread = draw? s x.unread := by
  unfold draw?
  rw [show x.unread.phase = x.phase from rfl]
  cases x.phase with
  | drawing run lo hi => exact feed_keeping _
  | _ => rfl

/-- **A move does the same** for whoever does not look at the journal, and is possible in the
same states. -/
theorem move?_keeping (m : Move σ) :
    (move? (s.keeping log) x m.beside).map unread = move? s x.unread m := by
  cases m with
  | lands => exact land?_keeping
  | rings => exact ring?_keeping
  | draws => exact draw?_keeping
  | takes r =>
    dsimp only [Move.beside, move?]
    rw [apply_ite (Option.map unread), take?_keeping]
    rfl
  | goesOn =>
    dsimp only [Move.beside, move?]
    rw [apply_ite (Option.map unread), feed_keeping]
    rfl
  | abandons =>
    dsimp only [Move.beside, move?]
    rw [apply_ite (Option.map unread), feed_keeping]
    rfl
  | pauses => rfl
  | asks r =>
    dsimp only [Move.beside, move?]
    rw [apply_ite (Option.map unread)]
    have hsubmit : (x.submit r).unread = x.unread.submit r := by
      unfold submit
      exact apply_ite unread _ _ _
    rw [Option.map_some, hsubmit]
    rfl
  | letsGo => rfl
  | passes instant =>
    dsimp only [Move.beside, move?]
    rw [apply_ite (Option.map unread)]
    rfl
  | drifts change => rfl

/-- **A history is the same** for whoever does not look at the journal. -/
theorem play_keeping (moves : List (Move σ)) :
    (play (s.keeping log) x (moves.map Move.beside)).map unread = play s x.unread moves := by
  induction moves generalizing x with
  | nil => rfl
  | cons m moves ih =>
    show ((move? (s.keeping log) x m.beside).bind fun y => play (s.keeping log) y _).map unread
      = (move? s x.unread m).bind fun y => play s y moves
    have hmove : (move? (s.keeping log) x m.beside).map unread = move? s x.unread m :=
      move?_keeping m
    rw [← hmove, Option.map_bind, Option.bind_map]
    congr 1
    funext y
    exact ih

/-! ## The turns of the simulation -/

theorem rest?_keeping : (rest? (s.keeping log) x).map unread = rest? s x.unread := by
  unfold rest?
  rw [apply_ite (Option.map unread), apply_ite (Option.map unread), feed_keeping]
  rfl

/-- **The next thing that happens** is the same for whoever does not look at the journal. -/
theorem turn_keeping : (turn (s.keeping log) x).map unread = turn s x.unread := by
  unfold turn
  rw [show x.unread.phase = x.phase from rfl]
  cases x.phase with
  | idle =>
    simp only [Option.orElse_eq_or, Option.map_or, take?_keeping, rest?_keeping]
  | drawing run lo hi => exact feed_keeping _
  | calling run output power =>
    simp only [Option.orElse_eq_or, Option.map_or, land?_keeping, take?_keeping, rest?_keeping]
  | waiting run n =>
    simp only [Option.orElse_eq_or, Option.map_or, ring?_keeping, take?_keeping, rest?_keeping]
  | between run =>
    simp only [Option.orElse_eq_or, Option.map_or, take?_keeping, apply_ite (Option.map unread),
      feed_keeping]
    rfl
  | landing caller =>
    simp only [Option.orElse_eq_or, Option.map_or, land?_keeping, apply_ite (Option.map unread)]
    rfl
  | sweeping current rest sweep caller =>
    simp only [Option.orElse_eq_or, Option.map_or, land?_keeping, apply_ite (Option.map unread)]
    rfl
  | ended => rfl

/-- **Time passes** in the same way for whoever does not look at the journal. -/
theorem advance_keeping (enough : Simulation σ → Bool) (target turns : Nat) :
    (advance (s.keeping log) (fun y => enough y.unread) target turns x).unread
      = advance s enough target turns x.unread := by
  induction turns generalizing x with
  | zero => rfl
  | succ turns ih =>
    have hturn : (turn (s.keeping log) x).map unread = turn s x.unread := turn_keeping
    unfold advance
    rw [← hturn]
    cases turn (s.keeping log) x with
    | some y => exact ih
    | none =>
      dsimp only [Option.map_none]
      rw [apply_ite unread, show x.unread.nextDue = x.nextDue from rfl]
      congr 1
      cases x.nextDue with
      | none => rfl
      | some due =>
        dsimp only
        rw [apply_ite unread, ih]
        rfl

/-- **Failures of the journal go unnoticed.** Play a history next to a journal that fails as it
likes, and next to any other, such as one that never fails. Both are possible or neither is, and
they lead to the same state, the journals excepted: everything that the engine did, it did at
the same instants, from the events and statuses to the answers and the commands sent; the same
command is on its way and the same requests wait; and the outputs are in the same state. If time
just passes, the simulation comes to the same state as well. -/
theorem same_whatever_journal (s : Surroundings σ) (log : Logbook κ) (log' : Logbook κ')
    (x : Simulation σ) (kept : κ) (kept' : κ') :
    (∀ moves : List (Move σ), (play (s.keeping log) (x.writing kept) (moves.map Move.beside)).map unread
        = (play (s.keeping log') (x.writing kept') (moves.map Move.beside)).map unread)
      ∧ ∀ (enough : Simulation σ → Bool) (target turns : Nat),
        (advance (s.keeping log) (fun y => enough y.unread) target turns (x.writing kept)).unread
          = (advance (s.keeping log') (fun y => enough y.unread) target turns
              (x.writing kept')).unread := by
  constructor
  · intro moves
    rw [play_keeping, play_keeping]
    rfl
  · intro enough target turns
    rw [advance_keeping, advance_keeping]
    rfl

end Simulation

end Switchboard.Engine
