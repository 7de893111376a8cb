import Switchboard.Console.Station
import Switchboard.Proofs.Following
import Switchboard.Proofs.Standstill

/-!
# The turns of the console

The console starts a program and follows it. It takes turns with the engine in an order of its own
(`Watch.next`), and it keeps no record of what the engine did longer than it takes to read it.
Apart from that record (`Watch.forgetful`), whatever it comes to is one of the things that can come
about when a program is followed and nobody else asks for anything (`Watch.Comes`).

A turn does one of three things (`Watch.Turn`): the engine takes notice of something, the follower
interrupts the run, or else the console idles. It cannot idle for long, since there is only so much
to be read, the engine pauses only if that changes something, and time passes only until the next
thing is due (`Watch.leisure`).
-/

namespace Switchboard

variable {σ : Type}

/-! ## What the engine remembers -/

namespace Engine

namespace Simulation

variable {s : Surroundings σ} {drift : σ → σ → Prop} {x y : Simulation σ}

/-- **An engine that remembers what it did before.** -/
def recalling (earlier : List (Nat × Effect)) (x : Simulation σ) : Simulation σ :=
  { x with trace := x.trace ++ earlier }

theorem foldl_perform_recalling (earlier : List (Nat × Effect)) (es : List Effect) :
    es.foldl (perform s) (x.recalling earlier) = (es.foldl (perform s) x).recalling earlier := by
  induction es generalizing x with
  | nil => rfl
  | cons e es ih =>
    have hone : perform s (x.recalling earlier) e = (perform s x e).recalling earlier := by
      cases e <;> rfl
    rw [List.foldl_cons, List.foldl_cons, hone, ih]

/-- **A signal does the same** to an engine that remembers more. -/
theorem feed_recalling {earlier : List (Nat × Effect)} {signal : Signal}
    (h : feed s x signal = some y) :
    feed s (x.recalling earlier) signal = some (y.recalling earlier) := by
  unfold feed at h ⊢
  rw [show step s.panel (x.recalling earlier).phase signal = step s.panel x.phase signal from rfl]
  cases hs : step s.panel x.phase signal with
  | none => simp [hs] at h
  | some next =>
    obtain ⟨phase, es⟩ := next
    have hes := foldl_perform_recalling (s := s) (x := { x with phase }) earlier es
    simp only [hs, Option.some.injEq] at h ⊢
    rw [show { x.recalling earlier with phase } = recalling earlier { x with phase } from rfl, hes]
    subst h
    show (if pausesAt x.phase signal phase then _ else _) = _
    rw [apply_ite (recalling earlier)]
    rfl

theorem Offers.recalling {earlier : List (Nat × Effect)} {signal : Signal} {v : Simulation σ}
    (h : Offers s x signal v) :
    Offers s (x.recalling earlier) signal (v.recalling earlier) := by
  cases h with
  | answered way due => exact .answered (x := x.recalling earlier) way due
  | tick timer due => exact .tick (x := x.recalling earlier) timer due
  | drawn phase => exact .drawn (x := x.recalling earlier) phase
  | request head => exact .request (x := x.recalling earlier) head
  | quiet empty held => exact .quiet (x := x.recalling earlier) empty held
  | abandoned alone => exact .abandoned (x := x.recalling earlier) alone

/-- **What an engine takes notice of does the same** to one that remembers more. -/
theorem Happens.recalling {earlier : List (Nat × Effect)} {signal : Signal}
    (h : Happens s drift x (some signal) y) :
    Happens s drift (x.recalling earlier) (some signal) (y.recalling earlier) := by
  obtain ⟨v, offers, fed⟩ := h.fed
  exact offers.recalling.happens (feed_recalling fed)

/-- **An engine that remembers nothing.** -/
def forgetting (x : Simulation σ) : Simulation σ := { x with trace := [] }

theorem submit_forgetting (x : Simulation σ) (r : Request) :
    x.forgetting.submit r = (x.submit r).forgetting := by
  unfold submit
  rw [apply_ite forgetting]
  rfl

theorem Sound.forgetting (h : Sound x) : Sound x.forgetting := ⟨h.awaits, h.ordered, h.alone⟩

/-! ## The starts among the requests -/

end Simulation

/-- Whom the answer to a start is for. -/
def Request.start? : Request → Option Ticket
  | .start t _ => some t
  | .stop _ => none

/-- Only starts begin runs. -/
theorem begun_sublist {served : List Request} {answers : List (Ticket × Reply)}
    (h : List.Forall₂ Request.Answered served answers) :
    (begun answers).Sublist (served.filterMap Request.start?) := by
  induction h with
  | nil => exact .slnil
  | @cons r a served answers first rest ih =>
    rw [← List.singleton_append, begun_append]
    cases first with
    | start t p running =>
      rw [begun_verdict, List.filterMap_cons]
      show List.Sublist _ (t :: _)
      split
      · exact ih.cons_cons t
      · exact ih.cons t
    | stop t report => exact ih

namespace Simulation

/-- **No run begins that was not asked for.** -/
theorem Booked.runs_sublist {asked : List Request} {signals : List Signal}
    (h : Booked asked signals x) : x.runs.Sublist (asked.filterMap Request.start?) := by
  obtain ⟨served, htaken, hserved⟩ := h.answered
  rw [h.accepted, htaken, List.append_assoc, List.filterMap_append]
  exact (begun_sublist hserved).trans (List.sublist_append_left _ _)

end Simulation

end Engine

/-! ## The turns of the console -/

namespace Console

open Engine Engine.Simulation

namespace Watch

variable {s : Surroundings σ} {drift : σ → σ → Prop} {capacity : Nat} {world : σ} {p : Program}
  {wish : Watch σ → Bool} {u v w : Watch σ}

/-- **A watch without the record of what the engine did.** -/
def forgetful (w : Watch σ) : Watch σ := { w with sim := w.sim.forgetting }

theorem forgetful_foldl_absorb (w : Watch σ) (es : List Effect) :
    (es.foldl absorb w).forgetful = es.foldl absorb w.forgetful := by
  induction es generalizing w with
  | nil => rfl
  | cons e es ih =>
    have hone : (w.absorb e).forgetful = w.forgetful.absorb e := by
      cases e <;> rfl
    rw [List.foldl_cons, List.foldl_cons, ih, hone]

theorem read?_forgetful (w : Watch σ) : w.forgetful.read? = w.read?.map forgetful := by
  have hreceive : w.forgetful.channel.receive w.forgetful.seen = w.channel.receive w.seen := rfl
  unfold read?
  rw [apply_ite (Option.map forgetful), hreceive]
  congr 1
  obtain ⟨received, seen⟩ := w.channel.receive w.seen
  cases received <;> rfl

theorem interrupt?_forgetful (w : Watch σ) :
    w.forgetful.interrupt? = w.interrupt?.map forgetful := by
  unfold interrupt?
  rw [apply_ite (Option.map forgetful)]
  congr 1
  rw [show w.forgetful.sim = w.sim.forgetting from rfl, submit_forgetting]
  rfl

/-- What publishes and answers nothing tells the follower nothing. -/
theorem after_of_same {y : Simulation σ} (h : y.effects = w.sim.effects) :
    w.after y = { w with sim := y } := by
  unfold after
  rw [h, List.drop_length]
  rfl

/-- What comes of a happening leaves the follower where it is. -/
theorem after_same {signal : Option Signal} {y : Simulation σ}
    (next : Happens s drift w.sim signal y) :
    (w.after y).sim = y ∧ (w.after y).interrupted = w.interrupted := by
  obtain ⟨es, heffects, -⟩ := next.exists_effects
  have habsorbed := absorbed_after heffects
  exact ⟨habsorbed.sim, habsorbed.interrupted⟩

/-- **In a turn of the engine it pauses, or it takes notice of something**, whatever the console
remembers. -/
theorem engine?_cases (h : w.engine? s = some v) :
    w.sim.isRestless = true ∧ v = { w with sim := w.sim.forgetting.pause }
      ∨ ∃ signal y, Happens s drift w.sim (some signal) y
          ∧ v.forgetful = (w.after y).forgetful := by
  obtain ⟨x, hturn, rfl⟩ := Option.map_eq_some_iff.mp h
  obtain ⟨restless, rfl⟩ | ⟨signal, next⟩ := turn_cases hturn
  · exact .inl ⟨restless, rfl⟩
  · refine .inr ⟨signal, x.recalling w.sim.trace, next.recalling, ?_⟩
    have heffects : (x.recalling w.sim.trace).effects = w.sim.effects ++ x.effects := by
      simp [Simulation.effects, recalling]
    unfold after
    rw [heffects, List.drop_left, forgetful_foldl_absorb, forgetful_foldl_absorb,
      List.map_reverse]
    rfl

/-- **What was asked for by the time that a watch is come to**, if the follower is the only one who
asks for anything: the program, and a stop if the run was interrupted. -/
def asked (p : Program) (w : Watch σ) : List Request :=
  .start startTicket p :: if w.interrupted then [.stop stopTicket] else []

/-- **What the console has come to**: but for what it remembers, a watch that can come about when
a program is started and followed and nobody else asks for anything. -/
structure Comes (s : Surroundings σ) (capacity : Nat) (world : σ) (p : Program) (w v : Watch σ) :
    Prop where
  /-- The watch can come about. -/
  followed : Followed s (fun _ _ => False) capacity world p (w.asked p) w
  /-- The run has begun. -/
  began : startTicket ∈ w.sim.runs
  /-- It is what the console has come to. -/
  same : v.forgetful = w.forgetful

namespace Comes

/-- The console knows the same of how the run ended. -/
theorem ended_eq (h : Comes s capacity world p w v) : v.ended = w.ended :=
  (congrArg Watch.ended h.same : v.forgetful.ended = w.forgetful.ended)

/-- The follower has been told that the run has begun. -/
theorem mem_begun (h : Comes s capacity world p w v) : startTicket ∈ begun w.replies :=
  h.followed.kept.mem_runs.mp h.began

/-- The only run is the one that was asked for. -/
theorem runs_eq (h : Comes s capacity world p w v) : w.sim.runs = [startTicket] := by
  obtain ⟨signals, hb⟩ := h.followed.kept.booked
  have hsublist := hb.runs_sublist
  have hstarts : (w.asked p).filterMap Request.start? = [startTicket] := by
    unfold asked
    split <;> rfl
  rw [hstarts] at hsublist
  exact (List.sublist_singleton.mp hsublist).resolve_left (List.ne_nil_of_mem h.began)

/-- Seconds are counted exactly during a wait. -/
theorem isSome_timer (h : Comes s capacity world p w v) :
    w.sim.timer.isSome = w.sim.phase.isWaiting := by
  obtain ⟨signals, hd⟩ := h.followed.kept.dealings
  exact hd.course.isSome_timer

/-- The engine has the same turn to take. -/
theorem engine?_eq (h : Comes s capacity world p w v) : v.engine? s = w.engine? s := by
  show v.forgetful.engine? s = w.forgetful.engine? s
  rw [h.same]

/-- The same is there to be read. -/
theorem read?_eq (h : Comes s capacity world p w v) :
    v.read?.map forgetful = w.read?.map forgetful := by
  rw [← read?_forgetful, h.same, read?_forgetful]

/-- The run can be interrupted in the same way. -/
theorem interrupt?_eq (h : Comes s capacity world p w v) :
    v.interrupt?.map forgetful = w.interrupt?.map forgetful := by
  rw [← interrupt?_forgetful, h.same, interrupt?_forgetful]

/-- The engine does something, or time passes. -/
theorem happens {signal : Option Signal} {y : Simulation σ} (h : Comes s capacity world p w v)
    (going : w.ended = none) (next : Happens s (fun _ _ => False) w.sim signal y)
    (unasked : signal = none → y.pending = w.sim.pending) (held : y.held = w.sim.held)
    (same : u.forgetful = (w.after y).forgetful) : Comes s capacity world p (w.after y) u := by
  have stirs : Stirs s (fun _ _ => False) w [] (w.after y) :=
    .happens next unasked (held.trans h.followed.kept.held)
  have hf := h.followed.stirs going stirs
  rw [List.append_nil, asked, ← (after_same next).2] at hf
  exact ⟨hf, stirs.runs_kept.subset h.began, same⟩

/-- The follower reads. -/
theorem reads {w' : Watch σ} (h : Comes s capacity world p w v) (going : w.ended = none)
    (read : w.read? = some w') (same : u.forgetful = w'.forgetful) :
    Comes s capacity world p w' u := by
  obtain ⟨-, hsim, uninterrupted⟩ := further_of_read read
  have hf := h.followed.reads going h.mem_begun read
  rw [asked, (read?_eq_some read).1, ← uninterrupted] at hf
  exact ⟨hf, hsim ▸ h.began, same⟩

end Comes

/-! ## What a turn does -/

/-- **For how long the console can idle**: how many events are to be read, whether the engine would
pause, and whether it waits for something. -/
def leisure (w : Watch σ) : Nat :=
  (w.channel.published.size - w.seen) + (if w.sim.isRestless then 1 else 0)
    + if w.sim.nextDue.any (w.sim.clock < ·) then 1 else 0

/-- **What a turn of the console does.** -/
inductive Turn (s : Surroundings σ) (capacity : Nat) (world : σ) (p : Program) (w v u : Watch σ) :
    Prop where
  /-- It idles, which it cannot do for long, and the engine takes notice of nothing. -/
  | idles {w' : Watch σ} (comes : Comes s capacity world p w' u)
      (unnoticed : Course s (fun _ _ => False) w.sim [] w'.sim)
      (interrupted : w'.interrupted = w.interrupted) (less : u.leisure < v.leisure) :
      Turn s capacity world p w v u
  /-- The engine takes notice of something. -/
  | notices {signal : Signal} {y : Simulation σ}
      (next : Happens s (fun _ _ => False) w.sim (some signal) y)
      (comes : Comes s capacity world p (w.after y) u) : Turn s capacity world p w v u
  /-- The follower interrupts the run. -/
  | interrupts {w' : Watch σ} (before : w.interrupted = false) (after : w'.interrupted = true)
      (comes : Comes s capacity world p w' u) : Turn s capacity world p w v u

/-- The console can idle for as long as it could if it remembered everything. -/
theorem Comes.leisure_eq (h : Comes s capacity world p w v) : v.leisure = w.leisure :=
  (congrArg leisure h.same : v.forgetful.leisure = w.forgetful.leisure)

/-- Whoever reads has less to read then. -/
theorem leisure_of_read (read : w.read? = some v) : v.leisure < w.leisure := by
  obtain ⟨-, ⟨behind, rfl⟩ | ⟨e, he, rfl⟩⟩ := read?_eq_some read
  · have hlt : w.channel.published.size - w.channel.oldest < w.channel.published.size - w.seen := by
      rw [Broadcast.oldest] at behind ⊢
      omega
    exact Nat.add_lt_add_right (Nat.add_lt_add_right hlt _) _
  · obtain ⟨hseen, -⟩ := Array.getElem?_eq_some_iff.mp he
    have hlt : w.channel.published.size - (w.seen + 1) < w.channel.published.size - w.seen := by
      omega
    exact Nat.add_lt_add_right (Nat.add_lt_add_right hlt _) _

/-- An engine that pauses has nothing left to pause for. -/
theorem leisure_of_pause (restless : w.sim.isRestless = true) :
    leisure { w with sim := w.sim.forgetting.pause } < w.leisure := by
  have hafter : w.sim.forgetting.pause.isRestless = false := isRestless_pause _
  simp only [leisure, restless, hafter]
  exact Nat.add_lt_add_right (Nat.add_lt_add_left Nat.zero_lt_one _) _

/-- Once time has passed, what was waited for is due. -/
theorem leisure_of_wait {due : Nat} (next : w.sim.nextDue = some due) (later : w.sim.clock < due) :
    leisure { w with sim := { w.sim with clock := due } } < w.leisure := by
  have hnext : nextDue { w.sim with clock := due } = some due := next
  have hnow : (if (some due).any (due < ·) then 1 else 0) = 0 := by simp
  have hbefore : (if w.sim.nextDue.any (w.sim.clock < ·) then 1 else 0) = 1 := by
    simp [next, later]
  rw [leisure, leisure, hbefore, hnext, hnow]
  exact Nat.add_lt_add_left Nat.zero_lt_one _

namespace Comes

/-- **The console idles** when something happens that the engine takes no notice of, and that
publishes and answers nothing. -/
theorem idles {y : Simulation σ} (h : Comes s capacity world p w v) (going : w.ended = none)
    (next : Happens s (fun _ _ => False) w.sim none y) (unasked : y.pending = w.sim.pending)
    (held : y.held = w.sim.held) (silent : y.effects = w.sim.effects)
    (same : u.forgetful = { w with sim := y.forgetting }) (less : u.leisure < v.leisure) :
    Turn s capacity world p w v u := by
  have hafter : w.after y = { w with sim := y } := after_of_same silent
  refine .idles (h.happens going next (fun _ => unasked) held ?_) ?_ (after_same next).2 less
  · rw [hafter]
    exact same
  · rw [hafter]
    exact Course.refl.snoc next

theorem turn_engine (h : Comes s capacity world p w v) (going : w.ended = none)
    (turn : v.engine? s = some u) : Turn s capacity world p w v u := by
  rw [h.engine?_eq] at turn
  obtain ⟨restless, rfl⟩ | ⟨signal, y, next, same⟩ := engine?_cases turn
  · exact h.idles going .pauses (pending_pause _) rfl rfl rfl
      (h.leisure_eq ▸ leisure_of_pause restless)
  · exact .notices next (h.happens going next nofun next.keeps.held same)

theorem turn_read (h : Comes s capacity world p w v) (going : w.ended = none)
    (turn : v.read? = some u) : Turn s capacity world p w v u := by
  have hread : w.read?.map forgetful = some u.forgetful := by
    rw [← h.read?_eq, turn]
    rfl
  obtain ⟨w', read, same⟩ := Option.map_eq_some_iff.mp hread
  obtain ⟨-, hkept, uninterrupted⟩ := further_of_read read
  exact .idles (h.reads going read same.symm) (hkept ▸ .refl)
    (uninterrupted.trans (read?_eq_some read).1.symm) (leisure_of_read turn)

theorem turn_interrupt (h : Comes s capacity world p w v) (going : w.ended = none)
    (turn : v.interrupt? = some u) : Turn s capacity world p w v u := by
  have hinterrupt : w.interrupt?.map forgetful = some u.forgetful := by
    rw [← h.interrupt?_eq, turn]
    rfl
  obtain ⟨w', interrupt, same⟩ := Option.map_eq_some_iff.mp hinterrupt
  have hf := h.followed.interrupts going h.mem_begun interrupt
  obtain ⟨uninterrupted, hw'⟩ := Option.ite_none_left_eq_some.mp interrupt
  cases hw'
  rw [asked, if_neg uninterrupted] at hf
  have began : startTicket ∈ (w.handIn (.stop stopTicket)).sim.runs :=
    (handIn_same w (.stop stopTicket)).2 ▸ h.began
  have comes : Comes s capacity world p
      { w.handIn (.stop stopTicket) with interrupted := true } u := ⟨hf, began, same.symm⟩
  exact .interrupts (Bool.eq_false_iff.mpr uninterrupted) rfl comes

theorem turn_wait (h : Comes s capacity world p w v) (going : w.ended = none)
    (rests : v.engine? s = none) (turn : v.wait? = some u) : Turn s capacity world p w v u := by
  obtain ⟨due, hdue, rfl⟩ := Option.map_eq_some_iff.mp turn
  rw [h.engine?_eq] at rests
  have hnext : v.sim.nextDue = w.sim.nextDue :=
    (congrArg (·.sim.nextDue) h.same : v.forgetful.sim.nextDue = w.forgetful.sim.nextDue)
  have hclock : v.sim.clock = w.sim.clock :=
    (congrArg (·.sim.clock) h.same : v.forgetful.sim.clock = w.forgetful.sim.clock)
  have later : w.sim.clock < due :=
    clock_lt_nextDue (x := w.sim.forgetting) h.followed.kept.sound.forgetting h.isSome_timer
      (Option.map_eq_none_iff.mp rests) (hnext.symm.trans hdue)
  have same : forgetful { v with sim := { v.sim with clock := due } }
      = { w with sim := { w.sim.forgetting with clock := due } } :=
    congrArg (fun w : Watch σ => { w with sim := { w.sim with clock := due } }) h.same
  exact h.idles going (.passes due (Nat.le_of_lt later)) rfl rfl rfl same
    (leisure_of_wait hdue (hclock ▸ later))

/-- **Each turn that the console takes is one that can come about.** -/
theorem move {m : Move} (h : Comes s capacity world p w v) (hm : v.move s m = some u) :
    Turn s capacity world p w v u := by
  obtain ⟨hgoing, hm⟩ := Option.ite_none_left_eq_some.mp hm
  have going : w.ended = none := h.ended_eq ▸ Option.not_isSome_iff_eq_none.mp hgoing
  cases m with
  | engine => exact h.turn_engine going hm
  | read => exact h.turn_read going hm
  | interrupt => exact h.turn_interrupt going hm
  | wait =>
    obtain ⟨busy, hm⟩ := Option.ite_none_left_eq_some.mp hm
    exact h.turn_wait going (Option.not_isSome_iff_eq_none.mp busy) hm

/-- The console takes one turn or another. -/
theorem turn (h : Comes s capacity world p w v) (hn : v.next s wish = some u) :
    Turn s capacity world p w v u := by
  simp only [Watch.next, Option.orElse_eq_or, Option.or_eq_some_iff] at hn
  obtain hn | ⟨-, hn | ⟨-, hn⟩⟩ := hn
  · exact h.move hn
  · exact h.move hn
  · split at hn
    · obtain hn | ⟨-, hn⟩ := Option.or_eq_some_iff.mp hn
      · exact h.move hn
      · exact h.move hn
    · exact h.move hn

end Comes

/-- **What the console comes to when it has started a program.** -/
theorem comes_start (began : startTicket ∈ begun ((fresh capacity world).start s p).replies) :
    ∃ w, Comes s capacity world p w ((fresh capacity world).start s p) := by
  have hf : Followed s (fun _ _ => False) capacity world p [.start startTicket p]
      ((fresh capacity world).handIn (.start startTicket p)) := Followed.fresh.starts nofun
  generalize hw : (fresh capacity world).handIn (.start startTicket p) = w at hf
  have hstart : (fresh capacity world).start s p = (w.engine? s).getD w := hw ▸ rfl
  have going : w.ended = none := hw ▸ rfl
  have hasked : w.asked p = [.start startTicket p] := hw ▸ rfl
  rw [hstart] at began ⊢
  cases hengine : w.engine? s with
  | none =>
    rw [hengine] at began
    exact ⟨w, hasked ▸ hf, hf.kept.mem_runs.mpr began, rfl⟩
  | some v =>
    rw [hengine] at began
    -- whichever turn it is, the follower has been told of the run by then
    have comes : ∀ {signal y}, Happens s (fun _ _ => False) w.sim signal y →
        (signal = none → y.pending = w.sim.pending) → y.held = w.sim.held →
        v.forgetful = (w.after y).forgetful → ∃ w', Comes s capacity world p w' v := by
      intro signal y next unasked held same
      have hf' := hf.stirs going (.happens next unasked (held.trans hf.kept.held))
      have hreplies : v.replies = (w.after y).replies :=
        (congrArg Watch.replies same : v.forgetful.replies = (w.after y).forgetful.replies)
      rw [List.append_nil, ← hasked, asked, ← (after_same next).2] at hf'
      exact ⟨w.after y, hf', hf'.kept.mem_runs.mpr (hreplies ▸ began), same⟩
    obtain ⟨-, rfl⟩ | ⟨signal, y, next, same⟩ := engine?_cases hengine
    · refine comes .pauses (fun _ => pending_pause _) rfl ?_
      rw [after_of_same (y := w.sim.pause) rfl]
      rfl
    · exact comes next nofun next.keeps.held same

end Watch

end Console

end Switchboard
