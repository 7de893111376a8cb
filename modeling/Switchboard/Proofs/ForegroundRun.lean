import Switchboard.Proofs.Arrival
import Switchboard.Proofs.Import

/-!
# Running a program in the foreground

The command that runs a program starts it, follows the run to its end and then tells what came of
it. Whatever the console comes to on the way can come about when a program is followed
(`Watch.Comes`), so that the end it learns of is the one that the run has published, or the report
of its own stop (`Followed.reports`); and it does come to an end (`Comes.arrives`). The command
succeeds or fails as that end has it (`RunEnd.Settles`).
-/

namespace Switchboard.Console

open Engine

/-- **How a command ends that has followed a run** to some end, told by why it failed, if it did. -/
structure RunEnd.Settles (r : RunEnd) (fault : Option Fault) : Prop where
  /-- It succeeds if the program is complete, if someone else stopped the run, and if it stopped the
  run itself and every output was switched off. -/
  succeeds : fault = none
    ↔ r = .finished ∨ r = .cancelled ∨ ∃ sweep, r = .stopped sweep ∧ sweep.failures = []
  /-- If the run has failed, it fails for the same reason. -/
  fails : ∀ reason, r = .failed reason → ∃ f, fault = some f ∧ f.message = reason

theorem RunEnd.settles (r : RunEnd) (panel : Panel) (instant : Nat) :
    r.Settles (r.outcome panel instant).fault := by
  cases r with
  | finished => exact ⟨by simp [RunEnd.outcome], nofun⟩
  | failed reason =>
    refine ⟨by simp [RunEnd.outcome], fun _ h => ?_⟩
    cases h
    exact ⟨_, rfl, rfl⟩
  | cancelled => exact ⟨by simp [RunEnd.outcome], nofun⟩
  | stopped sweep =>
    refine ⟨?_, nofun⟩
    by_cases clean : sweep.failures = []
    · simp [RunEnd.outcome, sweepOutcome, Sweep.isClean, clean]
    · simp [RunEnd.outcome, sweepOutcome, Sweep.isClean, clean]

variable {δ : Type}

/-- **What the console comes to** when it runs a program and follows the run. -/
def Station.foreground (wiring : Wiring δ) (began : Int) (wish : Wish δ) (p : Program)
    (x : Station δ) : Watch (Station δ) :=
  ((wiring.engine x).start (wiring.surroundings began) p).follow (wiring.surroundings began) wish

/-- The dice of a station keep to the bounds. -/
theorem Wiring.drawsWithin (wiring : Wiring δ) (began : Int) :
    (wiring.surroundings began).DrawsWithin :=
  fun lo hi x le => ⟨Dice.le_roll lo hi x.dice, Dice.roll_le lo hi x.dice le⟩

/-- **The command fails as the end of the run has it**, once the run has begun. -/
theorem Station.settles_run {wiring : Wiring δ} {began : Int} {wish : Wish δ} {key : String}
    {x : Station δ} {p : Program} {r : RunEnd} (runnable : x.database.catalog.runnable key = .ok p)
    (started : ((wiring.engine x).start (wiring.surroundings began) p).replies.lookup
      Watch.startTicket = some .started)
    (ended : (x.foreground wiring began wish p).ended = some r) :
    r.Settles (x.run wiring began wish key).1.fault := by
  unfold Station.run
  simp only [runnable, started]
  show r.Settles ((x.foreground wiring began wish p).outcome wiring.panel).fault
  unfold Watch.outcome
  rw [ended]
  exact r.settles _ _

/-- **No end of a run is misreported.** Whatever the engine, its follower and others do, in whatever
order, and whatever the channel has forgotten by the time it is read: if a single run begins, an
uninterrupted follower returns the end that the run has published, as soon as it gets to read;
one that has interrupted the run returns the report of its stop, which has cancelled the run
unless that was over (`Watch.Reports`). What the console comes to when it runs a program is one
of these things, and it comes to an end, whenever it wishes to interrupt the run. Its command
therefore succeeds if the program is complete, if someone else has stopped the run and if every
output was switched off after a stop; and if the run has failed, it fails for the same reason
(`RunEnd.Settles`). -/
theorem runs_followed :
    (∀ {σ : Type} {s : Surroundings σ} {drift : σ → σ → Prop} {capacity : Nat} {world : σ}
        {p : Program} {asked : List Request} {w : Watch σ}, s.DrawsWithin →
      Watch.Followed s drift capacity world p asked w → w.sim.runs = [Watch.startTicket] →
        Watch.Reports s drift world w)
      ∧ ∀ {δ : Type} {wiring : Wiring δ} {began : Int} {wish : Wish δ} {key : String}
        {x : Station δ} {p : Program}, x.database.catalog.runnable key = .ok p →
        ((wiring.engine x).start (wiring.surroundings began) p).replies.lookup Watch.startTicket
          = some .started →
        ∃ asked w r, Watch.Followed (wiring.surroundings began) (fun _ _ => False)
            wiring.eventCapacity x p asked w
          ∧ Watch.Reports (wiring.surroundings began) (fun _ _ => False) x w
          ∧ (x.foreground wiring began wish p).forgetful = w.forgetful
          ∧ (x.foreground wiring began wish p).ended = some r ∧ w.ended = some r
          ∧ r.Settles (x.run wiring began wish key).1.fault := by
  refine ⟨fun within h only => h.reports within only, ?_⟩
  intro δ wiring began wish key x p runnable started
  have within := wiring.drawsWithin began
  have hbegan : Watch.startTicket
      ∈ begun ((wiring.engine x).start (wiring.surroundings began) p).replies := by
    obtain ⟨earlier, later, hsplit, -⟩ := List.lookup_eq_some_iff.mp started
    rw [mem_begun, hsplit]
    exact List.mem_append_right _ List.mem_cons_self
  obtain ⟨_, hstart⟩ := Watch.comes_start hbegan
  obtain ⟨r, arrives⟩ := hstart.arrives within wish
  obtain ⟨w, hcomes⟩ := hstart.follow arrives
  have ended : (x.foreground wiring began wish p).ended = some r := arrives.follow
  exact ⟨_, w, r, hcomes.followed, hcomes.followed.reports within hcomes.runs_eq, hcomes.same,
    ended, hcomes.ended_eq.symm.trans ended, Station.settles_run runnable started ended⟩

/-- A program that switches an output on. -/
def lamp : Program := ⟨"lamp", "Lamp", true, [.relay "on" .first .on]⟩

/-- A station that knows `lamp` and nothing else. -/
def lampStation : Station Unit where
  database := ⟨(Catalog.empty ⟨0⟩).put (.ofProgram lamp), .empty Journal.usualCapacity⟩
  device := ()
  ids := ⟨0⟩
  dice := ⟨0⟩

/-- Its outputs are simulated, and a single event is kept for whoever follows a run. -/
def lampWiring : Wiring Unit := ⟨.unlabelled, 1, .simulated 0, fun _ device => (.dropped, device)⟩

/-- A follower of `lamp` that reads nothing before the run is over misses all but the last event,
and returns that the program is complete; and so does the console when it runs `lamp` at a
station. -/
theorem runs_followed_lamp :
    (∃ asked w, (Rig.surroundings .unlabelled 1000 0).DrawsWithin
        ∧ Watch.Followed (Rig.surroundings .unlabelled 1000 0) (fun _ _ => False) 1 {} lamp asked w
        ∧ w.sim.runs = [Watch.startTicket]
        ∧ w.sim.published = [.stepAdvanced "Relay 1: activate", .finished]
        ∧ w.heard.map Prod.snd = [.finished] ∧ w.ended = some .finished
        ∧ Watch.Reports (Rig.surroundings .unlabelled 1000 0) (fun _ _ => False) {} w)
      ∧ lampStation.database.catalog.runnable "lamp" = .ok lamp
      ∧ ((lampWiring.engine lampStation).start (lampWiring.surroundings 0) lamp).replies.lookup
        Watch.startTicket = some .started
      ∧ (lampStation.foreground lampWiring 0 (fun _ => false) lamp).ended = some .finished
      ∧ ∃ asked w r, Watch.Followed (lampWiring.surroundings 0) (fun _ _ => False) 1 lampStation
            lamp asked w
          ∧ Watch.Reports (lampWiring.surroundings 0) (fun _ _ => False) lampStation w
          ∧ (lampStation.foreground lampWiring 0 (fun _ => false) lamp).forgetful = w.forgetful
          ∧ (lampStation.foreground lampWiring 0 (fun _ => false) lamp).ended = some r
          ∧ w.ended = some r
          ∧ r.Settles (lampStation.run lampWiring 0 (fun _ => false) "lamp").1.fault := by
  have hcapacity : Broadcast.empty 1 = (⟨1, #[]⟩ : Broadcast Event) := by
    rw [Broadcast.empty, show Nat.nextPowerOfTwo (max 1 1) = 1 by decide +kernel]
  constructor
  · have within : (Rig.surroundings .unlabelled 1000 0).DrawsWithin :=
      fun lo hi r le => ⟨Dice.le_roll lo hi r.dice, Dice.roll_le lo hi r.dice le⟩
    have hfresh : (.fresh 1 {} : Watch Rig) = { sim := { world := {} }, channel := ⟨1, #[]⟩ } := by
      rw [Watch.fresh, hcapacity]
    have h₀ : Watch.Followed (Rig.surroundings .unlabelled 1000 0) (fun _ _ => False) 1 {} lamp []
        { sim := { world := {} }, channel := ⟨1, #[]⟩ } := hfresh ▸ .fresh
    have h₁ := h₀.starts nofun
    have h₂ := h₁.stirs rfl (.happens (.takes rfl rfl) nofun rfl)
    have h₃ := h₂.stirs rfl (.happens (.lands rfl rfl) nofun rfl)
    have h₄ := h₃.stirs rfl (.happens (.goesOn rfl rfl rfl) nofun rfl)
    have h₅ := h₄.reads rfl (by decide) rfl
    have h₆ := h₅.reads rfl (by decide) rfl
    exact ⟨_, _, within, h₆, rfl, rfl, rfl, rfl, runs_followed.1 within h₆ rfl⟩
  · have valid : lamp.Valid := (Program.validate_eq_ok_iff lamp).mp (by decide)
    have read : (Catalog.Row.ofProgram lamp).toProgram? lampStation.database.catalog.ids
        = some (lamp, lampStation.database.catalog.ids) := by
      rw [Catalog.Row.toProgram?_ofProgram _ valid, if_pos (by decide)]
      rfl
    have found : lampStation.database.catalog.find? "lamp" = .ok (some lamp) :=
      Catalog.find?_of_row? (Catalog.row?_put_self (.empty ⟨0⟩) (.ofProgram lamp)) read
    have runnable : lampStation.database.catalog.runnable "lamp" = .ok lamp := by
      rw [Catalog.runnable, Catalog.resolve, found]
      rfl
    have arrives : Watch.Arrives (lampWiring.surroundings 0) (fun _ => false) .finished
        ((lampWiring.engine lampStation).start (lampWiring.surroundings 0) lamp) := by
      rw [Wiring.engine, Watch.fresh, show lampWiring.eventCapacity = 1 from rfl, hcapacity]
      -- it reads, the command takes effect, the run finds that it is complete, and it reads again
      exact .turn rfl (.turn rfl (.turn rfl (.turn rfl (.here rfl))))
    exact ⟨runnable, rfl, arrives.follow, runs_followed.2 runnable rfl⟩

end Switchboard.Console
