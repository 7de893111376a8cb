import Switchboard.Proofs.Display
import Switchboard.Proofs.Turns

/-!
# The console comes to the end of a run

The console takes turns until none is left, and it has none left once it knows how the run ended.
That it gets there is not to be seen from its turns alone (`Watch.next`): a run may be as long as
it likes, and time may have to pass before anything happens.

Each turn either brings the engine further, or it makes the time shorter for which the console can
idle (`Watch.Turn`). There is always another turn, since an engine with nothing to do is idle, so
that there is an end to read or an answer to a stop (`Comes.goesOn`). As long as nobody interrupts
it, a run gets further on until it has ended (`Place.Further`), and then what is left is to be read
(`Concludes`); and the answer to a stop comes about whatever happens (`Kept.inevitable`).
-/

namespace Switchboard

variable {σ : Type}

namespace Engine

/-- A run that has begun and does not go on has published how it ended. -/
theorem OneRun.exists_terminal {phase : Phase} {ts : List Ticket} {es : List Event}
    (h : OneRun phase ts es) (began : ts ≠ []) (rests : phase.isActive = false) :
    ∃ e ∈ es, e.isTerminal = true := by
  cases h with
  | before => exact absurd rfl began
  | since told =>
    cases told with
    | ongoing active unended =>
      rw [rests] at active
      cases active
    | concluded _ last =>
      obtain ⟨shown, e, rfl, -, terminal⟩ := last
      exact ⟨e, List.mem_append_right _ (List.mem_singleton_self e), terminal⟩

end Engine

namespace Console.Watch

open Engine Engine.Simulation

variable {s : Surroundings σ} {capacity : Nat} {world : σ} {p : Program} {wish : Watch σ → Bool}
  {u v w : Watch σ} {r : RunEnd}

/-- **The console arrives at an end of the run**: after finitely many turns it knows of it. -/
inductive Arrives (s : Surroundings σ) (wish : Watch σ → Bool) (r : RunEnd) : Watch σ → Prop where
  /-- It knows how the run ended. -/
  | here {w : Watch σ} (now : w.ended = some r) : Arrives s wish r w
  /-- It takes another turn. -/
  | turn {w later : Watch σ} (next : w.next s wish = some later)
      (arrives : Arrives s wish r later) : Arrives s wish r w

/-- No turn is left once the run has ended. -/
theorem next_of_ended (now : w.ended = some r) : w.next s wish = none := by
  have hmove : ∀ m, w.move s m = none := by
    intro m
    exact if_pos (now ▸ rfl)
  simp [next, hmove]

/-- **Following the run is arriving at its end.** -/
theorem Arrives.follow (h : Arrives s wish r w) : (w.follow s wish).ended = some r := by
  induction h with
  | here now => rwa [follow_of_next_eq_none (next_of_ended now)]
  | turn next arrives ih => rwa [follow_of_next_eq_some next]

/-- What can be read is read first. -/
theorem next_of_read (going : w.ended = none) (read : w.read? = some u) :
    w.next s wish = some u := by
  have hmove : w.move s .read = w.read? := if_neg (going ▸ Bool.false_ne_true)
  rw [next, hmove, read]
  rfl

/-- **No turn is left** only if there is nothing to read, the engine has nothing to do, and it waits
for nothing. -/
theorem of_next_eq_none (going : w.ended = none) (h : w.next s wish = none) :
    w.read? = none ∧ turn s w.sim.forgetting = none ∧ w.sim.nextDue = none := by
  have hgoing : ¬w.ended.isSome = true := going ▸ Bool.false_ne_true
  have hread : w.move s .read = w.read? := if_neg hgoing
  have hengine : w.move s .engine = w.engine? s := if_neg hgoing
  have hwait : w.move s .wait = if (w.engine? s).isSome then none else w.wait? := if_neg hgoing
  simp only [next, Option.orElse_eq_or, Option.or_eq_none_iff, hread, hengine] at h
  obtain ⟨hnoread, hrests, hlast⟩ := h
  have hnowait : w.move s .wait = none := by
    split at hlast
    · exact (Option.or_eq_none_iff.mp hlast).2
    · exact hlast
  rw [hwait, hrests] at hnowait
  exact ⟨hnoread, Option.map_eq_none_iff.mp hrests, Option.map_eq_none_iff.mp hnowait⟩

namespace Comes

/-! ## There is always another turn -/

/-- **An uninterrupted run that is over** has published an end that is going to be read. -/
theorem concludes (within : s.DrawsWithin) (h : Comes s capacity world p w v)
    (uninterrupted : w.interrupted = false) (rests : w.sim.phase.isActive = false) :
    ∃ r, Concludes s (fun _ _ => False) r w := by
  have hone := h.followed.kept.oneRun (Nat.le_of_eq (congrArg List.length h.runs_eq))
  obtain ⟨e, he, terminal⟩ := hone.exists_terminal (List.ne_nil_of_mem h.began) rests
  obtain ⟨r, tells⟩ := Option.isSome_iff_exists.mp ((RunEnd.isSome_ofEvent? e).trans terminal)
  exact ⟨r, (h.followed.reports within h.runs_eq).concludes uninterrupted e he r tells⟩

/-- **A stop that has been taken and is not being carried out** has been answered. -/
theorem ended_of_idle (within : s.DrawsWithin) (h : Comes s capacity world p w v)
    (interrupted : w.interrupted = true) (idle : w.sim.phase = .idle)
    (empty : w.sim.pending = []) : ∃ r, w.ended = some r := by
  obtain ⟨signals, hb⟩ := h.followed.kept.booked
  have hgiven : (w.asked p).length ≤ (Engine.replies w.sim.effects).length := by
    rw [← hb.answerCount_eq, answerCount, idle, empty]
    exact Nat.le_refl _
  have hstop : .stop stopTicket ∈ w.asked p := by
    rw [asked, if_pos interrupted]
    exact List.mem_cons_of_mem _ (List.mem_singleton_self _)
  obtain ⟨⟨ticket, reply⟩, ha, hanswered⟩ := hb.exists_answer (List.prefix_refl _) hgiven hstop
  cases hanswered with
  | stop t sweep =>
    exact ⟨_, ((h.followed.reports within h.runs_eq).stopped interrupted _).mpr ⟨sweep, rfl, ha⟩⟩

/-- What the console can read is there to be read in what it has come to. -/
theorem read (h : Comes s capacity world p w v) (going : w.ended = none) (read : w.read? = some u) :
    ∃ v', v.read? = some v' ∧ Comes s capacity world p u v' := by
  have hread : v.read?.map forgetful = some u.forgetful := by
    rw [h.read?_eq, read]
    rfl
  obtain ⟨v', hv', same⟩ := Option.map_eq_some_iff.mp hread
  exact ⟨v', hv', h.reads going read same⟩

/-- **Until the console knows how the run ended, there is another turn to take.** -/
theorem goesOn (within : s.DrawsWithin) (h : Comes s capacity world p w v)
    (going : v.ended = none) (wish : Watch σ → Bool) : ∃ u, v.next s wish = some u := by
  rw [← Option.isSome_iff_exists, Option.isSome_iff_ne_none]
  intro stuck
  obtain ⟨hnoread, hrests, hnothing⟩ := of_next_eq_none going stuck
  have going' : w.ended = none := h.ended_eq ▸ going
  have hsim : v.sim.forgetting = w.sim.forgetting := congrArg Watch.sim h.same
  rw [hsim] at hrests
  obtain ⟨idle, empty⟩ : w.sim.forgetting.phase = .idle ∧ w.sim.forgetting.pending = [] :=
    idle_of_standstill within h.followed.kept.sound.forgetting h.followed.kept.held h.isSome_timer
      hrests ((congrArg nextDue hsim).symm.trans hnothing)
  have rests : w.sim.phase.isActive = false := congrArg Phase.isActive idle
  cases interrupted : w.interrupted with
  | true =>
    obtain ⟨r, hr⟩ := h.ended_of_idle within interrupted idle empty
    rw [hr] at going'
    cases going'
  | false =>
    obtain ⟨r, hconcludes⟩ := h.concludes within interrupted rests
    cases hconcludes with
    | here now =>
      rw [now] at going'
      cases going'
    | ahead readable soon =>
      obtain ⟨-, u, read⟩ := readable ⟨.refl, h.runs_eq⟩
      obtain ⟨v', hread, -⟩ := h.read going' read
      rw [hread] at hnoread
      cases hnoread

/-! ## The ways to the end -/

/-- **The console does not idle for ever**: it arrives at an end if it does so from wherever the
engine takes notice of something next, or the follower interrupts the run. -/
theorem arrives_of_turns (within : s.DrawsWithin) (h : Comes s capacity world p w v)
    (notices : ∀ {w' v' u signal y}, Comes s capacity world p w' v' →
      Course s (fun _ _ => False) w.sim [] w'.sim → w'.interrupted = w.interrupted →
      Happens s (fun _ _ => False) w'.sim (some signal) y →
      Comes s capacity world p (w'.after y) u → ∃ r, Arrives s wish r u)
    (interrupts : ∀ {w' u}, w.interrupted = false → w'.interrupted = true →
      Comes s capacity world p w' u → ∃ r, Arrives s wish r u) :
    ∃ r, Arrives s wish r v := by
  generalize hleft : v.leisure = left
  induction left using Nat.strongRecOn generalizing w v with
  | _ left ih =>
    cases going : v.ended with
    | some r => exact ⟨r, .here going⟩
    | none =>
      obtain ⟨u, next⟩ := h.goesOn within going wish
      obtain ⟨r, arrives⟩ : ∃ r, Arrives s wish r u := by
        cases h.turn next with
        | @idles w' comes unnoticed interrupted less =>
          refine ih _ (hleft ▸ less) comes ?_ ?_ rfl
          · intro w'' v' u' signal y comes' course same
            exact notices comes' (unnoticed.trans course) (same.trans interrupted)
          · exact fun before => interrupts (interrupted ▸ before)
        | notices next comes => exact notices h .refl rfl next comes
        | interrupts before after comes => exact interrupts before after comes
      exact ⟨r, .turn next arrives⟩

/-- **Whoever has interrupted the run** arrives at the report of the stop. -/
theorem arrives_of_interrupted (within : s.DrawsWithin) (h : Comes s capacity world p w v)
    (interrupted : w.interrupted = true) : ∃ r, Arrives s wish r v := by
  have hinevitable := h.followed.kept.inevitable within interrupted
  generalize hsim : w.sim = x at hinevitable
  induction hinevitable generalizing w v with
  | here now =>
    subst hsim
    obtain ⟨sweep, ha⟩ := now
    have ended := ((h.followed.reports within h.runs_eq).stopped interrupted (.stopped sweep)).mpr
      ⟨sweep, rfl, ha⟩
    exact ⟨_, .here (h.ended_eq.trans ended)⟩
  | ahead possible soon ih =>
    subst hsim
    refine h.arrives_of_turns within ?_ ?_
    · intro w' v' u signal y _ course same next comes
      exact ih course next comes ((after_same next).2.trans (same.trans interrupted))
        (after_same next).1
    · intro w' u uninterrupted
      rw [interrupted] at uninterrupted
      cases uninterrupted

/-- **Whoever has something to read that tells of an end** arrives there. -/
theorem arrives_of_concludes (h : Comes s capacity world p w v)
    (concludes : Concludes s (fun _ _ => False) r w) : Arrives s wish r v := by
  induction concludes generalizing v with
  | here now => exact .here (h.ended_eq.trans now)
  | ahead readable soon ih =>
    obtain ⟨going, u, read⟩ := readable ⟨.refl, h.runs_eq⟩
    obtain ⟨v', read', comes⟩ := h.read going read
    exact .turn (next_of_read (h.ended_eq.trans going) read') (ih ⟨.refl, h.runs_eq⟩ read comes)

/-- Nobody else asks for anything, so that nothing waits behind a run that nobody interrupts. -/
theorem pending_eq_nil (h : Comes s capacity world p w v) (uninterrupted : w.interrupted = false) :
    w.sim.pending = [] := by
  obtain ⟨signals, hb⟩ := h.followed.kept.booked
  obtain ⟨served, htaken, hserved⟩ := hb.answered
  have hasked := hb.accepted
  rw [asked, if_neg (Bool.eq_false_iff.mp uninterrupted)] at hasked
  obtain ⟨hnone, -⟩ | ⟨-, hempty⟩ := List.singleton_eq_append_iff.mp hasked
  · -- the start has been answered, so that it has been taken
    rw [hnone] at htaken
    rw [(List.append_eq_nil_iff.mp htaken.symm).1] at hserved
    have hbegan := h.began
    rw [Simulation.runs, List.forall₂_nil_left_iff.mp hserved] at hbegan
    cases hbegan
  · exact hempty

/-- **Nothing disturbs a run that nobody interrupts**: the engine takes no request, and it is not
abandoned. -/
theorem undisturbed {signal : Signal} {y : Simulation σ} (h : Comes s capacity world p w v)
    (uninterrupted : w.interrupted = false)
    (next : Happens s (fun _ _ => False) w.sim (some signal) y) :
    signal.request? = none ∧ signal.isHalt = false := by
  have untaken : signal.request? = none := by
    have hpending := next.keeps.pending
    rw [h.pending_eq_nil uninterrupted] at hpending
    exact Option.toList_eq_nil_iff.mp (List.append_eq_nil_iff.mp hpending.symm).1
  refine ⟨untaken, ?_⟩
  cases signal with
  | request r => cases untaken
  | abandoned =>
    cases next with
    | abandons alone fed =>
      have hheld := h.followed.kept.held
      rw [(of_isAbandoned alone).1] at hheld
      cases hheld
  | _ => rfl

/-- **A run that nobody interrupts gets further on** until it has ended, and its end is read. -/
theorem arrives_of_located (within : s.DrawsWithin) (h : Comes s capacity world p w v)
    (uninterrupted : w.interrupted = false) {q : Program} {place : Place}
    (located : Located q w.sim.phase place) : ∃ r, Arrives s wish r v := by
  induction place using (Place.wellFounded_further q).induction generalizing w v with
  | _ place ih =>
    cases active : w.sim.phase.isActive with
    | false =>
      obtain ⟨r, hconcludes⟩ := h.concludes within uninterrupted active
      exact ⟨r, h.arrives_of_concludes hconcludes⟩
    | true =>
      refine h.arrives_of_turns within ?_
        fun _ after comes => comes.arrives_of_interrupted within after
      intro w' v' u signal y comes' course same next comes
      have hphase : w'.sim.phase = w.sim.phase :=
        @Course.unnoticed _ _ _ _ _ (fun x => x.phase = w.sim.phase) course rfl
          fun hv hw => hw.unnoticed.phase.trans hv
      obtain ⟨effects, hn⟩ := next.noticed
      obtain ⟨place', hleg, located'⟩ := (hphase ▸ located).leg (hphase ▸ active) hn.step
      obtain ⟨untaken, calm⟩ := comes'.undisturbed (same.trans uninterrupted) next
      have further : Place.Further q place' place :=
        hleg.further located'.length_le (by rintro t q rfl; cases untaken) calm
      obtain ⟨hsim, hinterrupted⟩ := after_same next
      refine ih place' further comes (hinterrupted.trans (same.trans uninterrupted)) ?_
      rw [hsim]
      exact located'

/-- **The console arrives at an end of the run**, wherever it is. -/
theorem arrives (within : s.DrawsWithin) (h : Comes s capacity world p w v)
    (wish : Watch σ → Bool) : ∃ r, Arrives s wish r v := by
  cases interrupted : w.interrupted with
  | true => exact h.arrives_of_interrupted within interrupted
  | false =>
    obtain ⟨signals, hd⟩ := h.followed.kept.dealings
    obtain ⟨rests, -⟩ | ⟨-, _, x, t, q, since, -, -, run, ne⟩ := hd.course.rests_or_runs
    · obtain ⟨r, hconcludes⟩ := h.concludes within interrupted rests
      exact ⟨r, h.arrives_of_concludes hconcludes⟩
    · obtain ⟨place, own, hshown⟩ := run.shown ne
      exact h.arrives_of_located within interrupted hshown.located

/-- **What the console comes to in the end** can come about. -/
theorem follow (h : Comes s capacity world p w v) (arrives : Arrives s wish r v) :
    ∃ w', Comes s capacity world p w' (v.follow s wish) := by
  induction arrives generalizing w with
  | here now =>
    rw [follow_of_next_eq_none (next_of_ended now)]
    exact ⟨w, h⟩
  | turn next arrives ih =>
    rw [follow_of_next_eq_some next]
    cases h.turn next with
    | idles comes _ _ _ => exact ih comes
    | notices _ comes => exact ih comes
    | interrupts _ _ comes => exact ih comes

end Comes

end Console.Watch

end Switchboard
