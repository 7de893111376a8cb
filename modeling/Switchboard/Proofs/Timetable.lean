import Switchboard.Proofs.Itinerary
import Switchboard.Proofs.Ledger

/-!
# The timetable of a run

When nothing disturbs a run, it is known in advance at which instant it publishes which
event. Switching an output takes the latency of the controller, a wait takes its seconds,
and nothing else takes any time. So a dispatch is announced when those before it are over
(`Surroundings.due`), the seconds of a wait are counted from its announcement, and the run
is finished when all dispatches are.

`Surroundings.schedule` writes this out for a `Plan` of the run: its dispatches with their
lengths, those that have been drawn so far and any others that may still be drawn. Where a run
is in its itinerary, it has published what the timetable has up to there (`Place.published`), and
nothing of what remains is overdue (`Located.schedule_eq`).
-/

namespace Switchboard.Engine

/-! ## Plans -/

/-- The number of outputs switched by dispatches. -/
def switched (timed : List (Dispatch × Nat)) : Nat := (switchings (timed.map Prod.fst)).length

/-- The seconds waited by dispatches. -/
def seconds : List (Dispatch × Nat) → Nat
  | [] => 0
  | (_, n) :: timed => n + seconds timed

theorem seconds_append (timed more : List (Dispatch × Nat)) :
    seconds (timed ++ more) = seconds timed + seconds more := by
  induction timed with
  | nil => exact (Nat.zero_add _).symm
  | cons x timed ih =>
    show x.2 + seconds (timed ++ more) = x.2 + seconds timed + seconds more
    rw [ih, Nat.add_assoc]

/-- **A plan for a run**: what a complete run carries out, with lengths that it may have
if it has drawn some already. -/
structure Plan (dispatches : List Dispatch) (signals : List Signal)
    (plan : List (Dispatch × Nat)) : Prop where
  /-- Every dispatch is planned. -/
  all : plan.map Prod.fst = dispatches
  /-- Each takes as long as it may. -/
  lasting : ∀ x ∈ plan, x.1.Lasts x.2
  /-- The lengths drawn are kept. -/
  drawn : draws signals <+: drawnLengths plan

/-- The shortest time that a dispatch may take. -/
def shortest : Dispatch → Nat
  | .relay .. => 0
  | .wait _ span => span.bounds.1

theorem lasts_shortest (d : Dispatch) : d.Lasts (shortest d) := by
  cases d with
  | relay id output power => rfl
  | wait id span =>
    cases span with
    | fixed seconds => rfl
    | random min max =>
      dsimp only [Dispatch.Lasts]
      by_cases lt : min < max
      · rw [if_pos lt]
        exact ⟨Nat.le_refl _, Nat.le_of_lt lt⟩
      · rw [if_neg lt]
        rfl

variable {p : Program} {signals : List Signal} {plan begun done : List (Dispatch × Nat)}

/-- **There is a plan**, wherever a run is. -/
theorem exists_plan (upTo : begun.map Prod.fst <+: p.route) (lasting : ∀ x ∈ begun, x.1.Lasts x.2)
    (drawn : drawnLengths begun = draws signals) : ∃ plan, Plan p.route signals plan := by
  obtain ⟨rest, hrest⟩ := upTo
  refine ⟨begun ++ rest.map fun d => (d, shortest d), ?_, fun x hx => ?_, ?_⟩
  · rw [← hrest, List.map_append, List.map_map]
    exact congrArg _ (List.map_id rest)
  · rcases List.mem_append.mp hx with hx | hx
    · exact lasting x hx
    · obtain ⟨d, -, rfl⟩ := List.mem_map.mp hx
      exact lasts_shortest d
  · rw [drawnLengths_append, drawn]
    exact List.prefix_append _ _

/-- A length that is not drawn is settled. -/
theorem lasts_unique {d : Dispatch} (settled : d.isDrawn = false) {n m : Nat} (hn : d.Lasts n)
    (hm : d.Lasts m) : n = m := by
  cases d with
  | relay id output power => exact hn.trans hm.symm
  | wait id span =>
    cases span with
    | fixed seconds => exact hn.trans hm.symm
    | random min max =>
      have nlt : ¬min < max := of_decide_eq_false settled
      rw [Dispatch.Lasts, if_neg nlt] at hn hm
      exact hn.trans hm.symm

/-- **A plan is determined by the lengths that are drawn**: dispatches that were begun as the
plan has them took as long as the plan says. -/
theorem prefix_of_drawnLengths (upTo : begun.map Prod.fst <+: plan.map Prod.fst)
    (lasting : ∀ x ∈ begun, x.1.Lasts x.2) (lasting' : ∀ x ∈ plan, x.1.Lasts x.2)
    (drawn : drawnLengths begun <+: drawnLengths plan) : begun <+: plan := by
  induction begun generalizing plan with
  | nil => exact List.nil_prefix
  | cons x begun ih =>
    cases plan with
    | nil => exact absurd (List.prefix_nil.mp upTo) (List.cons_ne_nil _ _)
    | cons y plan =>
      obtain ⟨d, n⟩ := x
      obtain ⟨d', m⟩ := y
      rw [List.map_cons, List.map_cons, List.cons_prefix_cons] at upTo
      obtain ⟨rfl : d = d', upTo⟩ := upTo
      have hn := lasting _ List.mem_cons_self
      have hm := lasting' _ List.mem_cons_self
      have htail := fun hdrawn => ih upTo (fun x hx => lasting x (List.mem_cons_of_mem _ hx))
        (fun x hx => lasting' x (List.mem_cons_of_mem _ hx)) hdrawn
      cases hd : d.isDrawn with
      | true =>
        have hcons : ∀ n rest, drawnLengths ((d, n) :: rest) = n :: drawnLengths rest := by
          intro n rest
          simp [drawnLengths, hd]
        rw [hcons, hcons, List.cons_prefix_cons] at drawn
        obtain ⟨rfl, drawn⟩ := drawn
        exact List.cons_prefix_cons.mpr ⟨rfl, htail drawn⟩
      | false =>
        have hcons : ∀ n rest, drawnLengths ((d, n) :: rest) = drawnLengths rest := by
          intro n rest
          simp [drawnLengths, hd]
        rw [hcons, hcons] at drawn
        obtain rfl := lasts_unique hd hn hm
        exact List.cons_prefix_cons.mpr ⟨rfl, htail drawn⟩

/-- What a run has begun is the first part of its plan. -/
theorem Plan.begun_prefix (h : Plan p.route signals plan) (upTo : begun.map Prod.fst <+: p.route)
    (lasting : ∀ x ∈ begun, x.1.Lasts x.2) (drawn : drawnLengths begun = draws signals) :
    begun <+: plan :=
  prefix_of_drawnLengths (h.all ▸ upTo) lasting h.lasting (drawn ▸ h.drawn)

/-! ## Instants -/

namespace Surroundings

variable {σ : Type} (s : Surroundings σ) (start : Nat)

/-- **When the dispatches of a run are over**, for the instant at which its start was taken. -/
def due (done : List (Dispatch × Nat)) : Nat :=
  start + s.latency * switched done + s.tickPeriod * seconds done

/-- **The seconds of a wait** that begins at some instant, with what is left after each. -/
def ticks (instant n : Nat) : List (Nat × Event) :=
  (List.range n).map fun k => (instant + s.tickPeriod * (k + 1), .tick (n - (k + 1)))

/-- **What is published of a dispatch** that begins at some instant. -/
def entry (instant : Nat) (x : Dispatch × Nat) : List (Nat × Event) :=
  (instant, .stepAdvanced (s.panel.words x.1)) :: s.ticks instant x.2

/-- **What is published of dispatches** behind others. -/
def timetable : List (Dispatch × Nat) → List (Dispatch × Nat) → List (Nat × Event)
  | _, [] => []
  | done, x :: rest => s.entry (s.due start done) x ++ timetable (done ++ [x]) rest

/-- **What a run publishes and when**, if nothing disturbs it. -/
def schedule (plan : List (Dispatch × Nat)) : List (Nat × Event) :=
  s.timetable start [] plan ++ [(s.due start plan, .finished)]

variable {s start}

theorem due_append (done more : List (Dispatch × Nat)) :
    s.due start (done ++ more)
      = s.due start done + s.latency * switched more + s.tickPeriod * seconds more := by
  have hswitched : switched (done ++ more) = switched done + switched more := by
    simp [switched, switchings]
  rw [due, due, hswitched, seconds_append, Nat.mul_add, Nat.mul_add]
  omega

theorem due_concat_relay (id : StepId) (output : Relay) (power : Power) :
    s.due start (done ++ [(.relay id output power, 0)]) = s.due start done + s.latency := by
  rw [due_append]
  show _ + s.latency * 1 + s.tickPeriod * 0 = _
  omega

theorem due_concat_wait (id : StepId) (span : Span) (n : Nat) :
    s.due start (done ++ [(.wait id span, n)]) = s.due start done + s.tickPeriod * n := by
  rw [due_append]
  show _ + s.latency * 0 + s.tickPeriod * n = _
  omega

theorem due_mono (h : done <+: plan) : s.due start done ≤ s.due start plan := by
  obtain ⟨more, rfl⟩ := h
  rw [due_append]
  omega

theorem timetable_append (done more rest : List (Dispatch × Nat)) :
    s.timetable start done (more ++ rest)
      = s.timetable start done more ++ s.timetable start (done ++ more) rest := by
  induction more generalizing done with
  | nil =>
    rw [List.append_nil]
    rfl
  | cons x more ih =>
    rw [List.cons_append, timetable, timetable, ih, List.append_assoc, List.append_assoc,
      List.singleton_append]

theorem timetable_concat (done : List (Dispatch × Nat)) (x : Dispatch × Nat) :
    s.timetable start [] (done ++ [x])
      = s.timetable start [] done ++ s.entry (s.due start done) x := by
  rw [timetable_append]
  exact congrArg _ (List.append_nil _)

/-- What is published of dispatches is not published before those in front of them are over. -/
theorem due_le_of_mem_timetable {e : Nat × Event} {rest : List (Dispatch × Nat)}
    (h : e ∈ s.timetable start done rest) : s.due start done ≤ e.1 := by
  induction rest generalizing done with
  | nil => cases h
  | cons x rest ih =>
    rcases List.mem_append.mp h with h | h
    · rcases List.mem_cons.mp h with rfl | h
      · exact Nat.le_refl _
      · obtain ⟨k, -, rfl⟩ := List.mem_map.mp h
        exact Nat.le_add_right _ _
    · exact Nat.le_trans (due_mono (List.prefix_append _ _)) (ih h)

theorem ticks_concat (instant : Nat) {n k : Nat} (lt : k < n) :
    (s.ticks instant n).take (k + 1) = (s.ticks instant n).take k
      ++ [(instant + s.tickPeriod * (k + 1), .tick (n - (k + 1)))] := by
  unfold ticks
  rw [← List.map_take, ← List.map_take, List.take_range, List.take_range,
    Nat.min_eq_left (Nat.succ_le_of_lt lt), Nat.min_eq_left (Nat.le_of_lt lt), List.range_succ,
    List.map_append]
  rfl

theorem ticks_take_self (instant n : Nat) : (s.ticks instant n).take n = s.ticks instant n := by
  refine List.take_of_length_le (Nat.le_of_eq ?_)
  rw [ticks, List.length_map, List.length_range]

theorem ticks_last (instant : Nat) {n : Nat} (pos : 0 < n) :
    s.ticks instant n
      = (s.ticks instant n).take (n - 1) ++ [(instant + s.tickPeriod * n, .tick 0)] := by
  have hconcat := ticks_concat (s := s) instant (Nat.sub_lt pos Nat.one_pos)
  rwa [Nat.sub_add_cancel pos, ticks_take_self, Nat.sub_self] at hconcat

/-- The seconds of a wait that are left after some of them. -/
theorem le_of_mem_ticks_drop {instant n k : Nat} {e : Nat × Event}
    (h : e ∈ (s.ticks instant n).drop k) : instant + s.tickPeriod * (k + 1) ≤ e.1 := by
  rw [ticks, List.mem_drop_iff_getElem] at h
  obtain ⟨i, hi, rfl⟩ := h
  simp only [List.getElem_map, List.getElem_range]
  exact Nat.add_le_add_left (Nat.mul_le_mul_left _ (by omega)) _

/-- **What is still to be published** when some dispatches are over and others are left. -/
def remainder (s : Surroundings σ) (start : Nat) (done rest : List (Dispatch × Nat)) :
    List (Nat × Event) :=
  s.timetable start done rest ++ [(s.due start (done ++ rest), .finished)]

theorem schedule_append (done rest : List (Dispatch × Nat)) :
    s.schedule start (done ++ rest) = s.timetable start [] done ++ s.remainder start done rest := by
  rw [schedule, timetable_append, List.append_assoc]
  rfl

theorem remainder_cons (done rest : List (Dispatch × Nat)) (x : Dispatch × Nat) :
    s.remainder start done (x :: rest)
      = s.entry (s.due start done) x ++ s.remainder start (done ++ [x]) rest := by
  rw [remainder, timetable, remainder, List.append_assoc, List.append_assoc, List.singleton_append]

theorem due_le_of_mem_remainder {e : Nat × Event} {rest : List (Dispatch × Nat)}
    (h : e ∈ s.remainder start done rest) : s.due start done ≤ e.1 := by
  rcases List.mem_append.mp h with h | h
  · exact due_le_of_mem_timetable h
  · rw [List.mem_singleton.mp h]
    exact due_mono (List.prefix_append _ _)

theorem remainder_ne_nil (done rest : List (Dispatch × Nat)) :
    s.remainder start done rest ≠ [] :=
  List.concat_ne_nil _ _

end Surroundings

/-! ## Places in the timetable -/

variable {σ : Type} {s : Surroundings σ} {start : Nat} {place : Place} {phase : Phase}

/-- **What a run has published** at a place. -/
def Place.published (s : Surroundings σ) (start : Nat) (place : Place) : List (Nat × Event) :=
  match place.stage with
  | .drawing _ _ => s.timetable start [] place.done
    ++ [(s.due start place.done, .stepAdvanced waitingWords)]
  | .calling id output power => s.timetable start [] place.done
    ++ [(s.due start place.done, .stepAdvanced (s.panel.words (.relay id output power)))]
  | .waiting _ _ length left => s.timetable start [] place.done
    ++ (s.due start place.done, .stepAdvanced waitingWords)
      :: (s.ticks (s.due start place.done) length).take (length - left)
  | .between => s.timetable start [] place.done
  | .ended => s.schedule start place.done

/-- **When a run leaves a place.** -/
def Place.leaves (s : Surroundings σ) (start : Nat) (place : Place) : Nat :=
  match place.stage with
  | .calling _ _ _ => s.due start place.done + s.latency
  | .waiting _ _ length left => s.due start place.done + s.tickPeriod * (length - left + 1)
  | _ => s.due start place.done

/-! ### From one place to the next -/

section Next

variable {done : List (Dispatch × Nat)} {id : StepId} {span : Span} {output : Relay}
  {power : Power} {n m : Nat}

/-- A command takes its latency. -/
theorem Place.leaves_confirmed :
    Place.leaves s start ⟨done ++ [(.relay id output power, 0)], .between⟩
      = Place.leaves s start ⟨done, .calling id output power⟩ :=
  Surroundings.due_concat_relay id output power

theorem Place.published_confirmed :
    Place.published s start ⟨done ++ [(.relay id output power, 0)], .between⟩
      = Place.published s start ⟨done, .calling id output power⟩ :=
  Surroundings.timetable_concat done _

/-- A wait of no length takes no time. -/
theorem Place.leaves_skipped :
    Place.leaves s start ⟨done ++ [(.wait id span, 0)], .between⟩
      = Place.leaves s start ⟨done, .drawing id span⟩ :=
  Surroundings.due_concat_wait id span 0

theorem Place.published_skipped :
    Place.published s start ⟨done ++ [(.wait id span, 0)], .between⟩
      = Place.published s start ⟨done, .drawing id span⟩ :=
  Surroundings.timetable_concat done _

/-- The first second of a wait begins with its announcement. -/
theorem Place.leaves_counting :
    Place.leaves s start ⟨done, .waiting id span n n⟩
      = Place.leaves s start ⟨done, .drawing id span⟩ + s.tickPeriod := by
  show s.due start done + s.tickPeriod * (n - n + 1) = _
  rw [Nat.sub_self, Nat.zero_add, Nat.mul_one]
  rfl

theorem Place.published_counting :
    Place.published s start ⟨done, .waiting id span n n⟩
      = Place.published s start ⟨done, .drawing id span⟩ := by
  show s.timetable start [] done ++ _ :: (s.ticks _ n).take (n - n) = _
  rw [Nat.sub_self]
  rfl

/-- Each further second begins where the last one is over. -/
theorem Place.leaves_ticked (lt : m < n) :
    Place.leaves s start ⟨done, .waiting id span n m⟩
      = Place.leaves s start ⟨done, .waiting id span n (m + 1)⟩ + s.tickPeriod := by
  show s.due start done + s.tickPeriod * (n - m + 1)
    = s.due start done + s.tickPeriod * (n - (m + 1) + 1) + s.tickPeriod
  rw [show n - m = n - (m + 1) + 1 by omega, Nat.mul_succ _ (n - (m + 1) + 1), Nat.add_assoc]

theorem Place.published_ticked (lt : m < n) :
    Place.published s start ⟨done, .waiting id span n m⟩
      = Place.published s start ⟨done, .waiting id span n (m + 1)⟩
        ++ [(Place.leaves s start ⟨done, .waiting id span n (m + 1)⟩, .tick m)] := by
  show s.timetable start [] done ++ _ :: (s.ticks _ n).take (n - m)
    = s.timetable start [] done ++ _ :: (s.ticks _ n).take (n - (m + 1)) ++ [(_, .tick m)]
  rw [show n - m = n - (m + 1) + 1 by omega, Surroundings.ticks_concat _ (by omega),
    List.append_assoc, List.cons_append, show n - (n - (m + 1) + 1) = m by omega]
  rfl

/-- A wait is over with its last second. -/
theorem Place.leaves_rung (pos : 0 < n) :
    Place.leaves s start ⟨done ++ [(.wait id span, n)], .between⟩
      = Place.leaves s start ⟨done, .waiting id span n 1⟩ := by
  show s.due start (done ++ [(.wait id span, n)]) = s.due start done + s.tickPeriod * (n - 1 + 1)
  rw [Surroundings.due_concat_wait, Nat.sub_add_cancel pos]

theorem Place.published_rung (pos : 0 < n) :
    Place.published s start ⟨done ++ [(.wait id span, n)], .between⟩
      = Place.published s start ⟨done, .waiting id span n 1⟩
        ++ [(Place.leaves s start ⟨done, .waiting id span n 1⟩, .tick 0)] := by
  show s.timetable start [] (done ++ [(.wait id span, n)])
    = s.timetable start [] done ++ _ :: (s.ticks _ n).take (n - 1)
      ++ [(s.due start done + s.tickPeriod * (n - 1 + 1), .tick 0)]
  rw [Surroundings.timetable_concat, Nat.sub_add_cancel pos, List.append_assoc]
  exact congrArg (s.timetable start [] done ++ _ :: ·) (Surroundings.ticks_last _ pos)

end Next

/-- **What a run has published is the first part of its schedule**, and what is left of that
comes when the run leaves its place, or later. -/
theorem Located.schedule_eq (h : Located p phase place) (hplan : Plan p.route signals plan)
    (drawn : drawnLengths place.begun = draws signals)
    (whole : place.stage = .ended → place.done.map Prod.fst = p.route) :
    ∃ ahead, s.schedule start plan = place.published s start ++ ahead
      ∧ (∀ e ∈ ahead, place.leaves s start ≤ e.1) ∧ (place.stage = .ended ↔ ahead = []) := by
  obtain ⟨rest, rfl⟩ := hplan.begun_prefix h.begun.1 h.begun.2 drawn
  have hall := hplan.all
  cases h with
  | @drawing run done id min max within lt =>
    -- the plan has a length for the dispatch that the run is about to draw
    rw [Place.begun_drawing, within.upTo, List.map_append, List.append_cancel_left_eq] at hall
    obtain ⟨⟨d, n⟩, rest, rfl, rfl, -⟩ := List.map_eq_cons_iff.mp hall
    rw [Place.begun_drawing, Surroundings.schedule_append, Surroundings.remainder_cons,
      Surroundings.entry, List.cons_append, List.append_cons]
    refine ⟨_, rfl, fun e he => ?_, iff_of_false Stage.noConfusion ?_⟩
    · rcases List.mem_append.mp he with he | he
      · exact Nat.le_trans (Nat.le_add_right _ _)
          (Surroundings.le_of_mem_ticks_drop (show e ∈ (s.ticks _ n).drop 0 from he))
      · exact Nat.le_trans (Surroundings.due_mono (List.prefix_append _ _))
          (Surroundings.due_le_of_mem_remainder he)
    · exact List.append_ne_nil_of_right_ne_nil _ (Surroundings.remainder_ne_nil _ _)
  | @calling run done id output power within =>
    rw [Place.begun_calling, Surroundings.schedule_append, Surroundings.timetable_concat]
    refine ⟨_, rfl, fun e he => ?_,
      iff_of_false Stage.noConfusion (Surroundings.remainder_ne_nil _ _)⟩
    have hle := Surroundings.due_le_of_mem_remainder he
    rwa [Surroundings.due_concat_relay] at hle
  | @waiting run done id span n m within lasts pos le =>
    rw [Place.begun_waiting, Surroundings.schedule_append, Surroundings.timetable_concat,
      Surroundings.entry, ← List.take_append_drop (n - m) (s.ticks _ n), ← List.cons_append,
      ← List.append_assoc, List.append_assoc]
    refine ⟨_, rfl, fun e he => ?_, iff_of_false Stage.noConfusion ?_⟩
    · rcases List.mem_append.mp he with he | he
      · exact Surroundings.le_of_mem_ticks_drop he
      · have hle := Surroundings.due_le_of_mem_remainder he
        rw [Surroundings.due_concat_wait] at hle
        exact Nat.le_trans (Nat.add_le_add_left (Nat.mul_le_mul_left _ (by omega)) _) hle
    · exact List.append_ne_nil_of_right_ne_nil _ (Surroundings.remainder_ne_nil _ _)
  | @between run done behind =>
    rw [Place.begun_between, Surroundings.schedule_append]
    exact ⟨_, rfl, fun e he => Surroundings.due_le_of_mem_remainder he,
      iff_of_false Stage.noConfusion (Surroundings.remainder_ne_nil _ _)⟩
  | @ended _ done inactive upTo lasting =>
    rw [Place.begun_ended, List.map_append, ← whole rfl, List.append_right_eq_self] at hall
    rw [Place.begun_ended, List.map_eq_nil_iff.mp hall, List.append_nil]
    exact ⟨[], (List.append_nil _).symm, nofun, iff_of_true rfl rfl⟩

end Switchboard.Engine
