import Switchboard.Proofs.StepRules

/-!
# Which documents are accepted

A document may leave anything out, and may have any number of faults at once. It is
accepted exactly if it has steps, every step that is reached keeps the rules of its type,
the name can be seen and no identifier is used twice (`ProgramDocument.Acceptable`).
Otherwise the first fault is reported (`ProgramDocument.FirstFault`). Two rounds look for
it: the steps are converted, depth first, each before what is inside it, and only when all
of them have been are the name and the identifiers looked at.

Fields that do not belong to the type of a step never matter, the body of a step that is no
loop included: a document without them (`ProgramDocument.stripped`) comes to the same.
-/

namespace Switchboard

/-! ## Faults in order -/

/-- **The first fault among steps in order** is found at a step whose identifier was seen
before it, or else at one that is not sound by itself. -/
theorem Step.firstFault?_eq_some_iff (seen : List StepId) (ss : List Step) (fault : Malformed) :
    firstFault? seen ss = some fault
      ↔ ∃ before s after, ss = before ++ s :: after ∧ firstFault? seen before = none
        ∧ if s.id ∈ seen ∨ s.id ∈ before.map id then fault = .duplicateStepId s.id
          else s.fault? = some fault := by
  induction ss generalizing seen with
  | nil =>
    refine ⟨nofun, ?_⟩
    rintro ⟨before, s, after, split, -⟩
    cases (List.append_eq_nil_iff.mp split.symm).2
  | cons s ss ih =>
    -- what is found at the first step, and what in front of a later one
    have hhead : (∃ before q after, s :: ss = before ++ q :: after ∧ firstFault? seen before = none
          ∧ if q.id ∈ seen ∨ q.id ∈ before.map id then fault = .duplicateStepId q.id
            else q.fault? = some fault)
        ↔ (if s.id ∈ seen then fault = .duplicateStepId s.id else s.fault? = some fault)
          ∨ ∃ before q after, ss = before ++ q :: after ∧ firstFault? seen (s :: before) = none
            ∧ if q.id ∈ seen ∨ q.id ∈ (s :: before).map id then fault = .duplicateStepId q.id
              else q.fault? = some fault := by
      constructor
      · rintro ⟨before, q, after, split, hnone, hq⟩
        cases before with
        | nil =>
          obtain ⟨rfl, -⟩ := List.cons.inj split
          left
          simpa using hq
        | cons b before =>
          obtain ⟨rfl, later⟩ := List.cons.inj split
          exact .inr ⟨before, q, after, later, hnone, hq⟩
      · rintro (hs | ⟨before, q, after, rfl, hnone, hq⟩)
        · exact ⟨[], s, ss, rfl, rfl, by simpa using hs⟩
        · exact ⟨s :: before, q, after, rfl, hnone, hq⟩
    rw [hhead]
    simp only [firstFault?]
    by_cases hseen : s.id ∈ seen
    · simp [hseen, eq_comm]
    · cases hfault : s.fault? with
      | some f => simp [hseen]
      | none =>
        simp only [hseen, if_false, ih]
        simp [or_left_comm, or_assoc]

/-- Among steps that are sound by themselves, the first fault is an identifier that is used
again. -/
theorem Step.firstFault?_of_sound {ss : List Step} (sound : ∀ s ∈ ss, s.fault? = none)
    (fault : Malformed) :
    firstFault? [] ss = some fault
      ↔ ∃ before i after, ss.map id = before ++ i :: after ∧ before.Nodup ∧ i ∈ before
        ∧ fault = .duplicateStepId i := by
  rw [firstFault?_eq_some_iff]
  constructor
  · rintro ⟨before, s, after, rfl, hnone, hs⟩
    obtain ⟨-, hdistinct, -⟩ := (firstFault?_eq_none_iff [] before).mp hnone
    rw [List.forall_mem_append, List.forall_mem_cons] at sound
    split at hs
    · rename_i again
      exact ⟨before.map id, s.id, after.map id, by simp, hdistinct, by simpa using again, hs⟩
    · rw [sound.2.1] at hs
      cases hs
  · rintro ⟨before, i, after, split, distinct, again, rfl⟩
    obtain ⟨before, rest, rfl, rfl, hrest⟩ := List.map_eq_append_iff.mp split
    obtain ⟨s, after, rfl, rfl, rfl⟩ := List.map_eq_cons_iff.mp hrest
    rw [List.forall_mem_append] at sound
    refine ⟨before, s, after, rfl, ?_, ?_⟩
    · exact (firstFault?_eq_none_iff [] before).mpr ⟨by simp, distinct, sound.1⟩
    · rw [if_pos (.inr again)]

/-- **What is wrong with a program**: its name, or else the first fault among its steps. -/
theorem Program.validate_eq_error_iff (p : Program) (fault : Malformed) :
    p.validate = .error fault
      ↔ (∀ c ∈ p.name.toList, Text.isBlank c = true) ∧ fault = .emptyName
        ∨ (∃ c ∈ p.name.toList, Text.isBlank c = false)
          ∧ Step.firstFault? [] p.walk = some fault := by
  have hname : (∃ c ∈ p.name.toList, Text.isBlank c = false)
      ↔ ¬ ∀ c ∈ p.name.toList, Text.isBlank c = true := by
    simp only [not_forall, Bool.not_eq_true, exists_prop]
  rw [hname]
  unfold validate Text.isAllBlank
  by_cases blank : ∀ c ∈ p.name.toList, Text.isBlank c = true
  · rw [if_pos (List.all_eq_true.mpr blank)]
    constructor
    · rintro ⟨⟩
      exact .inl ⟨blank, rfl⟩
    · rintro (⟨-, rfl⟩ | ⟨visible, -⟩)
      · rfl
      · exact absurd blank visible
  · rw [if_neg (fun h => blank (List.all_eq_true.mp h))]
    cases Step.firstFault? [] p.walk with
    | none => simp [blank]
    | some f => simp [blank]

/-! ## Fields that do not matter -/

namespace StepDocument

variable {ι : Type}

/-- A wait step without the fields that do not belong to its type of wait. -/
def strippedWait (id : ι) (dt : Option String) (dur lo hi : Option Int) : StepDocument ι :=
  match dt with
  | none => mk id (some "wait") none none none dur none none none none
  | some "fixed" => mk id (some "wait") none none dt dur none none none none
  | some "random" => mk id (some "wait") none none dt none lo hi none none
  | some _ => mk id (some "wait") none none dt none none none none none

mutual

/-- **A step without the fields that do not belong to its type**, and the steps inside it
likewise. -/
def stripped : StepDocument ι → StepDocument ι
  | mk id type r a dt dur lo hi n body =>
    match type with
    | some "relay" => mk id type r a none none none none none none
    | some "wait" => strippedWait id dt dur lo hi
    | some "loop" => mk id type none none none none none none n (strippedBody body)
    | _ => mk id type none none none none none none none none

/-- The body of a loop without the fields that do not belong there. -/
def strippedBody : Option (List (StepDocument ι)) → Option (List (StepDocument ι))
  | none => none
  | some steps => some (strippedAll steps)

/-- Steps without the fields that do not belong there. -/
def strippedAll : List (StepDocument ι) → List (StepDocument ι)
  | [] => []
  | d :: rest => stripped d :: strippedAll rest

end

theorem toStep_strippedWait (id : StepId) (dt : Option String) (dur lo hi : Option Int) :
    toStep (strippedWait id dt dur lo hi) = toWait id dt dur lo hi := by
  unfold strippedWait
  split
  · rfl
  · rfl
  · rfl
  · rename_i label not_fixed not_random
    show toWait id (some label) none none none = _
    unfold toWait
    split <;> simp_all

mutual

/-- **Fields that do not belong to the type of a step never matter.** -/
theorem toStep_stripped (d : StepDocument String) : toStep d.stripped = toStep d := by
  match d with
  | mk id type r a dt dur lo hi n body =>
    rcases type_cases type with rfl | rfl | rfl | rfl | ⟨label, rfl, other⟩
    · rfl
    · rfl
    · rw [stripped, toStep]
      exact toStep_strippedWait id dt dur lo hi
    · rw [stripped, toStep, toStep]
      cases toIterations id n with
      | error fault => rfl
      | ok m =>
        match body with
        | none => rfl
        | some steps =>
          show toLoop id m (some (strippedAll steps)) = toLoop id m (some steps)
          rw [toLoop, toLoop, toSteps_strippedAll]
    · have hself : stripped (mk id (some label) r a dt dur lo hi n body)
          = mk id (some label) none none none none none none none none := by
        rw [stripped] <;> (rintro ⟨⟩; simp at other)
      rw [hself, toStep_of_unknown other, toStep_of_unknown other]

theorem toSteps_strippedAll (ds : List (StepDocument String)) :
    toSteps (strippedAll ds) = toSteps ds := by
  match ds with
  | [] => rfl
  | d :: ds => rw [strippedAll, toSteps, toSteps, toStep_stripped, toSteps_strippedAll]

end

end StepDocument

/-! ## Documents -/

namespace ProgramDocument

open StepDocument (reachedAll)

/-- **A document that is accepted.** -/
structure Acceptable (doc : ProgramDocument String) : Prop where
  /-- It has steps, those that are reached keep the rules of their types, and no two of them
  have the same identifier. -/
  steps : ∃ ds, doc.steps = some ds ∧ (∀ d ∈ reachedAll ds, d.Sound)
    ∧ ((reachedAll ds).map StepDocument.id).Nodup
  /-- The name has a character that is not blank. -/
  name_visible : ∃ c ∈ (doc.name.getD "Imported program").toList, Text.isBlank c = false

/-- **The first fault of a document.** -/
inductive FirstFault (doc : ProgramDocument String) : Malformed → Prop where
  /-- It has no steps. -/
  | noSteps (none : doc.steps = none) : FirstFault doc .missingSteps
  /-- A step breaks the rules of its type, and no step before it does. -/
  | step {ds before after : List (StepDocument String)} {d : StepDocument String}
      {fault : Malformed} (some : doc.steps = some ds)
      (split : reachedAll ds = before ++ d :: after) (sound : ∀ q ∈ before, q.Sound)
      (breaks : d.Breaks fault) : FirstFault doc fault
  /-- All steps keep their rules, but the name is blank. -/
  | blankName {ds : List (StepDocument String)} (some : doc.steps = some ds)
      (sound : ∀ d ∈ reachedAll ds, d.Sound)
      (blank : ∀ c ∈ (doc.name.getD "Imported program").toList, Text.isBlank c = true) :
      FirstFault doc .emptyName
  /-- All steps keep their rules and the name is not blank, but an identifier is used again. -/
  | repeated {ds : List (StepDocument String)} {before after : List StepId} {id : StepId}
      (some : doc.steps = some ds) (sound : ∀ d ∈ reachedAll ds, d.Sound)
      (visible : ∃ c ∈ (doc.name.getD "Imported program").toList, Text.isBlank c = false)
      (split : (reachedAll ds).map StepDocument.id = before ++ id :: after)
      (distinct : before.Nodup) (again : id ∈ before) : FirstFault doc (.duplicateStepId id)

/-- A document without the fields that do not belong there. -/
def stripped {ι : Type} (doc : ProgramDocument ι) : ProgramDocument ι :=
  { doc with steps := StepDocument.strippedBody doc.steps }

/-- The program that a document describes, given its steps. -/
def withSteps (doc : ProgramDocument String) (steps : List Step) : Program :=
  { id := doc.id, name := doc.name.getD defaultName, enabled := doc.enabled.getD true, steps }

variable {doc : ProgramDocument String} {ds : List (StepDocument String)} {ss : List Step}

theorem toProgram_of_error {fault : Malformed} (hsteps : doc.steps = some ds)
    (h : StepDocument.toSteps ds = .error fault) : doc.toProgram = .error fault := by
  unfold toProgram
  rw [hsteps]
  dsimp only
  rw [h]

theorem toProgram_of_ok (hsteps : doc.steps = some ds) (h : StepDocument.toSteps ds = .ok ss) :
    doc.toProgram = match (doc.withSteps ss).validate with
      | .error fault => .error fault
      | .ok () => .ok (doc.withSteps ss) := by
  unfold toProgram
  rw [hsteps]
  dsimp only
  rw [h]
  rfl

theorem FirstFault.toProgram_eq {fault : Malformed} (h : doc.FirstFault fault)
    (hdoc : doc.Bounded) : doc.toProgram = .error fault := by
  -- steps that all keep their rules are read, and then looked through as a program
  have invalid {ds} (hsteps : doc.steps = some ds) (sound : ∀ d ∈ reachedAll ds, d.Sound)
      (wrong : ∀ ss, StepDocument.ReadAs (reachedAll ds) (Step.walkAll ss) →
        (doc.withSteps ss).validate = .error fault) : doc.toProgram = .error fault := by
    rw [Bounded, hsteps] at hdoc
    obtain ⟨ss, hread⟩ := (StepDocument.exists_toSteps_iff hdoc).mpr sound
    rw [toProgram_of_ok hsteps hread, wrong ss (StepDocument.readAs_of_toSteps hread hdoc)]
  cases h with
  | noSteps none =>
    unfold toProgram
    rw [none]
  | step hsteps split sound breaks =>
    rw [Bounded, hsteps] at hdoc
    exact toProgram_of_error hsteps
      ((StepDocument.toSteps_eq_error_iff hdoc).mpr ⟨_, _, _, split, breaks, sound⟩)
  | blankName hsteps sound blank =>
    exact invalid hsteps sound fun ss read =>
      (Program.validate_eq_error_iff _ _).mpr (.inl ⟨blank, rfl⟩)
  | repeated hsteps sound visible split distinct again =>
    refine invalid hsteps sound fun ss read =>
      (Program.validate_eq_error_iff _ _).mpr (.inr ⟨visible, ?_⟩)
    exact (Step.firstFault?_of_sound read.sound _).mpr
      ⟨_, _, _, read.ids.trans split, distinct, again, rfl⟩

theorem Acceptable.exists_toProgram (h : doc.Acceptable) (hdoc : doc.Bounded) :
    ∃ p, doc.toProgram = .ok p := by
  obtain ⟨ds, hsteps, sound, distinct⟩ := h.steps
  rw [Bounded, hsteps] at hdoc
  obtain ⟨ss, hread⟩ := (StepDocument.exists_toSteps_iff hdoc).mpr sound
  have read := StepDocument.readAs_of_toSteps hread hdoc
  have valid : (doc.withSteps ss).validate = .ok () :=
    (Program.validate_eq_ok_iff _).mpr ⟨h.name_visible, read.ids ▸ distinct, read.sound⟩
  exact ⟨doc.withSteps ss, by rw [toProgram_of_ok hsteps hread, valid]⟩

/-- **A document is acceptable, or it has a first fault.** -/
theorem acceptable_or_firstFault (hdoc : doc.Bounded) :
    doc.Acceptable ∨ ∃ fault, doc.FirstFault fault := by
  cases hsteps : doc.steps with
  | none => exact .inr ⟨_, .noSteps hsteps⟩
  | some ds =>
    rw [Bounded, hsteps] at hdoc
    cases hread : StepDocument.toSteps ds with
    | error fault =>
      obtain ⟨before, d, after, split, breaks, sound⟩ :=
        (StepDocument.toSteps_eq_error_iff hdoc).mp hread
      exact .inr ⟨fault, .step hsteps split sound breaks⟩
    | ok ss =>
      have sound := (StepDocument.exists_toSteps_iff hdoc).mp ⟨ss, hread⟩
      have read := StepDocument.readAs_of_toSteps hread hdoc
      cases hvalid : (doc.withSteps ss).validate with
      | ok u =>
        have valid := (Program.validate_eq_ok_iff _).mp hvalid
        exact .inl ⟨⟨ds, hsteps, sound, read.ids ▸ valid.ids_nodup⟩, valid.name_visible⟩
      | error fault =>
        rcases (Program.validate_eq_error_iff _ fault).mp hvalid with
          ⟨blank, rfl⟩ | ⟨visible, hfault⟩
        · exact .inr ⟨_, .blankName hsteps sound blank⟩
        · obtain ⟨before, i, after, split, distinct, again, rfl⟩ :=
            (Step.firstFault?_of_sound read.sound fault).mp hfault
          exact .inr ⟨_, .repeated hsteps sound visible (read.ids.symm.trans split) distinct again⟩

theorem toProgram_stripped (doc : ProgramDocument String) :
    doc.stripped.toProgram = doc.toProgram := by
  unfold toProgram stripped
  cases doc.steps with
  | none => rfl
  | some ds =>
    dsimp only [StepDocument.strippedBody]
    rw [StepDocument.toSteps_strippedAll]

/-- **Which documents are accepted, and which fault is reported of the others**, once the
missing identifiers have been minted. Fields that do not belong to the type of a step never
matter. -/
theorem accepts_iff (doc : ProgramDocument (Option String)) (supply : IdSupply)
    (hdoc : doc.Bounded) :
    ((∃ p, (doc.identify supply).1.toProgram = .ok p) ↔ (doc.identify supply).1.Acceptable)
      ∧ (∀ fault, (doc.identify supply).1.toProgram = .error fault
          ↔ (doc.identify supply).1.FirstFault fault)
      ∧ (doc.identify supply).1.stripped.toProgram = (doc.identify supply).1.toProgram := by
  have hbounded := (bounded_identify supply doc).mpr hdoc
  generalize (doc.identify supply).1 = named at hbounded ⊢
  refine ⟨⟨?_, fun h => h.exists_toProgram hbounded⟩,
    fun fault => ⟨fun h => ?_, fun h => h.toProgram_eq hbounded⟩, toProgram_stripped named⟩
  · rintro ⟨p, hp⟩
    refine (acceptable_or_firstFault hbounded).resolve_right ?_
    rintro ⟨fault, h⟩
    rw [h.toProgram_eq hbounded] at hp
    cases hp
  · rcases acceptable_or_firstFault hbounded with ok | ⟨fault', h'⟩
    · obtain ⟨p, hp⟩ := ok.exists_toProgram hbounded
      rw [hp] at h
      cases h
    · rw [h'.toProgram_eq hbounded] at h
      rwa [← Except.error.inj h]

/-- A document with a blank name, whose second step is a loop around a step for an unknown
output with the identifier of the loop, and whose third lacks its bounds. What is inside the
wait is of no account. -/
def tangled : ProgramDocument (Option String) :=
  ⟨none, some " ", none, some [
    .mk none (some "wait") none none none (some 5) none none none
      (some [.mk (some "inside") none none none none none none none none none]),
    .mk (some "again") (some "loop") none none none none none none (some 2)
      (some [.mk (some "again") (some "relay") (some 7) (some "ON") none none none none none none]),
    .mk (some "late") (some "wait") none none (some "random") none none none none none]⟩

/-- Of all that is wrong with `tangled`, the unknown output is reported. -/
theorem accepts_iff_tangled :
    tangled.Bounded ∧ (tangled.identify ⟨0⟩).1.toProgram = .error (.relayOutOfRange "again" 7)
      ∧ ¬ (tangled.identify ⟨0⟩).1.Acceptable := by
  have hbounded : tangled.Bounded := by
    simp [tangled, Bounded, StepDocument.BoundedBody, StepDocument.BoundedAll,
      StepDocument.Bounded, StepDocument.Storable, Size.leastSigned64, Size.greatestSigned64]
  obtain ⟨haccepted, hfault, -⟩ := accepts_iff tangled ⟨0⟩ hbounded
  have hfirst : (tangled.identify ⟨0⟩).1.FirstFault (.relayOutOfRange "again" 7) := by
    refine .step rfl (show reachedAll _ = [_, _] ++ _ :: [_] from rfl) ?_
      (.relay rfl (.outOfRange (by decide)))
    intro q hq
    rcases List.mem_pair.mp hq with rfl | rfl
    · exact .fixed rfl (.inl rfl) (by decide)
    · exact .loop rfl (by decide)
  have herror := (hfault _).mpr hfirst
  refine ⟨hbounded, herror, fun h => ?_⟩
  obtain ⟨p, hp⟩ := haccepted.mpr h
  rw [hp] at herror
  cases herror

end ProgramDocument

end Switchboard
