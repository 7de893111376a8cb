import Switchboard.Proofs.Acceptance

/-!
# What an export is read back as

A program can be exported whether or not it is valid, and whatever its durations are. Its
export is read back with the durations lowered to what a document can hold, if that is a
valid program; otherwise the export is a document with a fault. Only if its loops nest too
deep is the export no document at all.

Lowering durations may make a program valid: bounds of a random wait that are in the wrong
order are both lowered to the same number if they are large enough. That is why the
program that counts is the lowered one.
-/

namespace Switchboard

namespace Step

/-! ## Loops inside one another -/

open StepDocument

mutual

/-- **Containers and loops inside a step.** Two containers are opened for every loop that
lies inside others, and one for a step that is no loop. -/
theorem height_toDocument_le_iff_nesting (k : Nat) (s : Step) :
    s.toDocument.height ≤ 2 * k + 1 ↔ s.nesting ≤ k := by
  match s with
  | relay id o p =>
    have hheight : (relay id o p).toDocument.height = 1 := rfl
    rw [hheight, nesting]
    omega
  | wait id span =>
    have hheight : (wait id span).toDocument.height = 1 := by cases span <;> rfl
    rw [hheight, nesting]
    omega
  | loop id n body =>
    have hheight : (loop id n body).toDocument.height = heightAll (toDocuments body) + 2 := by
      rw [toDocument, height, heightBody]
    rw [hheight, nesting]
    match k with
    | 0 => omega
    | k + 1 =>
      have hbody := heightAll_toDocuments_le_iff_nesting k body
      omega

theorem heightAll_toDocuments_le_iff_nesting (k : Nat) (ss : List Step) :
    heightAll (toDocuments ss) ≤ 2 * k + 1 ↔ nestingAll ss ≤ k := by
  match ss with
  | [] => exact ⟨fun _ => Nat.zero_le _, fun _ => Nat.zero_le _⟩
  | s :: ss =>
    rw [toDocuments, heightAll, nestingAll, Nat.max_le, Nat.max_le,
      height_toDocument_le_iff_nesting, heightAll_toDocuments_le_iff_nesting]

end

/-! ## Durations that fit -/

/-- **The durations of a step.** -/
def durations : Step → List UInt64
  | wait _ (.fixed n) => [n]
  | wait _ (.random lo hi) => [lo, hi]
  | _ => []

theorem min_maxDocumentSeconds_eq_iff (n : UInt64) :
    min n (UInt64.ofNat maxDocumentSeconds) = n ↔ n.toNat ≤ maxDocumentSeconds := by
  rw [← UInt64.toNat_inj, toNat_min_maxDocumentSeconds]
  omega

mutual

/-- Lowering leaves a step alone exactly if all durations in it fit into a document. -/
theorem lowered_eq_iff (s : Step) :
    s.lowered = s ↔ ∀ q ∈ s.walk, ∀ n ∈ q.durations, n.toNat ≤ maxDocumentSeconds := by
  match s with
  | relay id o p => simp [lowered, walk, durations]
  | wait id (.fixed n) =>
    simp [lowered, Span.lowered, walk, durations, min_maxDocumentSeconds_eq_iff]
  | wait id (.random lo hi) =>
    simp [lowered, Span.lowered, walk, durations, min_maxDocumentSeconds_eq_iff]
  | loop id n body =>
    have hbody := loweredAll_eq_iff body
    simp [lowered, walk, durations, hbody]

theorem loweredAll_eq_iff (ss : List Step) :
    loweredAll ss = ss
      ↔ ∀ q ∈ walkAll ss, ∀ n ∈ q.durations, n.toNat ≤ maxDocumentSeconds := by
  match ss with
  | [] => exact ⟨fun _ => nofun, fun _ => rfl⟩
  | s :: ss =>
    rw [loweredAll, walkAll, List.forall_mem_append, List.cons.injEq, lowered_eq_iff s,
      loweredAll_eq_iff ss]

end

/-- A lowered step has no duration that does not fit. -/
theorem le_of_mem_durations_lowered {s : Step} {n : UInt64} (h : n ∈ s.lowered.durations) :
    n.toNat ≤ maxDocumentSeconds := by
  have hdurations : s.lowered.durations
      = s.durations.map (min · (UInt64.ofNat maxDocumentSeconds)) := by
    rcases s with _ | ⟨id, _ | _⟩ | _ <;> rfl
  rw [hdurations] at h
  obtain ⟨m, -, rfl⟩ := List.mem_map.mp h
  rw [toNat_min_maxDocumentSeconds]
  exact Nat.min_le_right _ _

/-- Lowering durations twice changes nothing more. -/
theorem loweredAll_loweredAll (ss : List Step) : loweredAll (loweredAll ss) = loweredAll ss := by
  rw [loweredAll_eq_iff, walkAll_loweredAll]
  intro q hq n hn
  obtain ⟨s, -, rfl⟩ := List.mem_map.mp hq
  exact le_of_mem_durations_lowered hn

/-! ## Documents of steps that may have faults -/

theorem min_of_seconds_documentSeconds {id : StepId} {field : Field} {n m : UInt64}
    (h : seconds id field (some (documentSeconds n)) = .ok m) :
    m = min n (UInt64.ofNat maxDocumentSeconds) :=
  (Except.ok.inj ((seconds_documentSeconds id field n).symm.trans h)).symm

theorem toIterations_toNat {id : StepId} {n m : UInt32}
    (h : toIterations id (some (n.toNat : Int)) = .ok m) : m = n := by
  change (if 1 ≤ (n.toNat : Int) ∧ (n.toNat : Int) ≤ Size.greatest32 then
    Except.ok (UInt32.ofNat (n.toNat : Int).toNat) else .error _) = _ at h
  split at h
  · rw [← Except.ok.inj h, Int.toNat_natCast, UInt32.ofNat_toNat]
  · cases h

mutual

/-- **What is read from the document of a step** is that step, its durations lowered, if it
is read at all. -/
theorem eq_lowered_of_toStep {s q : Step} (h : toStep s.toDocument = .ok q) : q = s.lowered := by
  match s with
  | relay id o p =>
    have hread := toStep_toDocument (relay id o p) (List.forall_mem_singleton.mpr rfl)
    exact Except.ok.inj (h.symm.trans hread)
  | wait id (.fixed n) =>
    have hread := toStep_toDocument (wait id (.fixed n)) (List.forall_mem_singleton.mpr rfl)
    exact Except.ok.inj (h.symm.trans hread)
  | wait id (.random lo hi) =>
    change toWait id (some "random") none (some (documentSeconds lo)) (some (documentSeconds hi))
      = _ at h
    rcases of_toWait h with ⟨n, hn, rfl⟩ | ⟨l, u, hl, hu, rfl⟩
    · cases hn
    · rw [min_of_seconds_documentSeconds hl, min_of_seconds_documentSeconds hu]
      rfl
  | loop id n body =>
    change (match toIterations id (some (n.toNat : Int)) with
      | .error fault => Except.error fault
      | .ok m => toLoop id m (some (toDocuments body))) = _ at h
    split at h
    · cases h
    · rename_i m hm
      obtain ⟨ds, steps, hds, hsteps, rfl⟩ := of_toLoop h
      obtain rfl := Option.some.inj hds
      rw [toIterations_toNat hm, eq_loweredAll_of_toSteps hsteps, lowered]

theorem eq_loweredAll_of_toSteps {ss qs : List Step} (h : toSteps (toDocuments ss) = .ok qs) :
    qs = loweredAll ss := by
  match ss with
  | [] => exact (Except.ok.inj h).symm
  | s :: ss =>
    obtain ⟨q, rest, hq, hrest, rfl⟩ := toSteps_cons h
    rw [eq_lowered_of_toStep hq, eq_loweredAll_of_toSteps hrest, loweredAll]

end

end Step

/-! ## Faults of documents -/

namespace StepDocument

theorem SecondsFault.ne_notADocument {id : StepId} {field : Field} {value : Option Int}
    {fault : Malformed} (h : SecondsFault id field value fault) : fault ≠ .notADocument := by
  cases h <;> nofun

theorem Breaks.ne_notADocument {d : StepDocument String} {fault : Malformed}
    (h : d.Breaks fault) : fault ≠ .notADocument := by
  cases h with
  | untyped => nofun
  | unknown => nofun
  | relay _ wrong => cases wrong <;> nofun
  | wait _ wrong =>
    cases wrong with
    | unknown => nofun
    | inverted => nofun
    | duration _ wrong => exact wrong.ne_notADocument
    | min _ wrong => exact wrong.ne_notADocument
    | max _ _ wrong => exact wrong.ne_notADocument
  | loop _ wrong => cases wrong <;> nofun

end StepDocument

/-- A document is never mistaken for a text that is none. -/
theorem ProgramDocument.FirstFault.ne_notADocument {doc : ProgramDocument String}
    {fault : Malformed} (h : doc.FirstFault fault) : fault ≠ .notADocument := by
  cases h with
  | noSteps => nofun
  | step _ _ _ breaks => exact breaks.ne_notADocument
  | blankName => nofun
  | repeated => nofun

namespace Program

variable {p : Program}

/-- A program without durations that a document cannot hold. -/
def Fits (p : Program) : Prop :=
  ∀ s ∈ p.walk, ∀ n ∈ s.durations, n.toNat ≤ maxDocumentSeconds

/-- Lowering leaves a program alone exactly if all its durations fit into a document. -/
theorem lowered_eq_iff (p : Program) : p.lowered = p ↔ p.Fits := by
  rw [Fits, walk, ← Step.loweredAll_eq_iff]
  constructor
  · exact congrArg Program.steps
  · intro h
    rw [lowered, h]

theorem toDocument_lowered (p : Program) : p.lowered.toDocument = p.toDocument := by
  unfold toDocument lowered
  rw [Step.toDocuments_loweredAll]

/-- **An export can be read** exactly if no more than 62 loops lie inside one another. -/
theorem height_toDocument_le_iff_nesting (p : Program) :
    p.toDocument.height ≤ Json.depthLimit ↔ p.nesting ≤ 62 := by
  rw [nesting, ← Step.heightAll_toDocuments_le_iff_nesting 62 p.steps, height_toDocument,
    Json.depthLimit]
  omega

/-- **What the document of a program describes**, whether the program is valid or not: the
program with its durations lowered if that one is valid, and nothing otherwise. -/
theorem toProgram_toDocument_eq_ok_iff (p q : Program) :
    p.toDocument.toProgram = .ok q ↔ p.lowered.Valid ∧ q = p.lowered := by
  constructor
  · intro h
    cases hread : StepDocument.toSteps (Step.toDocuments p.steps) with
    | error fault =>
      rw [ProgramDocument.toProgram_of_error rfl hread] at h
      cases h
    | ok ss =>
      obtain rfl := Step.eq_loweredAll_of_toSteps hread
      rw [ProgramDocument.toProgram_of_ok rfl hread] at h
      have hlowered : p.toDocument.withSteps (Step.loweredAll p.steps) = p.lowered := rfl
      rw [hlowered] at h
      cases hvalid : p.lowered.validate with
      | error fault =>
        rw [hvalid] at h
        cases h
      | ok u =>
        rw [hvalid] at h
        exact ⟨(validate_eq_ok_iff _).mp hvalid, (Except.ok.inj h).symm⟩
  · rintro ⟨hvalid, rfl⟩
    have hlowered : p.lowered.lowered = p.lowered := by
      unfold lowered
      rw [Step.loweredAll_loweredAll]
    rw [← toDocument_lowered, toProgram_toDocument hvalid, hlowered]

/-- An export that is no program is still a document, with a fault. -/
theorem exists_fault_toProgram_toDocument (h : ¬ p.lowered.Valid) :
    ∃ fault, fault ≠ .notADocument ∧ p.toDocument.toProgram = .error fault := by
  have hbounded : p.toDocument.Bounded := Step.boundedAll_toDocuments p.steps
  rcases ProgramDocument.acceptable_or_firstFault hbounded with ok | ⟨fault, hfault⟩
  · obtain ⟨q, hq⟩ := ok.exists_toProgram hbounded
    exact absurd ((toProgram_toDocument_eq_ok_iff p q).mp hq).1 h
  · exact ⟨fault, hfault.ne_notADocument, hfault.toProgram_eq hbounded⟩

/-- **What an export is read back as**, for any program. With at most 62 loops inside one
another that is the program with its durations lowered if the lowered program is valid, and
some fault of a document otherwise; with more loops the export is no document. So among the
programs whose durations fit and whose loops do not lie too deep, those that come back are
the valid ones; and of the valid programs, those that come back unchanged are the ones whose
durations fit and whose loops do not lie too deep. -/
theorem ofText_toText_cases (p : Program) (supply : IdSupply) :
    (p.nesting ≤ 62 → p.lowered.validate = .ok () →
        ofText supply p.toText = (.ok p.lowered, supply))
      ∧ (p.nesting ≤ 62 → p.lowered.validate ≠ .ok () →
        ∃ fault, fault ≠ .notADocument ∧ ofText supply p.toText = (.error fault, supply))
      ∧ (62 < p.nesting → ofText supply p.toText = (.error .notADocument, supply))
      ∧ (p.Fits → p.nesting ≤ 62 →
        ((∃ q, (ofText supply p.toText).1 = .ok q) ↔ p.validate = .ok ()))
      ∧ (p.validate = .ok () →
        ((ofText supply p.toText).1 = .ok p ↔ p.Fits ∧ p.nesting ≤ 62)) := by
  have hread (hflat : p.nesting ≤ 62) :
      ofText supply p.toText = (p.toDocument.toProgram, supply) :=
    ofText_toText_eq_toProgram supply ((height_toDocument_le_iff_nesting p).mpr hflat)
  have hdeep (hdeep : 62 < p.nesting) :
      ofText supply p.toText = (.error .notADocument, supply) := by
    have hheight := (height_toDocument_le_iff_nesting p).not.mpr (Nat.not_le.mpr hdeep)
    unfold ofText
    rw [run_toText, if_neg hheight]
  refine ⟨fun hflat hvalid => ?_, fun hflat hvalid => ?_, hdeep, fun hfits hflat => ?_,
    fun hvalid => ⟨fun hback => ?_, fun ⟨hfits, hflat⟩ => ?_⟩⟩
  · rw [hread hflat, (toProgram_toDocument_eq_ok_iff p _).mpr
      ⟨(validate_eq_ok_iff _).mp hvalid, rfl⟩]
  · obtain ⟨fault, hfault, herror⟩ :=
      exists_fault_toProgram_toDocument ((validate_eq_ok_iff _).not.mp hvalid)
    exact ⟨fault, hfault, by rw [hread hflat, herror]⟩
  · rw [hread hflat, validate_eq_ok_iff]
    simp only [toProgram_toDocument_eq_ok_iff, exists_eq_right]
    rw [(lowered_eq_iff p).mpr hfits]
  · have hflat : p.nesting ≤ 62 := by
      refine Nat.not_lt.mp fun h => ?_
      rw [hdeep h] at hback
      cases hback
    rw [hread hflat] at hback
    exact ⟨(lowered_eq_iff p).mp ((toProgram_toDocument_eq_ok_iff p p).mp hback).2.symm, hflat⟩
  · have hlowered := (lowered_eq_iff p).mpr hfits
    rw [hread hflat]
    refine (toProgram_toDocument_eq_ok_iff p p).mpr ⟨?_, hlowered.symm⟩
    rw [hlowered]
    exact (validate_eq_ok_iff p).mp hvalid

/-- A program that waits between 2⁶⁴ - 1 and 2⁶³ seconds. -/
def overlong : Program :=
  ⟨"overlong", "Overlong", true,
    [.wait "w" (.random 18446744073709551615 9223372036854775808)]⟩

/-- Although `overlong` is not valid, its export is read: both bounds are lowered to the same
number. -/
theorem ofText_toText_overlong :
    overlong.validate
        = .error (.invertedRange "w" 18446744073709551615 9223372036854775808)
      ∧ ofText ⟨0⟩ overlong.toText = (.ok overlong.lowered, ⟨0⟩) := by
  have hinvalid : overlong.validate
      = .error (.invertedRange "w" 18446744073709551615 9223372036854775808) := by decide +kernel
  have hvalid : overlong.lowered.validate = .ok () := by decide +kernel
  exact ⟨hinvalid, (ofText_toText_cases overlong ⟨0⟩).1 (Nat.zero_le _) hvalid⟩

end Program

end Switchboard
