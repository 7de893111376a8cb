import Switchboard.Proofs.Interchange

/-!
# The rules for the steps of a document

The rules for a single step stand in `StepDocument.Sound` and, for each way of breaking
them, in `StepDocument.Breaks`, which also says which fault is reported: of several faults
of one step only the first counts. A step does one or the other (`sound_or_breaks`).

Converting a step reads its body as it goes. What it comes to is the same as going through
a list, the steps that are reached, for the first that breaks its rules
(`found?_toStep`, `toSteps_eq_error_iff`); and if there is none, then what is read has the
identifiers of the list, and every step of it is sound by itself (`ReadAs`).
-/

namespace Switchboard

/-- The fault that was found, if any. -/
def Malformed.found? {α : Type} : Except Malformed α → Option Malformed
  | .error fault => some fault
  | .ok _ => none

theorem Malformed.found?_eq_some_iff {α : Type} {r : Except Malformed α} {fault : Malformed} :
    found? r = some fault ↔ r = .error fault := by
  cases r with
  | error f =>
    exact ⟨fun h => congrArg _ (Option.some.inj h), fun h => congrArg _ (Except.error.inj h)⟩
  | ok a => exact ⟨nofun, nofun⟩

theorem Malformed.found?_eq_none_iff {α : Type} {r : Except Malformed α} :
    found? r = none ↔ ∃ a, r = .ok a := by
  cases r with
  | error f => exact ⟨nofun, nofun⟩
  | ok a => exact ⟨fun _ => ⟨a, rfl⟩, fun _ => rfl⟩

namespace StepDocument

variable {ι : Type}

/-! ## The rules for a step -/

/-- **A step keeps the rules of its type**, whatever is in the fields that do not belong to
it. -/
inductive Sound : StepDocument ι → Prop where
  /-- A relay step names one of the four outputs and a state. -/
  | relay {id : ι} {type dt : Option String} {output : Int} {label : String}
      {dur lo hi n : Option Int} {body : Option (List (StepDocument ι))}
      (typed : type = some "relay") (exists_output : 0 ≤ output ∧ output ≤ 3)
      (exists_state : label = "ON" ∨ label = "OFF") :
      Sound (mk id type (some output) (some label) dt dur lo hi n body)
  /-- A fixed wait has a length, and a wait is fixed unless it says otherwise. -/
  | fixed {id : ι} {type a dt : Option String} {r lo hi n : Option Int} {seconds : Int}
      {body : Option (List (StepDocument ι))} (typed : type = some "wait")
      (fixed : dt = none ∨ dt = some "fixed") (nonneg : 0 ≤ seconds) :
      Sound (mk id type r a dt (some seconds) lo hi n body)
  /-- A random wait has two bounds, and they are in order. -/
  | random {id : ι} {type a dt : Option String} {r dur n : Option Int} {min max : Int}
      {body : Option (List (StepDocument ι))} (typed : type = some "wait")
      (random : dt = some "random") (nonneg : 0 ≤ min) (ordered : min ≤ max) :
      Sound (mk id type r a dt dur (some min) (some max) n body)
  /-- A loop has a body and runs at least once, as often as a number of 32 bits can say. -/
  | loop {id : ι} {type a dt : Option String} {r dur lo hi : Option Int} {iterations : Int}
      {body : List (StepDocument ι)} (typed : type = some "loop")
      (counted : 1 ≤ iterations ∧ iterations ≤ Size.greatest32) :
      Sound (mk id type r a dt dur lo hi (some iterations) (some body))

/-- **The fault of a duration** that must be there. -/
inductive SecondsFault (id : StepId) (field : Field) : Option Int → Malformed → Prop where
  /-- It is missing. -/
  | missing : SecondsFault id field none (.missingField id field)
  /-- It is negative. -/
  | negative {n : Int} (neg : n < 0) :
      SecondsFault id field (some n) (.negativeDuration id field n)

/-- **The first fault of a relay step**: its output comes before the state. -/
inductive RelayFault (id : StepId) : Option Int → Option String → Malformed → Prop where
  /-- The output is missing. -/
  | noOutput {action : Option String} : RelayFault id none action (.missingField id .relay)
  /-- There is no such output. -/
  | outOfRange {n : Int} {action : Option String} (out : n < 0 ∨ 3 < n) :
      RelayFault id (some n) action (.relayOutOfRange id n)
  /-- The state is missing. -/
  | noState {n : Int} (exists_output : 0 ≤ n ∧ n ≤ 3) :
      RelayFault id (some n) none (.missingField id .action)
  /-- There is no such state. -/
  | unknown {n : Int} {label : String} (exists_output : 0 ≤ n ∧ n ≤ 3) (not_on : label ≠ "ON")
      (not_off : label ≠ "OFF") : RelayFault id (some n) (some label) (.invalidAction id label)

/-- **The first fault of a wait step**: its type comes before its lengths, and the lower bound
before the upper. -/
inductive WaitFault (id : StepId) :
    Option String → Option Int → Option Int → Option Int → Malformed → Prop where
  /-- There is no such type of wait. -/
  | unknown {type : String} {dur lo hi : Option Int} (not_fixed : type ≠ "fixed")
      (not_random : type ≠ "random") :
      WaitFault id (some type) dur lo hi (.invalidDurationType id type)
  /-- Something is wrong with the length of a fixed wait. -/
  | duration {dt : Option String} {dur lo hi : Option Int} {fault : Malformed}
      (fixed : dt = none ∨ dt = some "fixed") (wrong : SecondsFault id .duration dur fault) :
      WaitFault id dt dur lo hi fault
  /-- Something is wrong with the lower bound of a random wait. -/
  | min {dt : Option String} {dur lo hi : Option Int} {fault : Malformed}
      (random : dt = some "random") (wrong : SecondsFault id .durationMin lo fault) :
      WaitFault id dt dur lo hi fault
  /-- Something is wrong with the upper bound of a random wait. -/
  | max {dt : Option String} {dur hi : Option Int} {lo : Int} {fault : Malformed}
      (random : dt = some "random") (nonneg : 0 ≤ lo)
      (wrong : SecondsFault id .durationMax hi fault) : WaitFault id dt dur (some lo) hi fault
  /-- The bounds of a random wait are in the wrong order. -/
  | inverted {dt : Option String} {dur : Option Int} {lo hi : Int}
      (random : dt = some "random") (nonneg : 0 ≤ hi) (inverted : hi < lo) :
      WaitFault id dt dur (some lo) (some hi) (.invertedRange id lo.toNat hi.toNat)

/-- **The first fault of a loop by itself**: how often it runs comes before its body. -/
inductive LoopFault (id : StepId) :
    Option Int → Option (List (StepDocument String)) → Malformed → Prop where
  /-- It does not say how often it runs. -/
  | uncounted {body : Option (List (StepDocument String))} :
      LoopFault id none body (.missingField id .iterations)
  /-- It runs too often, or not at all. -/
  | outOfRange {n : Int} {body : Option (List (StepDocument String))}
      (out : n < 1 ∨ Size.greatest32 < n) : LoopFault id (some n) body (.invalidIterations id n)
  /-- It has no body. -/
  | noBody {n : Int} (counted : 1 ≤ n ∧ n ≤ Size.greatest32) :
      LoopFault id (some n) none (.missingField id .loopSteps)

/-- **A step breaks the rules of its type**, with the first fault that it has. -/
inductive Breaks : StepDocument String → Malformed → Prop where
  /-- It has no type. -/
  | untyped {id : StepId} {type a dt : Option String} {r dur lo hi n : Option Int}
      {body : Option (List (StepDocument String))} (typed : type = none) :
      Breaks (mk id type r a dt dur lo hi n body) (.missingField id .type)
  /-- There is no such type. -/
  | unknown {id : StepId} {label : String} {type a dt : Option String}
      {r dur lo hi n : Option Int} {body : Option (List (StepDocument String))}
      (typed : type = some label) (other : label ∉ ["relay", "wait", "loop"]) :
      Breaks (mk id type r a dt dur lo hi n body) (.unknownStepType id label)
  /-- Something is wrong with a relay step. -/
  | relay {id : StepId} {type a dt : Option String} {r dur lo hi n : Option Int}
      {body : Option (List (StepDocument String))} {fault : Malformed}
      (typed : type = some "relay") (wrong : RelayFault id r a fault) :
      Breaks (mk id type r a dt dur lo hi n body) fault
  /-- Something is wrong with a wait step. -/
  | wait {id : StepId} {type a dt : Option String} {r dur lo hi n : Option Int}
      {body : Option (List (StepDocument String))} {fault : Malformed}
      (typed : type = some "wait") (wrong : WaitFault id dt dur lo hi fault) :
      Breaks (mk id type r a dt dur lo hi n body) fault
  /-- Something is wrong with a loop itself. -/
  | loop {id : StepId} {type a dt : Option String} {r dur lo hi n : Option Int}
      {body : Option (List (StepDocument String))} {fault : Malformed}
      (typed : type = some "loop") (wrong : LoopFault id n body fault) :
      Breaks (mk id type r a dt dur lo hi n body) fault

/-! ## Conversions of single steps -/

theorem SecondsFault.seconds_eq {id : StepId} {field : Field} {value : Option Int}
    {fault : Malformed} (h : SecondsFault id field value fault) :
    seconds id field value = .error fault := by
  cases h with
  | missing => rfl
  | negative neg => exact if_pos neg

theorem seconds_eq_ok {id : StepId} {field : Field} {n : Int} (nonneg : 0 ≤ n) :
    seconds id field (some n) = .ok (UInt64.ofNat n.toNat) :=
  if_neg (Int.not_lt.mpr nonneg)

/-- A duration is there and not negative, or something is wrong with it. -/
theorem nonneg_or_secondsFault (id : StepId) (field : Field) (value : Option Int) :
    (∃ n, value = some n ∧ 0 ≤ n) ∨ ∃ fault, SecondsFault id field value fault := by
  match value with
  | none => exact .inr ⟨_, .missing⟩
  | some n =>
    by_cases neg : n < 0
    · exact .inr ⟨_, .negative neg⟩
    · exact .inl ⟨n, rfl, Int.not_lt.mp neg⟩

theorem toRelay_some (id : StepId) (n : Int) (action : Option String) :
    toRelay id (some n) action = match if n < 0 then none else Relay.ofNat? n.toNat with
      | none => .error (.relayOutOfRange id n)
      | some output => match action with
        | none => .error (.missingField id .action)
        | some label => match Power.ofLabel? label with
          | none => .error (.invalidAction id label)
          | some power => .ok (.relay id output power) := by
  cases action <;> rfl

/-- The output with a number between 0 and 3. -/
theorem output_of_inside {n : Int} (h : 0 ≤ n ∧ n ≤ 3) :
    ∃ output : Relay, (if n < 0 then none else Relay.ofNat? n.toNat) = some output := by
  refine ⟨⟨n.toNat, by omega⟩, ?_⟩
  rw [if_neg (by omega), Relay.ofNat?, dif_pos (by omega)]

theorem output_of_outside {n : Int} (h : n < 0 ∨ 3 < n) :
    (if n < 0 then none else Relay.ofNat? n.toNat) = none := by
  by_cases neg : n < 0
  · rw [if_pos neg]
  · rw [if_neg neg, Relay.ofNat?, dif_neg (by omega)]

theorem RelayFault.toRelay_eq {id : StepId} {relay : Option Int} {action : Option String}
    {fault : Malformed} (h : RelayFault id relay action fault) :
    toRelay id relay action = .error fault := by
  cases h with
  | noOutput => rfl
  | outOfRange out => rw [toRelay_some, output_of_outside out]
  | noState exists_output =>
    obtain ⟨output, hout⟩ := output_of_inside exists_output
    rw [toRelay_some, hout]
  | @unknown n label exists_output not_on not_off =>
    obtain ⟨output, hout⟩ := output_of_inside exists_output
    have hlabel : Power.ofLabel? label = none := by
      rw [Power.ofLabel?, if_neg not_on, if_neg not_off]
    simp only [toRelay_some, hout, hlabel]

theorem toRelay_eq_ok (id : StepId) {n : Int} {label : String} (exists_output : 0 ≤ n ∧ n ≤ 3)
    (exists_state : label = "ON" ∨ label = "OFF") :
    ∃ output power, toRelay id (some n) (some label) = .ok (.relay id output power) := by
  obtain ⟨output, hout⟩ := output_of_inside exists_output
  obtain ⟨power, hlabel⟩ : ∃ power, Power.ofLabel? label = some power := by
    rcases exists_state with rfl | rfl
    · exact ⟨.on, rfl⟩
    · exact ⟨.off, rfl⟩
  exact ⟨output, power, by simp only [toRelay_some, hout, hlabel]⟩

/-- The bound of a random wait, as a number. -/
theorem toNat_bound {n : Int} (h : Storable (some n)) :
    (UInt64.ofNat n.toNat).toNat = n.toNat := by
  have hle := (h n rfl).2
  unfold Size.greatestSigned64 at hle
  rw [UInt64.toNat_ofNat']
  exact Nat.mod_eq_of_lt (by omega)

theorem toWait_of_fixed {id : StepId} {dt : Option String} {dur lo hi : Option Int}
    (fixed : dt = none ∨ dt = some "fixed") :
    toWait id dt dur lo hi = (do
      let n ← seconds id .duration dur
      .ok (.wait id (.fixed n))) := by
  rcases fixed with rfl | rfl <;> rfl

theorem toWait_of_random {id : StepId} {dt : Option String} {dur lo hi : Option Int}
    (random : dt = some "random") :
    toWait id dt dur lo hi = (do
      let lo ← seconds id .durationMin lo
      let hi ← seconds id .durationMax hi
      if hi < lo then .error (.invertedRange id lo.toNat hi.toNat)
      else .ok (.wait id (.random lo hi))) := by
  subst random
  rfl

theorem WaitFault.toWait_eq {id : StepId} {dt : Option String} {dur lo hi : Option Int}
    {fault : Malformed} (h : WaitFault id dt dur lo hi fault) (hlo : Storable lo)
    (hhi : Storable hi) : toWait id dt dur lo hi = .error fault := by
  cases h with
  | @unknown type _ _ _ not_fixed not_random =>
    unfold toWait
    split
    · exact absurd ‹_› not_fixed
    · exact absurd ‹_› not_random
    · rfl
  | duration fixed wrong =>
    rw [toWait_of_fixed fixed, wrong.seconds_eq]
    rfl
  | min random wrong =>
    rw [toWait_of_random random, wrong.seconds_eq]
    rfl
  | max random nonneg wrong =>
    rw [toWait_of_random random, seconds_eq_ok nonneg, wrong.seconds_eq]
    rfl
  | @inverted _ _ lo hi random nonneg inverted =>
    have hlt : UInt64.ofNat hi.toNat < UInt64.ofNat lo.toNat := by
      rw [UInt64.lt_iff_toNat_lt, toNat_bound hlo, toNat_bound hhi]
      omega
    rw [toWait_of_random random, seconds_eq_ok (by omega), seconds_eq_ok nonneg]
    show (if UInt64.ofNat hi.toNat < UInt64.ofNat lo.toNat then Except.error _ else _) = _
    rw [if_pos hlt, toNat_bound hlo, toNat_bound hhi]

theorem toWait_eq_ok_of_fixed {id : StepId} {dt : Option String} {n : Int} {lo hi : Option Int}
    (fixed : dt = none ∨ dt = some "fixed") (nonneg : 0 ≤ n) :
    toWait id dt (some n) lo hi = .ok (.wait id (.fixed (UInt64.ofNat n.toNat))) := by
  rw [toWait_of_fixed fixed, seconds_eq_ok nonneg]
  rfl

theorem toWait_eq_ok_of_random (id : StepId) {dt : Option String} (dur : Option Int)
    {lo hi : Int} (random : dt = some "random") (nonneg : 0 ≤ lo) (ordered : lo ≤ hi)
    (hlo : Storable (some lo)) (hhi : Storable (some hi)) :
    toWait id dt dur (some lo) (some hi)
        = .ok (.wait id (.random (UInt64.ofNat lo.toNat) (UInt64.ofNat hi.toNat)))
      ∧ ¬ UInt64.ofNat hi.toNat < UInt64.ofNat lo.toNat := by
  have hle : ¬ UInt64.ofNat hi.toNat < UInt64.ofNat lo.toNat := by
    rw [UInt64.lt_iff_toNat_lt, toNat_bound hlo, toNat_bound hhi]
    omega
  refine ⟨?_, hle⟩
  rw [toWait_of_random random, seconds_eq_ok nonneg, seconds_eq_ok (by omega)]
  exact if_neg hle

theorem toIterations_eq_ok (id : StepId) {n : Int} (counted : 1 ≤ n ∧ n ≤ Size.greatest32) :
    toIterations id (some n) = .ok (UInt32.ofNat n.toNat) ∧ UInt32.ofNat n.toNat ≠ 0 := by
  refine ⟨if_pos counted, fun hzero => ?_⟩
  have hnat := congrArg UInt32.toNat hzero
  unfold Size.greatest32 at counted
  rw [UInt32.toNat_ofNat', Nat.mod_eq_of_lt (by omega)] at hnat
  change n.toNat = 0 at hnat
  omega

theorem toIterations_eq_error {id : StepId} {n : Int} (out : n < 1 ∨ Size.greatest32 < n) :
    toIterations id (some n) = .error (.invalidIterations id n) :=
  if_neg (by omega)

/-! ## The first fault of a single step -/

/-- **What is wrong with a step by itself**, the steps inside it apart. -/
def fault? : StepDocument String → Option Malformed
  | mk id type relay action durationType duration durationMin durationMax iterations body =>
    match type with
    | none => some (.missingField id .type)
    | some "relay" => Malformed.found? (toRelay id relay action)
    | some "wait" =>
      Malformed.found? (toWait id durationType duration durationMin durationMax)
    | some "loop" =>
      match toIterations id iterations with
      | .error fault => some fault
      | .ok _ => if body.isSome then none else some (.missingField id .loopSteps)
    | some other => some (.unknownStepType id other)

section

variable {id : StepId} {a dt : Option String} {r dur lo hi n : Option Int}
  {body : Option (List (StepDocument String))} {label : String}

theorem fault?_of_unknown (other : label ∉ ["relay", "wait", "loop"]) :
    fault? (mk id (some label) r a dt dur lo hi n body) = some (.unknownStepType id label) := by
  -- the last case of the match applies, since the label is none of those before it
  rw [fault?] <;> (rintro rfl; simp at other)

theorem toStep_of_unknown (other : label ∉ ["relay", "wait", "loop"]) :
    toStep (mk id (some label) r a dt dur lo hi n body)
      = .error (.unknownStepType id label) := by
  -- the last case of the match applies, since the label is none of those before it
  rw [toStep] <;> (rintro rfl; simp at other)

end

theorem LoopFault.fault?_eq {id : StepId} {a dt : Option String} {r dur lo hi n : Option Int}
    {body : Option (List (StepDocument String))} {fault : Malformed}
    (h : LoopFault id n body fault) :
    fault? (mk id (some "loop") r a dt dur lo hi n body) = some fault := by
  show (match toIterations id n with
    | .error fault => some fault
    | .ok _ => if body.isSome then none else some (.missingField id .loopSteps)) = some fault
  cases h with
  | uncounted => rfl
  | outOfRange out => rw [toIterations_eq_error out]
  | noBody counted =>
    rw [(toIterations_eq_ok _ counted).1]
    rfl

theorem Breaks.fault?_eq {d : StepDocument String} {fault : Malformed} (h : d.Breaks fault)
    (hd : d.Bounded) : d.fault? = some fault := by
  cases h with
  | untyped typed =>
    subst typed
    rfl
  | unknown typed other =>
    subst typed
    exact fault?_of_unknown other
  | relay typed wrong =>
    subst typed
    exact congrArg Malformed.found? wrong.toRelay_eq
  | wait typed wrong =>
    subst typed
    obtain ⟨hnumbers, -⟩ := hd
    exact congrArg Malformed.found? (wrong.toWait_eq (hnumbers _ (by simp)) (hnumbers _ (by simp)))
  | loop typed wrong =>
    subst typed
    exact wrong.fault?_eq

theorem Sound.fault?_eq {d : StepDocument String} (h : d.Sound) (hd : d.Bounded) :
    d.fault? = none := by
  cases h with
  | relay typed exists_output exists_state =>
    subst typed
    obtain ⟨output, power, h⟩ := toRelay_eq_ok _ exists_output exists_state
    exact congrArg Malformed.found? h
  | fixed typed fixed nonneg =>
    subst typed
    exact congrArg Malformed.found? (toWait_eq_ok_of_fixed fixed nonneg)
  | random typed random nonneg ordered =>
    subst typed
    obtain ⟨hnumbers, -⟩ := hd
    exact congrArg Malformed.found? (toWait_eq_ok_of_random _ _ random nonneg ordered
      (hnumbers _ (by simp)) (hnumbers _ (by simp))).1
  | @loop id type a dt r dur lo hi n body typed counted =>
    subst typed
    show (match toIterations id (some n) with
      | .error fault => some fault
      | .ok _ => none) = none
    rw [(toIterations_eq_ok _ counted).1]

/-- A relay step keeps its rules, or breaks one. -/
theorem relay_or_relayFault (id : StepId) (relay : Option Int) (action : Option String) :
    (∃ n label, relay = some n ∧ action = some label ∧ (0 ≤ n ∧ n ≤ 3)
        ∧ (label = "ON" ∨ label = "OFF"))
      ∨ ∃ fault, RelayFault id relay action fault := by
  match relay, action with
  | none, _ => exact .inr ⟨_, .noOutput⟩
  | some n, action =>
    by_cases hout : n < 0 ∨ 3 < n
    · exact .inr ⟨_, .outOfRange hout⟩
    · have hin : 0 ≤ n ∧ n ≤ 3 := by omega
      match action with
      | none => exact .inr ⟨_, .noState hin⟩
      | some label =>
        by_cases hlabel : label = "ON" ∨ label = "OFF"
        · exact .inl ⟨n, label, rfl, rfl, hin, hlabel⟩
        · rw [not_or] at hlabel
          exact .inr ⟨_, .unknown hin hlabel.1 hlabel.2⟩

/-- A wait step keeps its rules, or breaks one. -/
theorem wait_or_waitFault (id : StepId) (dt : Option String) (dur lo hi : Option Int) :
    ((dt = none ∨ dt = some "fixed") ∧ ∃ n, dur = some n ∧ 0 ≤ n)
      ∨ (dt = some "random" ∧ ∃ m n, lo = some m ∧ hi = some n ∧ 0 ≤ m ∧ m ≤ n)
      ∨ ∃ fault, WaitFault id dt dur lo hi fault := by
  by_cases fixed : dt = none ∨ dt = some "fixed"
  · rcases nonneg_or_secondsFault id .duration dur with ok | ⟨fault, wrong⟩
    · exact .inl ⟨fixed, ok⟩
    · exact .inr (.inr ⟨fault, .duration fixed wrong⟩)
  · by_cases random : dt = some "random"
    · rcases nonneg_or_secondsFault id .durationMin lo with ⟨m, rfl, hm⟩ | ⟨fault, wrong⟩
      · rcases nonneg_or_secondsFault id .durationMax hi with ⟨n, rfl, hn⟩ | ⟨fault, wrong⟩
        · by_cases ordered : m ≤ n
          · exact .inr (.inl ⟨random, m, n, rfl, rfl, hm, ordered⟩)
          · exact .inr (.inr ⟨_, .inverted random hn (Int.not_le.mp ordered)⟩)
        · exact .inr (.inr ⟨fault, .max random hm wrong⟩)
      · exact .inr (.inr ⟨fault, .min random wrong⟩)
    · match dt with
      | none => exact absurd (.inl rfl) fixed
      | some label =>
        exact .inr (.inr ⟨_, .unknown (fun h => fixed (.inr (congrArg _ h)))
          (fun h => random (congrArg _ h))⟩)

/-- A loop keeps its rules, or breaks one. -/
theorem loop_or_loopFault (id : StepId) (n : Option Int)
    (body : Option (List (StepDocument String))) :
    (∃ m steps, n = some m ∧ body = some steps ∧ (1 ≤ m ∧ m ≤ Size.greatest32))
      ∨ ∃ fault, LoopFault id n body fault := by
  cases n with
  | none => exact .inr ⟨_, .uncounted⟩
  | some m =>
    by_cases out : m < 1 ∨ Size.greatest32 < m
    · exact .inr ⟨_, .outOfRange out⟩
    · have counted : 1 ≤ m ∧ m ≤ Size.greatest32 := by omega
      cases body with
      | none => exact .inr ⟨_, .noBody counted⟩
      | some steps => exact .inl ⟨m, steps, rfl, rfl, counted⟩

/-- The types of steps, and all that is not one. -/
theorem type_cases (type : Option String) :
    type = none ∨ type = some "relay" ∨ type = some "wait" ∨ type = some "loop"
      ∨ ∃ label, type = some label ∧ label ∉ ["relay", "wait", "loop"] := by
  match type with
  | none => exact .inl rfl
  | some label =>
    by_cases other : label ∈ ["relay", "wait", "loop"]
    · simp only [List.mem_cons, List.not_mem_nil, or_false] at other
      rcases other with rfl | rfl | rfl <;> simp
    · exact .inr (.inr (.inr (.inr ⟨label, rfl, other⟩)))

/-- **A step keeps the rules of its type, or breaks one.** -/
theorem sound_or_breaks (d : StepDocument String) : d.Sound ∨ ∃ fault, d.Breaks fault := by
  obtain ⟨id, type, r, a, dt, dur, lo, hi, n, body⟩ := d
  rcases type_cases type with typed | typed | typed | typed | ⟨label, typed, other⟩
  · exact .inr ⟨_, .untyped typed⟩
  · rcases relay_or_relayFault id r a with ⟨n, label, rfl, rfl, hin, hlabel⟩ | ⟨fault, wrong⟩
    · exact .inl (.relay typed hin hlabel)
    · exact .inr ⟨fault, .relay typed wrong⟩
  · rcases wait_or_waitFault id dt dur lo hi with ⟨fixed, n, rfl, hn⟩
      | ⟨random, m, n, rfl, rfl, hm, ordered⟩ | ⟨fault, wrong⟩
    · exact .inl (.fixed typed fixed hn)
    · exact .inl (.random typed random hm ordered)
    · exact .inr ⟨fault, .wait typed wrong⟩
  · rcases loop_or_loopFault id n body with ⟨n, body, rfl, rfl, counted⟩ | ⟨fault, wrong⟩
    · exact .inl (.loop typed counted)
    · exact .inr ⟨fault, .loop typed wrong⟩
  · exact .inr ⟨_, .unknown typed other⟩

theorem fault?_eq_none_iff {d : StepDocument String} (hd : d.Bounded) :
    d.fault? = none ↔ d.Sound := by
  refine ⟨fun h => ?_, fun h => h.fault?_eq hd⟩
  rcases sound_or_breaks d with sound | ⟨fault, breaks⟩
  · exact sound
  · rw [breaks.fault?_eq hd] at h
    cases h

theorem fault?_eq_some_iff {d : StepDocument String} (hd : d.Bounded) {fault : Malformed} :
    d.fault? = some fault ↔ d.Breaks fault := by
  refine ⟨fun h => ?_, fun h => h.fault?_eq hd⟩
  rcases sound_or_breaks d with sound | ⟨fault', breaks⟩
  · rw [sound.fault?_eq hd] at h
    cases h
  · rw [breaks.fault?_eq hd] at h
    rwa [← Option.some.inj h]

/-! ## Steps that are reached -/

/-- The identifier of a step. -/
def id : StepDocument ι → ι
  | mk id _ _ _ _ _ _ _ _ _ => id

mutual

/-- **A step and every step that is reached from it**, depth first. What is inside a step
that is no loop is not reached. -/
def reached : StepDocument ι → List (StepDocument ι)
  | mk id type r a dt dur lo hi n body =>
    mk id type r a dt dur lo hi n body :: if type = some "loop" then reachedBody body else []

/-- The steps reached from the body of a loop. -/
def reachedBody : Option (List (StepDocument ι)) → List (StepDocument ι)
  | none => []
  | some steps => reachedAll steps

/-- The steps reached from some steps, one after the other. -/
def reachedAll : List (StepDocument ι) → List (StepDocument ι)
  | [] => []
  | d :: rest => reached d ++ reachedAll rest

end

section

variable {i : ι} {type a dt : Option String} {r dur lo hi n : Option Int}
  {body : Option (List (StepDocument ι))}

theorem reached_of_loop : reached (mk i (some "loop") r a dt dur lo hi n body)
    = mk i (some "loop") r a dt dur lo hi n body :: reachedBody body := by
  rw [reached, if_pos rfl]

theorem reached_of_ne_loop (h : type ≠ some "loop") :
    reached (mk i type r a dt dur lo hi n body) = [mk i type r a dt dur lo hi n body] := by
  rw [reached, if_neg h]

end

mutual

/-- Steps that are reached have numbers of 64 bits if all steps have. -/
theorem Bounded.reached {d : StepDocument ι} (h : d.Bounded) :
    ∀ q ∈ StepDocument.reached d, q.Bounded := by
  match d with
  | mk id type r a dt dur lo hi n body =>
    intro q hq
    rw [StepDocument.reached, List.mem_cons] at hq
    rcases hq with rfl | hq
    · exact h
    · split at hq
      · match body with
        | some steps => exact boundedAll_reachedAll h.2 q hq
      · cases hq

theorem boundedAll_reachedAll {ds : List (StepDocument ι)} (h : BoundedAll ds) :
    ∀ q ∈ reachedAll ds, q.Bounded := by
  match ds with
  | [] => exact nofun
  | d :: ds =>
    intro q hq
    rcases List.mem_append.mp hq with hq | hq
    · exact Bounded.reached h.1 q hq
    · exact boundedAll_reachedAll h.2 q hq

end

mutual

/-- **The fault of a step is the first among the steps that are reached from it.** -/
theorem found?_toStep (d : StepDocument String) :
    Malformed.found? (toStep d) = (reached d).findSome? fault? := by
  match d with
  | mk id type r a dt dur lo hi n body =>
    rcases type_cases type with rfl | rfl | rfl | rfl | ⟨label, rfl, other⟩
    · rw [reached_of_ne_loop (by decide), List.findSome?_singleton]
      rfl
    · rw [reached_of_ne_loop (by decide), List.findSome?_singleton]
      rfl
    · rw [reached_of_ne_loop (by decide), List.findSome?_singleton]
      rfl
    · rw [reached_of_loop, ← List.singleton_append, List.findSome?_append,
        List.findSome?_singleton, toStep, fault?]
      cases toIterations id n with
      | error fault => rfl
      | ok m =>
        match body with
        | none => rfl
        | some steps =>
          show Malformed.found? (toLoop id m (some steps)) = (reachedAll steps).findSome? fault?
          rw [toLoop, ← found?_toSteps]
          cases toSteps steps <;> rfl
    · have hloop : some label ≠ some "loop" := fun h => other (by simp [Option.some.inj h])
      rw [reached_of_ne_loop hloop, List.findSome?_singleton, toStep_of_unknown other,
        fault?_of_unknown other]
      rfl

theorem found?_toSteps (ds : List (StepDocument String)) :
    Malformed.found? (toSteps ds) = (reachedAll ds).findSome? fault? := by
  match ds with
  | [] => rfl
  | d :: ds =>
    rw [reachedAll, List.findSome?_append, ← found?_toStep, ← found?_toSteps, toSteps]
    cases toStep d with
    | error fault => rfl
    | ok s => cases toSteps ds <;> rfl

end

/-- **Steps are read exactly if all that are reached keep the rules of their types.** -/
theorem exists_toSteps_iff {ds : List (StepDocument String)} (hds : BoundedAll ds) :
    (∃ ss, toSteps ds = .ok ss) ↔ ∀ d ∈ reachedAll ds, d.Sound := by
  rw [← Malformed.found?_eq_none_iff, found?_toSteps, List.findSome?_eq_none_iff]
  exact forall₂_congr fun d hd => fault?_eq_none_iff (boundedAll_reachedAll hds d hd)

/-- **The fault of steps is that of the first step reached that breaks its rules.** -/
theorem toSteps_eq_error_iff {ds : List (StepDocument String)} (hds : BoundedAll ds)
    {fault : Malformed} :
    toSteps ds = .error fault
      ↔ ∃ before d after, reachedAll ds = before ++ d :: after ∧ d.Breaks fault
        ∧ ∀ q ∈ before, q.Sound := by
  rw [← Malformed.found?_eq_some_iff, found?_toSteps, List.findSome?_eq_some_iff]
  have hb := boundedAll_reachedAll hds
  refine exists_congr fun before => exists_congr fun d => exists_congr fun after =>
    and_congr_right fun split => ?_
  rw [split, List.forall_mem_append, List.forall_mem_cons] at hb
  exact and_congr (fault?_eq_some_iff hb.2.1)
    (forall₂_congr fun q hq => fault?_eq_none_iff (hb.1 q hq))

/-! ## What steps are read as -/

/-- **Documents of steps are read as steps** with the same identifiers, all of them sound by
themselves. -/
structure ReadAs (walked : List (StepDocument String)) (steps : List Step) : Prop where
  /-- The identifiers. -/
  ids : steps.map Step.id = walked.map id
  /-- No step breaks the rules of its own kind. -/
  sound : ∀ s ∈ steps, s.fault? = none

theorem ReadAs.append {xs ys : List (StepDocument String)} {ss ts : List Step}
    (h : ReadAs xs ss) (h' : ReadAs ys ts) : ReadAs (xs ++ ys) (ss ++ ts) where
  ids := by rw [List.map_append, List.map_append, h.ids, h'.ids]
  sound := List.forall_mem_append.mpr ⟨h.sound, h'.sound⟩

theorem ReadAs.singleton {d : StepDocument String} {s : Step} (hid : s.id = d.id)
    (hs : s.fault? = none) : ReadAs [d] [s] where
  ids := congrArg (fun i => [i]) hid
  sound := by simpa using hs

mutual

/-- **What a step is read as**, with everything inside it. -/
theorem readAs_of_toStep {d : StepDocument String} {s : Step} (h : toStep d = .ok s)
    (hd : d.Bounded) : ReadAs (reached d) s.walk := by
  match d with
  | mk id type r a dt dur lo hi n body =>
    have hsound : Sound (mk id type r a dt dur lo hi n body) := by
      have hnone := found?_toStep (mk id type r a dt dur lo hi n body)
      rw [h, eq_comm, Malformed.found?, List.findSome?_eq_none_iff] at hnone
      refine (fault?_eq_none_iff hd).mp (hnone _ ?_)
      rw [reached]
      exact List.mem_cons_self
    cases hsound with
    | relay typed exists_output exists_state =>
      subst typed
      obtain ⟨output, power, heq⟩ := toRelay_eq_ok id exists_output exists_state
      obtain rfl := Except.ok.inj (heq.symm.trans h)
      rw [reached_of_ne_loop (by decide)]
      exact .singleton rfl rfl
    | fixed typed fixed nonneg =>
      subst typed
      obtain rfl := Except.ok.inj ((toWait_eq_ok_of_fixed fixed nonneg).symm.trans h)
      rw [reached_of_ne_loop (by decide)]
      exact .singleton rfl rfl
    | random typed random nonneg ordered =>
      subst typed
      obtain ⟨hnumbers, -⟩ := hd
      obtain ⟨heq, hle⟩ := toWait_eq_ok_of_random id dur random nonneg ordered
        (hnumbers _ (by simp)) (hnumbers _ (by simp))
      obtain rfl := Except.ok.inj (heq.symm.trans h)
      rw [reached_of_ne_loop (by decide)]
      exact .singleton rfl (if_neg hle)
    | @loop _ _ _ _ _ _ _ _ m steps typed counted =>
      subst typed
      obtain ⟨heq, hne⟩ := toIterations_eq_ok id counted
      rw [toStep, heq] at h
      obtain ⟨ds, ss, hds, hss, rfl⟩ := of_toLoop h
      obtain rfl := Option.some.inj hds
      rw [reached_of_loop, Step.walk]
      have hself : ReadAs [mk id (some "loop") r a dt dur lo hi (some m) (some steps)]
          [Step.loop id (UInt32.ofNat m.toNat) ss] := .singleton rfl (if_neg hne)
      exact hself.append (readAs_of_toSteps hss hd.2)

theorem readAs_of_toSteps {ds : List (StepDocument String)} {ss : List Step}
    (h : toSteps ds = .ok ss) (hds : BoundedAll ds) : ReadAs (reachedAll ds) (Step.walkAll ss) := by
  match ds with
  | [] =>
    obtain rfl := Except.ok.inj h
    exact ⟨rfl, nofun⟩
  | d :: ds =>
    obtain ⟨s, rest, hs, hrest, rfl⟩ := toSteps_cons h
    exact (readAs_of_toStep hs hds.1).append (readAs_of_toSteps hrest hds.2)

end

end StepDocument

end Switchboard
