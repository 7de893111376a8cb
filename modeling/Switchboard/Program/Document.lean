import Switchboard.Identifier
import Switchboard.Program.Validation
import Switchboard.Size

/-!
# Program documents

Programs are exchanged as documents that are deliberately loose: every field
may be missing and integers may have any sign, so that a bad document can be
reported by step and field rather than refused as a whole.

A document is a family over the type of its identifiers. As read, an
identifier may be missing; `identify` mints the missing ones, and only then is
the document turned into a program (`toProgram`). A program written out as a
document has all its identifiers (`Program.toDocument`).
-/

namespace Switchboard

/-- **A step as a document has it**, with identifiers in `ι`. -/
inductive StepDocument (ι : Type) where
  /-- All the fields that any type of step may have. -/
  | mk (id : ι) (type : Option String) (relay : Option Int) (action : Option String)
      (durationType : Option String) (duration durationMin durationMax : Option Int)
      (iterations : Option Int) (loopSteps : Option (List (StepDocument ι)))
deriving Repr

/-- **A program as a document has it**, with identifiers in `ι`. -/
structure ProgramDocument (ι : Type) where
  /-- The identifier. -/
  id : ι
  /-- The name. -/
  name : Option String
  /-- Whether the program may be run. -/
  enabled : Option Bool
  /-- The steps. -/
  steps : Option (List (StepDocument ι))
deriving Repr

/-! ## Minting the missing identifiers -/

namespace StepDocument

mutual

/-- A step with the missing identifiers minted, its own before those inside. -/
def identify (supply : IdSupply) :
    StepDocument (Option String) → StepDocument String × IdSupply
  | mk id t r a dt d lo hi n body =>
    let named := supply.fill id
    let inner := identifyBody named.2 body
    (mk named.1 t r a dt d lo hi n inner.1, inner.2)

/-- The body of a loop, if there is one, with the missing identifiers minted. -/
def identifyBody (supply : IdSupply) :
    Option (List (StepDocument (Option String))) →
      Option (List (StepDocument String)) × IdSupply
  | none => (none, supply)
  | some steps =>
    let inner := identifyAll supply steps
    (some inner.1, inner.2)

/-- Steps with the missing identifiers minted, one after the other. -/
def identifyAll (supply : IdSupply) :
    List (StepDocument (Option String)) → List (StepDocument String) × IdSupply
  | [] => ([], supply)
  | s :: rest =>
    let first := identify supply s
    let others := identifyAll first.2 rest
    (first.1 :: others.1, others.2)

end

end StepDocument

/-- A document with the missing identifiers minted. -/
def ProgramDocument.identify (supply : IdSupply) (doc : ProgramDocument (Option String)) :
    ProgramDocument String × IdSupply :=
  let named := supply.fill doc.id
  let inner := StepDocument.identifyBody named.2 doc.steps
  ({ id := named.1, name := doc.name, enabled := doc.enabled, steps := inner.1 }, inner.2)

/-! ## From documents to programs -/

namespace StepDocument

/-- A field that must be there. -/
def need {α : Type} (id : StepId) (field : Field) (value : Option α) : Except Malformed α :=
  match value with
  | some v => .ok v
  | none => .error (.missingField id field)

/-- A duration, which must be there and must not be negative. -/
def seconds (id : StepId) (field : Field) (value : Option Int) : Except Malformed UInt64 := do
  let n ← need id field value
  if n < 0 then .error (.negativeDuration id field n) else .ok (UInt64.ofNat n.toNat)

/-- The step of a document of type `relay`. -/
def toRelay (id : StepId) (relay : Option Int) (action : Option String) :
    Except Malformed Step := do
  let raw ← need id .relay relay
  match if raw < 0 then none else Relay.ofNat? raw.toNat with
  | none => .error (.relayOutOfRange id raw)
  | some output =>
    let label ← need id .action action
    match Power.ofLabel? label with
    | none => .error (.invalidAction id label)
    | some power => .ok (.relay id output power)

/-- The step of a document of type `wait`. A wait is fixed unless it says
otherwise. -/
def toWait (id : StepId) (durationType : Option String)
    (duration durationMin durationMax : Option Int) : Except Malformed Step :=
  match durationType.getD "fixed" with
  | "fixed" => do
    let n ← seconds id .duration duration
    .ok (.wait id (.fixed n))
  | "random" => do
    let lo ← seconds id .durationMin durationMin
    let hi ← seconds id .durationMax durationMax
    if hi < lo then .error (.invertedRange id lo.toNat hi.toNat)
    else .ok (.wait id (.random lo hi))
  | other => .error (.invalidDurationType id other)

/-- The number of times that a loop runs. -/
def toIterations (id : StepId) (iterations : Option Int) : Except Malformed UInt32 := do
  let n ← need id .iterations iterations
  if 1 ≤ n ∧ n ≤ Size.greatest32 then .ok (UInt32.ofNat n.toNat)
  else .error (.invalidIterations id n)

mutual

/-- **The step that a document describes**, or the first fault in it. Only the
fields that belong to the type of the step are looked at. -/
def toStep : StepDocument String → Except Malformed Step
  | mk id type relay action durationType duration durationMin durationMax iterations body =>
    match type with
    | none => .error (.missingField id .type)
    | some "relay" => toRelay id relay action
    | some "wait" => toWait id durationType duration durationMin durationMax
    | some "loop" =>
      match toIterations id iterations with
      | .error fault => .error fault
      | .ok n => toLoop id n body
    | some other => .error (.unknownStepType id other)

/-- The loop with the given body. -/
def toLoop (id : StepId) (iterations : UInt32) :
    Option (List (StepDocument String)) → Except Malformed Step
  | none => .error (.missingField id .loopSteps)
  | some body =>
    match toSteps body with
    | .error fault => .error fault
    | .ok steps => .ok (.loop id iterations steps)

/-- The steps that documents describe, or the first fault in them. -/
def toSteps : List (StepDocument String) → Except Malformed (List Step)
  | [] => .ok []
  | d :: rest =>
    match toStep d with
    | .error fault => .error fault
    | .ok s =>
      match toSteps rest with
      | .error fault => .error fault
      | .ok steps => .ok (s :: steps)

end

end StepDocument

/-- The name of a program whose document has none. -/
def ProgramDocument.defaultName : String := "Imported program"

/-- **The valid program that a document describes**, or the first fault in it:
missing steps, then the steps, then whatever `Program.validate` finds. -/
def ProgramDocument.toProgram (doc : ProgramDocument String) : Except Malformed Program :=
  match doc.steps with
  | none => .error .missingSteps
  | some steps =>
    match StepDocument.toSteps steps with
    | .error fault => .error fault
    | .ok steps =>
      let program : Program :=
        { id := doc.id
          name := doc.name.getD defaultName
          enabled := doc.enabled.getD true
          steps := steps }
      match program.validate with
      | .error fault => .error fault
      | .ok () => .ok program

/-! ## From programs to documents -/

/-- The largest duration that a document can hold. -/
def maxDocumentSeconds : Nat := Size.greatestSigned64

/-- A duration as a document holds it. -/
def documentSeconds (n : UInt64) : Int := min n.toNat maxDocumentSeconds

namespace Step

mutual

/-- **A step as a document.** -/
def toDocument : Step → StepDocument String
  | relay id o p =>
    .mk id (some "relay") (some o.val) (some p.label) none none none none none none
  | wait id (.fixed n) =>
    .mk id (some "wait") none none (some "fixed") (some (documentSeconds n)) none none none none
  | wait id (.random lo hi) =>
    .mk id (some "wait") none none (some "random") none
      (some (documentSeconds lo)) (some (documentSeconds hi)) none none
  | loop id n body =>
    .mk id (some "loop") none none none none none none (some n.toNat)
      (some (toDocuments body))

/-- Steps as documents. -/
def toDocuments : List Step → List (StepDocument String)
  | [] => []
  | s :: rest => toDocument s :: toDocuments rest

end

end Step

/-- A program as a document. -/
def Program.toDocument (p : Program) : ProgramDocument String :=
  { id := p.id
    name := some p.name
    enabled := some p.enabled
    steps := some (Step.toDocuments p.steps) }

/-! ## What a document can hold -/

/-- A span whose durations are lowered to what a document can hold. -/
def Span.lowered : Span → Span
  | .fixed n => .fixed (min n (UInt64.ofNat maxDocumentSeconds))
  | .random lo hi =>
    .random (min lo (UInt64.ofNat maxDocumentSeconds)) (min hi (UInt64.ofNat maxDocumentSeconds))

namespace Step

mutual

/-- A step whose durations are lowered to what a document can hold. -/
def lowered : Step → Step
  | relay id o p => relay id o p
  | wait id s => wait id s.lowered
  | loop id n body => loop id n (loweredAll body)

/-- Steps whose durations are lowered to what a document can hold. -/
def loweredAll : List Step → List Step
  | [] => []
  | s :: rest => lowered s :: loweredAll rest

end

end Step

/-- **A program whose durations are lowered to what a document can hold.** -/
def Program.lowered (p : Program) : Program := { p with steps := Step.loweredAll p.steps }

/-! ## Building programs -/

/-- **A program put together from its parts.** The identifier is minted and the
program enabled unless the parts say otherwise; the name has no default. -/
def Program.build (supply : IdSupply) (id name : Option String) (enabled : Option Bool)
    (steps : List Step) : Except Malformed Program × IdSupply :=
  let named := supply.fill id
  let program : Program :=
    { id := named.1, name := name.getD "", enabled := enabled.getD true, steps := steps }
  (match program.validate with
    | .error fault => .error fault
    | .ok () => .ok program, named.2)

end Switchboard
