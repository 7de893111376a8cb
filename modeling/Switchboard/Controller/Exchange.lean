import Switchboard.Actuator
import Switchboard.Relay.Format

/-!
# Talking to the relay controller

The controller takes commands and tells the state of its outputs over HTTP,
with small JSON records as bodies. An output is switched by one request, and
a failure is final: nothing is ever sent twice.

What answers a request is a `Link`, which keeps a state of its own.
-/

namespace Switchboard.Controller

/-- **What is asked of the controller.** -/
inductive Request where
  /-- Switch an output. -/
  | set (output : Relay) (power : Power)
  /-- Tell the state of the outputs. -/
  | state
deriving Repr, DecidableEq

namespace Request

/-- The method of a request. -/
def method : Request → String
  | set .. => "POST"
  | state => "GET"

/-- The path of a request. -/
def path : Request → String
  | set .. => "/relay/set"
  | state => "/state"

/-- The body of a request, if it has one. -/
def body? : Request → Option Json
  | set output power => some (.record [("relay", .nat output.val), ("state", .nat power.toWire)])
  | state => none

end Request

/-- **What comes back.** -/
inductive Answer where
  /-- A final status and a body, which need not be text. -/
  | response (status : Nat) (body : List UInt8)
  /-- Nothing: the connection failed or broke. -/
  | dropped
deriving Repr, DecidableEq

/-- **What answers requests**, with a state of type `δ`. -/
abbrev Link (δ : Type) := Request → δ → Answer × δ

/-! ## Understanding an answer -/

/-- Reads whether a command succeeded: anything but 0. -/
def successDecoder : Json.Decoder Nat :=
  Json.Decoder.record ["success"] 1 fun depth fields =>
    fields.required "success" Json.Decoder.byte depth

/-- Reads the state of the four outputs. -/
def stateDecoder : Json.Decoder (PerRelay Power) :=
  Json.Decoder.record ["in1", "in2", "in3", "in4"] 4 fun depth fields => do
    let a ← fields.required "in1" Json.Decoder.byte depth
    let b ← fields.required "in2" Json.Decoder.byte depth
    let c ← fields.required "in3" Json.Decoder.byte depth
    let d ← fields.required "in4" Json.Decoder.byte depth
    some #v[Power.ofWire a, Power.ofWire b, Power.ofWire c, Power.ofWire d]

/-- What is wrong when nothing comes back from an address. -/
def unansweredFault (url : String) : ActuatorFault :=
  .unreachable ("http error: error sending request for url (" ++ url ++ ")")

/-- What is wrong with a status other than success. -/
def statusFault (status : Nat) : ActuatorFault :=
  .protocol ("controller answered with status " ++ Nat.repr status)

/-- What is wrong with a body that makes no sense. -/
def bodyFault : ActuatorFault := .protocol "http error: error decoding response body"

/-- **The body of an answer as a value**, or why there is none. -/
def Answer.read {α : Type} (d : Json.Decoder α) (url : String) :
    Answer → Except ActuatorFault α
  | dropped => .error (unansweredFault url)
  | response status body =>
    if 200 ≤ status ∧ status < 300 then
      match d.runBytes body with
      | some v => .ok v
      | none => .error bodyFault
    else .error (statusFault status)

/-! ## The client -/

variable {δ : Type}

/-- **Switches an output.** -/
def set (base : String) (link : Link δ) (output : Relay) (power : Power) (d : δ) :
    Except ActuatorFault Unit × δ :=
  let request := Request.set output power
  let (answer, d) := link request d
  match answer.read successDecoder (base ++ request.path) with
  | .error f => (.error f, d)
  | .ok 0 => (.error (.rejected output), d)
  | .ok _ => (.ok (), d)

/-- **Asks for the state of the outputs.** -/
def read (base : String) (link : Link δ) (d : δ) :
    Except ActuatorFault (PerRelay Power) × δ :=
  let (answer, d) := link .state d
  (answer.read stateDecoder (base ++ Request.state.path), d)

/-- **The controller as an actuator.** -/
def actuator (base : String) (link : Link δ) : Actuator δ := ⟨set base link, read base link⟩

/-- **Switches every output off.** -/
def sweep (base : String) (link : Link δ) : δ → Engine.Sweep × δ := (actuator base link).sweep

end Switchboard.Controller
