import Switchboard.Controller.Wire

/-!
# Controllers to talk to

The firmware of the controller stores what it is told and tells what it
stores. A device may also follow a script before it does what its firmware
says, and it may be out of reach.
-/

namespace Switchboard.Controller

/-- **A controller.** -/
structure Device where
  /-- What each output was set to last, as the firmware stores it. -/
  outputs : PerRelay Nat
  /-- The answers that come before those of the firmware. -/
  script : List Answer := []
  /-- The requests that reached it, newest first. -/
  requests : List Request := []
deriving Repr

namespace Device

/-- A controller that was just switched on. -/
def fresh : Device := { outputs := .same 0 }

/-- The body that tells the state of the outputs. -/
def stateBody (outputs : PerRelay Nat) : String :=
  (Json.record (Relay.all.map fun r =>
    ("in" ++ Nat.repr (r.val + 1), .nat (outputs.of r)))).compact

/-- The body that tells whether a command succeeded. -/
def successBody (success : Nat) : String := (Json.record [("success", .nat success)]).compact

/-- Reads the number of an output and the state that it shall have. -/
def commandDecoder : Json.Decoder (Nat × Nat) :=
  Json.Decoder.record ["relay", "state"] 2 fun depth fields => do
    let output ← fields.required "relay" Json.Decoder.byte depth
    let state ← fields.required "state" Json.Decoder.byte depth
    some (output, state)

/-- Sets an output to the state that a body says, if it says one. -/
def obey (body : String) (d : Device) : Answer × Device :=
  match commandDecoder.run body with
  | none => (.response 422 "", d)
  | some (n, state) =>
    match Relay.ofNat? n with
    | none => (.response 200 (successBody 0), d)
    | some output =>
      (.response 200 (successBody 1), { d with outputs := d.outputs.put output state })

/-- **What the firmware answers.** -/
def firmware : Server Device := fun m d =>
  match m with
  | ⟨"POST", "/relay/set", some body⟩ => obey body d
  | ⟨"GET", "/state", _⟩ => (.response 200 (stateBody d.outputs), d)
  | _ => (.response 404 "", d)

/-- **What a device answers**: its script, and then its firmware. Answers of the
script leave the outputs alone. -/
def answer : Link Device := fun r d =>
  let d := { d with requests := r :: d.requests }
  match d.script with
  | a :: script => (a, { d with script })
  | [] => firmware.link r d

/-- A device that no request reaches. -/
def outOfReach : Link Device := fun _ d => (.dropped, d)

end Device

end Switchboard.Controller
