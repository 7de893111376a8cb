import Switchboard.Controller.Device
import Switchboard.Proofs.Characters
import Switchboard.Proofs.Documents
import Switchboard.Proofs.Records

/-!
# Two actuators, one behaviour

A controller that follows the protocol of its firmware and a simulated board without faults
cannot be told apart by what they answer, whatever they are called for, and their outputs are
the same all the time.

The proof goes by a relation between their states that every call keeps. It is enough to look
at the calls that switch one output and that tell the state (`Actuator.Agree`), since a sweep is
made of the former. What a controller does is said of messages (`Server.IsFirmware`): which text
asks for which output to be set to which number, and what an object has to say of success and of
the outputs. Its members may come in any order, and among others.
-/

namespace Switchboard

open Json

/-! ## Calls -/

namespace Actuator

/-- **What an actuator is called for.** -/
inductive Call where
  /-- An output is switched. -/
  | set (output : Relay) (power : Power)
  /-- Every output is switched off. -/
  | sweep
  /-- The state of the outputs is told. -/
  | read
deriving Repr, DecidableEq

/-- **What comes of a call.** -/
inductive Outcome where
  /-- Whether an output was switched. -/
  | switched (result : Except ActuatorFault Unit)
  /-- What every output said to being switched off. -/
  | swept (report : Engine.Sweep)
  /-- The state of the outputs. -/
  | told (result : Except ActuatorFault (PerRelay Power))

variable {σ τ : Type}

/-- What comes of one call. -/
def perform (a : Actuator σ) : Call → σ → Outcome × σ
  | .set output power, x => ((a.set output power x).map .switched id)
  | .sweep, x => (a.sweep x).map .swept id
  | .read, x => (a.read x).map .told id

/-- **What comes of calls**, one after the other. -/
def outcomes (a : Actuator σ) : List Call → σ → List Outcome
  | [], _ => []
  | c :: cs, x => (a.perform c x).1 :: outcomes a cs (a.perform c x).2

/-- What calls leave behind. -/
def after (a : Actuator σ) (cs : List Call) (x : σ) : σ := cs.foldl (fun x c => (a.perform c x).2) x

/-- **Two actuators agree** on what they answer, from states that belong together. -/
structure Agree (a : Actuator σ) (b : Actuator τ) (rel : σ → τ → Prop) : Prop where
  /-- They switch an output alike. -/
  set : ∀ {x y}, rel x y → ∀ output power,
    (a.set output power x).1 = (b.set output power y).1 ∧
      rel (a.set output power x).2 (b.set output power y).2
  /-- They tell the same state. -/
  read : ∀ {x y}, rel x y → (a.read x).1 = (b.read y).1 ∧ rel (a.read x).2 (b.read y).2

namespace Agree

variable {a : Actuator σ} {b : Actuator τ} {rel : σ → τ → Prop}

/-- They switch outputs off alike, one after the other. -/
theorem sweepFrom (h : a.Agree b rel) (rs : List Relay) (report : Engine.Sweep) {x : σ} {y : τ}
    (xy : rel x y) : (a.sweepFrom rs report x).1 = (b.sweepFrom rs report y).1 ∧
      rel (a.sweepFrom rs report x).2 (b.sweepFrom rs report y).2 := by
  induction rs generalizing report x y with
  | nil => exact ⟨rfl, xy⟩
  | cons r rs ih =>
    obtain ⟨same, next⟩ := h.set xy r .off
    show (a.sweepFrom rs (report.record r (a.set r .off x).1) (a.set r .off x).2).1 =
        (b.sweepFrom rs (report.record r (b.set r .off y).1) (b.set r .off y).2).1 ∧
      rel (a.sweepFrom rs (report.record r (a.set r .off x).1) (a.set r .off x).2).2
        (b.sweepFrom rs (report.record r (b.set r .off y).1) (b.set r .off y).2).2
    rw [same]
    exact ih _ next

/-- **They answer every call alike.** -/
theorem perform (h : a.Agree b rel) (c : Call) {x : σ} {y : τ} (xy : rel x y) :
    (a.perform c x).1 = (b.perform c y).1 ∧ rel (a.perform c x).2 (b.perform c y).2 := by
  cases c with
  | set output power => exact (h.set xy output power).imp_left (congrArg Outcome.switched)
  | sweep => exact (h.sweepFrom Relay.all .empty xy).imp_left (congrArg Outcome.swept)
  | read => exact (h.read xy).imp_left (congrArg Outcome.told)

/-- **They answer any sequence of calls alike**, and stay together. -/
theorem run (h : a.Agree b rel) (cs : List Call) {x : σ} {y : τ} (xy : rel x y) :
    a.outcomes cs x = b.outcomes cs y ∧ rel (a.after cs x) (b.after cs y) := by
  induction cs generalizing x y with
  | nil => exact ⟨rfl, xy⟩
  | cons c cs ih =>
    obtain ⟨same, next⟩ := h.perform c xy
    obtain ⟨others, last⟩ := ih next
    exact ⟨congrArg₂ List.cons same others, last⟩

end Agree

end Actuator

/-- There are four outputs. -/
theorem Relay.forall_iff {P : Relay → Prop} : (∀ r, P r) ↔ P 0 ∧ P 1 ∧ P 2 ∧ P 3 := by
  have each : (∀ r, P r) ↔ ∀ r ∈ Relay.all, P r := by simp
  rw [each, Relay.all, Relay.others, Relay.first]
  simp

theorem PerRelay.ext {α : Type} {v w : PerRelay α} (h : ∀ r, v.of r = w.of r) : v = w :=
  Vector.ext fun i lt => h ⟨i, lt⟩

theorem PerRelay.of_map {α β : Type} (f : α → β) (v : PerRelay α) (r : Relay) :
    PerRelay.of (v.map f) r = f (v.of r) := by
  simp [of]

/-! ## What a body says -/

namespace Controller

/-- **A body says something of names** if it is an object that gives them numbers, among
members of other names. -/
def Says (body : List UInt8) (told : List (String × Nat)) : Prop :=
  ∃ ms : Fields, Json.parseBytes body = some (.record ms) ∧ (ms.map Prod.fst).Nodup ∧
    ∀ m ∈ told, ms.lookup m.1 = some (.nat m.2)

/-- An answer of success with a body that says something. -/
def Answer.Says (a : Answer) (told : List (String × Nat)) : Prop :=
  ∃ status body, a = .response status body ∧ (200 ≤ status ∧ status < 300) ∧
    Controller.Says body told

/-- What is said of the outputs: `in1` to `in4`. -/
def inputs (outputs : PerRelay Nat) : List (String × Nat) :=
  Relay.all.map fun r => ("in" ++ Nat.repr (r.val + 1), outputs.of r)

/-- **A server follows the protocol of the firmware**, where its outputs are as a view of its
state has them. -/
structure Server.IsFirmware {δ : Type} (f : Server δ) (outputs : δ → PerRelay Nat) : Prop where
  /-- A command stores a state for the output that it names, and success is answered. -/
  set : ∀ d body (output : Relay) (state : Nat), state ≤ 1 →
    Json.parse body = some (.record [("relay", .nat output.val), ("state", .nat state)]) →
    (f ⟨"POST", "/relay/set", some body⟩ d).1.Says [("success", 1)] ∧
      outputs (f ⟨"POST", "/relay/set", some body⟩ d).2 = (outputs d).put output state
  /-- The state is told as it was stored. -/
  state : ∀ d, (f ⟨"GET", "/state", none⟩ d).1.Says (inputs (outputs d)) ∧
    outputs (f ⟨"GET", "/state", none⟩ d).2 = outputs d

/-! ## What the client understands -/

/-- **A number is read of a body** that tells it of `success`. -/
theorem run_successDecoder_iff {body : List UInt8} {n : Nat} :
    successDecoder.runBytes body = some n ↔ Json.Tells body [("success", n)] := by
  refine Json.runBytes_record_eq_some_iff.trans (exists_congr fun v => and_congr_right fun _ => ?_)
  have unique : ([("success", n)].map Prod.fst).Nodup := by simp
  simpa using Json.required_iff_gives unique 126 v

/-- A byte that belongs to no character is harmless in a member that nobody asks for. -/
example : successDecoder.runBytes (Text.bytes "\x7b\"success\":1,\"note\":\"" ++ [0xFF]
    ++ Text.bytes "\"\x7d") = some 1 := by
  decide +kernel

theorem inputs_eq (outputs : PerRelay Nat) :
    inputs outputs =
      [("in1", outputs.of 0), ("in2", outputs.of 1), ("in3", outputs.of 2),
        ("in4", outputs.of 3)] := rfl

/-- The names of the outputs are distinct. -/
theorem nodup_inputs (outputs : PerRelay Nat) : ((inputs outputs).map Prod.fst).Nodup := by
  rw [inputs_eq]
  simp

/-- The state is built of four numbers. -/
theorem exists_required_inputs_iff {found : Json.Fields} {depth : Nat} {powers : PerRelay Power} :
    (do
      let a ← found.required "in1" Json.Decoder.byte depth
      let b ← found.required "in2" Json.Decoder.byte depth
      let c ← found.required "in3" Json.Decoder.byte depth
      let d ← found.required "in4" Json.Decoder.byte depth
      some #v[Power.ofWire a, Power.ofWire b, Power.ofWire c, Power.ofWire d]) = some powers ↔
      ∃ outputs, (∀ t ∈ inputs outputs,
          found.required t.1 Json.Decoder.byte depth = some t.2) ∧
        ∀ r, powers.of r = .ofWire (outputs.of r) := by
  simp only [Option.bind_eq_bind, Option.bind_eq_some_iff, inputs_eq, List.forall_mem_cons]
  constructor
  · rintro ⟨a, one, b, two, c, three, d, four, built⟩
    obtain rfl := Option.some.inj built
    exact ⟨#v[a, b, c, d], ⟨one, two, three, four, List.forall_mem_nil _⟩,
      Relay.forall_iff.mpr ⟨rfl, rfl, rfl, rfl⟩⟩
  · rintro ⟨outputs, ⟨one, two, three, four, -⟩, same⟩
    refine ⟨_, one, _, two, _, three, _, four, congrArg some (PerRelay.ext fun r => ?_)⟩
    rw [same]
    revert r
    exact Relay.forall_iff.mpr ⟨rfl, rfl, rfl, rfl⟩

/-- **The state is read of a body** that tells a number of each of the outputs. -/
theorem run_stateDecoder_iff {body : List UInt8} {powers : PerRelay Power} :
    stateDecoder.runBytes body = some powers ↔
      ∃ outputs, Json.Tells body (inputs outputs) ∧ ∀ r, powers.of r = .ofWire (outputs.of r) := by
  have gives (outputs : PerRelay Nat) (v : Json) :
      (∃ found, Json.fields? ["in1", "in2", "in3", "in4"] 4 v = some found ∧
          ∀ t ∈ inputs outputs, found.required t.1 Json.Decoder.byte 126 = some t.2) ↔
        v.Gives (inputs outputs) ∧ ∀ t ∈ inputs outputs, t.2 ≤ 255 :=
    Json.required_iff_gives (nodup_inputs outputs) 126 v
  refine Json.runBytes_record_eq_some_iff.trans ?_
  simp only [exists_required_inputs_iff, Json.Tells, ← gives]
  constructor
  · rintro ⟨v, parsed, found, fields, outputs, required, same⟩
    exact ⟨outputs, ⟨v, parsed, found, fields, required⟩, same⟩
  · rintro ⟨outputs, ⟨v, parsed, found, fields, required⟩, same⟩
    exact ⟨v, parsed, found, fields, outputs, required, same⟩

/-- **What is said of small numbers is told.** -/
theorem Says.tells {body : List UInt8} {told : List (String × Nat)} (h : Says body told)
    (small : ∀ t ∈ told, t.2 ≤ 255) : Json.Tells body told := by
  obtain ⟨ms, parsed, unique, has⟩ := h
  exact ⟨_, parsed, gives_record unique has, small⟩

/-- **An answer that says success is understood as such.** -/
theorem Answer.Says.read_success {a : Answer} (h : a.Says [("success", 1)]) (url : String) :
    a.read successDecoder url = .ok 1 := by
  obtain ⟨status, body, rfl, ok, said⟩ := h
  have run : successDecoder.runBytes body = some 1 :=
    run_successDecoder_iff.mpr (said.tells (by simp))
  rw [Answer.read, if_pos ok, run]

/-- **An answer that says the state of the outputs is understood as such.** -/
theorem Answer.Says.read_state {a : Answer} {outputs : PerRelay Nat} (h : a.Says (inputs outputs))
    (small : ∀ r, outputs.of r ≤ 255) (url : String) :
    ∃ v, a.read stateDecoder url = .ok v ∧ ∀ r, v.of r = .ofWire (outputs.of r) := by
  obtain ⟨status, body, rfl, ok, said⟩ := h
  have tells : Json.Tells body (inputs outputs) :=
    said.tells (List.forall_mem_map.mpr fun r _ => small r)
  have run := run_stateDecoder_iff.mpr ⟨outputs, tells, PerRelay.of_map Power.ofWire outputs⟩
  exact ⟨_, by rw [Answer.read, if_pos ok, run], PerRelay.of_map Power.ofWire outputs⟩

/-- A command that is confirmed has succeeded. -/
theorem set_of_says {δ : Type} {link : Link δ} {output : Relay} {power : Power} {d : δ}
    (confirmed : (link (.set output power) d).1.Says [("success", 1)]) (base : String) :
    set base link output power d = (.ok (), (link (.set output power) d).2) := by
  simp only [set, confirmed.read_success]

/-! ## The controller and the board -/

section

variable {δ : Type} {f : Server δ} {outputs : δ → PerRelay Nat} {d : δ} {b : Board}

/-- **A controller and a board belong together** if each output is stored as the number that
means its state, and the board has no faults. -/
structure Mirrors (outputs : δ → PerRelay Nat) (d : δ) (b : Board) : Prop where
  /-- The outputs are the same. -/
  stored : ∀ r, (outputs d).of r = (b.power r).toWire
  /-- No output of the board refuses. -/
  inOrder : b.faulty = .same false

/-- Only two numbers are sent. -/
theorem toWire_le (p : Power) : p.toWire ≤ 1 := by
  cases p <;> decide

/-- **Both switch an output alike.** -/
theorem Mirrors.set (mirrors : Mirrors outputs d b) (firmware : f.IsFirmware outputs)
    (base : String) (output : Relay) (power : Power) :
    (Controller.set base f.link output power d).1 = (b.command output power).1 ∧
      Mirrors outputs (Controller.set base f.link output power d).2
        (b.command output power).2 := by
  have obeyed : (f (Request.set output power).message d).1.Says [("success", 1)] ∧
      outputs (f (Request.set output power).message d).2 = (outputs d).put output power.toWire :=
    firmware.set d _ output power.toWire (toWire_le power) (parse_compact _)
  have board : b.command output power = (.ok (),
      { b with
        outputs := b.outputs.put output power
        commands := (output, power) :: b.commands }) := by
    simp [Board.command, mirrors.inOrder]
  rw [board, set_of_says obeyed.1]
  refine ⟨rfl, fun r => ?_, mirrors.inOrder⟩
  show (outputs (f (Request.set output power).message d).2).of r =
    ((b.outputs.put output power).of r).toWire
  rw [obeyed.2]
  by_cases same : output = r
  · rw [same, PerRelay.of_put_self, PerRelay.of_put_self]
  · rw [PerRelay.of_put_ne _ _ same, PerRelay.of_put_ne _ _ same]
    exact mirrors.stored r

/-- **Both tell the same state.** -/
theorem Mirrors.read (mirrors : Mirrors outputs d b) (firmware : f.IsFirmware outputs)
    (base : String) :
    (Controller.read base f.link d).1 = .ok b.outputs ∧
      Mirrors outputs (Controller.read base f.link d).2 b := by
  have told : (f Request.state.message d).1.Says (inputs (outputs d)) ∧
      outputs (f Request.state.message d).2 = outputs d := firmware.state d
  have small (r : Relay) : (outputs d).of r ≤ 255 := by
    rw [mirrors.stored r]
    exact Nat.le_trans (toWire_le _) (by decide)
  constructor
  · obtain ⟨v, read, same⟩ := told.1.read_state small (base ++ Request.state.path)
    refine read.trans (congrArg Except.ok (PerRelay.ext fun r => ?_))
    rw [same, mirrors.stored r, Power.ofWire_toWire]
    rfl
  · refine ⟨fun r => ?_, mirrors.inOrder⟩
    show (outputs (f Request.state.message d).2).of r = _
    rw [told.2]
    exact mirrors.stored r

/-- **The controller and the board agree.** -/
theorem agree (firmware : f.IsFirmware outputs) (base : String) :
    (actuator base f.link).Agree Board.actuator (Mirrors outputs) where
  set mirrors := mirrors.set firmware base
  read mirrors := mirrors.read firmware base

/-- **A controller whose firmware follows the protocol behaves as the simulated board.** With
all outputs at 0 in the beginning, every sequence of calls is answered alike by both, and after
it an output of the controller is other than 0 exactly if that of the board is on. -/
theorem actuators_alike (firmware : f.IsFirmware outputs) (base : String)
    (off : ∀ r, (outputs d).of r = 0) (calls : List Actuator.Call) :
    (actuator base f.link).outcomes calls d = Board.actuator.outcomes calls .fresh ∧
      ∀ r, (outputs ((actuator base f.link).after calls d)).of r ≠ 0 ↔
        (Board.actuator.after calls .fresh).power r = .on := by
  have fresh : Mirrors outputs d .fresh := by
    refine ⟨fun r => ?_, rfl⟩
    rw [off r, Board.power, show Board.fresh.outputs = .same .off from rfl, PerRelay.of_same]
    rfl
  obtain ⟨same, last⟩ := (agree firmware base).run calls fresh
  refine ⟨same, fun r => ?_⟩
  rw [last.stored r]
  cases (Board.actuator.after calls .fresh).power r <;> simp [Power.toWire]

end

/-! ## A device -/

/-- **What is printed is said.** -/
theorem says_compact {told : List (String × Nat)} (unique : (told.map Prod.fst).Nodup) :
    Says (Json.record (told.map fun m => (m.1, .nat m.2))).compact told := by
  refine ⟨told.map fun m => (m.1, .nat m.2), (Json.parseBytes_bytes _).trans (parse_compact _),
    by rw [List.map_map]; exact unique, ?_⟩
  induction told with
  | nil => exact nofun
  | cons m told ih =>
    obtain ⟨fresh, unique⟩ := List.nodup_cons.mp unique
    refine List.forall_mem_cons.mpr ⟨List.lookup_cons_self, fun q hq => ?_⟩
    have other : (q.1 == m.1) = false :=
      beq_false_of_ne fun same => fresh (same ▸ List.mem_map_of_mem hq)
    rw [List.map_cons, List.lookup_cons, other]
    exact ih unique q hq

/-- What a device understands of a command. -/
theorem Device.run_commandDecoder {body : String} {n state : Nat}
    (h : Json.Tells body [("relay", n), ("state", state)]) :
    Device.commandDecoder.run body = some (n, state) := by
  rw [← Json.Decoder.runBytes_bytes]
  obtain ⟨v, parsed, gives⟩ := h
  obtain ⟨found, fields, required⟩ := (required_iff_gives (by simp) 126 v).mpr gives
  refine runBytes_record_eq_some_iff.mpr ⟨v, parsed, found, fields, ?_⟩
  have output := required ("relay", n) (by simp)
  have state := required ("state", state) (by simp)
  simp only [output, state, Option.bind_eq_bind, Option.bind_some]

/-- **A command is obeyed** if its body is read. -/
theorem Device.obey_of_parse {body : String} {output : Relay} {state : Nat} (small : state ≤ 1)
    (parsed : Json.parse body =
      some (.record [("relay", .nat output.val), ("state", .nat state)])) (d : Device) :
    Device.obey body d =
      (.response 200 (successBody 1), { d with outputs := d.outputs.put output state }) := by
  have said : Says body [("relay", output.val), ("state", state)] :=
    ⟨_, (Json.parseBytes_bytes body).trans parsed, by simp,
      List.forall_mem_cons.mpr ⟨rfl, List.forall_mem_singleton.mpr rfl⟩⟩
  have read := Device.run_commandDecoder (said.tells (by simp; omega))
  simp only [Device.obey, read, Relay.ofNat?_val]

/-- A device says that a command succeeded. -/
theorem Device.says_successBody : Says (successBody 1) [("success", 1)] := by
  have body : successBody 1 = (Json.record
      ([("success", 1)].map fun m : String × Nat => (m.1, .nat m.2))).compact := rfl
  rw [body]
  exact says_compact (by simp)

/-- A device says the state of its outputs. -/
theorem Device.says_stateBody (outputs : PerRelay Nat) :
    Says (stateBody outputs) (inputs outputs) := by
  have body : stateBody outputs =
      (Json.record ((inputs outputs).map fun m => (m.1, .nat m.2))).compact := by
    rw [inputs, List.map_map, stateBody]
    rfl
  rw [body]
  exact says_compact (nodup_inputs outputs)

theorem Device.firmware_post (body : String) (d : Device) :
    Device.firmware ⟨"POST", "/relay/set", some body⟩ d = Device.obey body d := rfl

theorem Device.firmware_get (d : Device) :
    Device.firmware ⟨"GET", "/state", none⟩ d = (.response 200 (stateBody d.outputs), d) := rfl

/-- **The device follows the protocol.** -/
theorem isFirmware_device : Device.firmware.IsFirmware Device.outputs where
  set d body output state small parsed := by
    rw [Device.firmware_post, Device.obey_of_parse small parsed]
    exact ⟨⟨200, _, rfl, by decide, Device.says_successBody⟩, rfl⟩
  state d := by
    rw [Device.firmware_get]
    exact ⟨⟨200, _, rfl, by decide, Device.says_stateBody _⟩, rfl⟩

/-- A device that was just switched on, and two calls to it. -/
theorem actuators_alike_device :
    Device.firmware.IsFirmware Device.outputs ∧ (∀ r, Device.fresh.outputs.of r = 0) ∧
      (actuator "http://192.168.4.1" Device.firmware.link).outcomes
          [.set .first .on, .sweep, .read] .fresh =
        Board.actuator.outcomes [.set .first .on, .sweep, .read] .fresh := by
  have off (r : Relay) : Device.fresh.outputs.of r = 0 := PerRelay.of_same 0 r
  exact ⟨isFirmware_device, off, (actuators_alike isFirmware_device _ off _).1⟩

end Controller

end Switchboard
