import Switchboard.Proofs.Actuators
import Switchboard.Proofs.Records

/-!
# What is exchanged with a controller

A client makes one request for a command, one to be told the state of the outputs, and four for a
sweep. It makes them in the order of its calls, and never one again, whatever comes back.

What is answered to a call depends on the answers to its own requests alone (`Meets`): on their
status, and on what their bodies tell. A command has succeeded if it is told a number other than 0
and is refused if it is told a 0. An answer that makes no sense is a fault of the protocol, and
without an answer the controller is out of reach. The four commands of a sweep are judged one by
one.

Nothing is assumed of what answers, so `converses` holds for every controller. One whose answers are
settled before it is asked is told apart in `conversation_of_script`, since there the answers are
known from the start.
-/

namespace Switchboard

open Json (Tells)
open Actuator (Call Outcome)

namespace Controller

/-! ## Answers -/

/-- A status says success. -/
def IsSuccess (status : Nat) : Prop := 200 ≤ status ∧ status < 300

/-- **An answer delivers a body** if it comes with a status of success. -/
def Answer.Delivers (a : Answer) (body : List UInt8) : Prop :=
  ∃ status, a = .response status body ∧ IsSuccess status

/-- **An answer makes no sense** if it comes with another status, or with a body that tells
nothing. -/
def Answer.IsSenseless (told : List UInt8 → Prop) (a : Answer) : Prop :=
  ∃ status body, a = .response status body ∧ (¬ IsSuccess status ∨ ¬ told body)

/-- **What is made of the answer to a command**: for each result, the answers that have it. -/
structure Answer.Settles (a : Answer) (output : Relay) (result : Except ActuatorFault Unit) :
    Prop where
  /-- Success is told by any other number than 0. -/
  done : result = .ok () ↔ ∃ body n, a.Delivers body ∧ Tells body [("success", n)] ∧ 0 < n
  /-- A 0 refuses the command, and so for its output. -/
  refused : ∀ r, result = .error (.rejected r) ↔
    r = output ∧ ∃ body, a.Delivers body ∧ Tells body [("success", 0)]
  /-- The protocol is broken by answers without sense. -/
  broken : (∃ reason, result = .error (.protocol reason)) ↔
    a.IsSenseless fun body => ∃ n, Tells body [("success", n)]
  /-- The controller is out of reach if there is no answer. -/
  silent : (∃ reason, result = .error (.unreachable reason)) ↔ a = .dropped

/-- **What is made of the answer about the state of the outputs.** -/
structure Answer.Informs (a : Answer) (result : Except ActuatorFault (PerRelay Power)) :
    Prop where
  /-- An output is on if any other number than 0 is told of it. -/
  done : ∀ powers, result = .ok powers ↔ ∃ body outputs, a.Delivers body ∧
    Tells body (inputs outputs) ∧ ∀ r, powers.of r = if outputs.of r = 0 then .off else .on
  /-- Nothing is refused. -/
  unrefused : ∀ r, result ≠ .error (.rejected r)
  /-- The protocol is broken by answers without sense. -/
  broken : (∃ reason, result = .error (.protocol reason)) ↔
    a.IsSenseless fun body => ∃ outputs, Tells body (inputs outputs)
  /-- The controller is out of reach if there is no answer. -/
  silent : (∃ reason, result = .error (.unreachable reason)) ↔ a = .dropped

/-! ## Reading an answer -/

namespace Answer

variable {α : Type} {d : Json.Decoder α} {url : String} {a : Answer}

theorem delivers_response_iff {status : Nat} {body b : List UInt8} :
    (response status body).Delivers b ↔ IsSuccess status ∧ b = body := by
  constructor
  · rintro ⟨_, same, success⟩
    obtain ⟨rfl, rfl⟩ := Answer.response.inj same
    exact ⟨success, rfl⟩
  · rintro ⟨success, rfl⟩
    exact ⟨status, rfl, success⟩

theorem not_delivers_dropped {body : List UInt8} : ¬ dropped.Delivers body :=
  fun ⟨_, same, _⟩ => nomatch same

theorem isSenseless_response_iff {told : List UInt8 → Prop} {status : Nat} {body : List UInt8} :
    (response status body).IsSenseless told ↔ ¬ IsSuccess status ∨ ¬ told body := by
  constructor
  · rintro ⟨_, _, same, reason⟩
    obtain ⟨rfl, rfl⟩ := Answer.response.inj same
    exact reason
  · exact fun reason => ⟨status, body, rfl, reason⟩

theorem not_isSenseless_dropped {told : List UInt8 → Prop} : ¬ dropped.IsSenseless told :=
  fun ⟨_, _, same, _⟩ => nomatch same

theorem read_dropped : dropped.read d url = .error (unansweredFault url) := rfl

theorem read_of_not_isSuccess {status : Nat} (body : List UInt8) (h : ¬ IsSuccess status) :
    (response status body).read d url = .error (statusFault status) :=
  if_neg h

theorem read_of_isSuccess {status : Nat} (body : List UInt8) (h : IsSuccess status) :
    (response status body).read d url = (d.runBytes body).elim (.error bodyFault) .ok := by
  refine (if_pos h).trans ?_
  cases d.runBytes body <;> rfl

/-- **A value is read** of a body that is delivered. -/
theorem read_eq_ok_iff {x : α} :
    a.read d url = .ok x ↔ ∃ body, a.Delivers body ∧ d.runBytes body = some x := by
  cases a with
  | dropped =>
    rw [read_dropped]
    exact ⟨nofun, fun ⟨_, delivers, _⟩ => absurd delivers not_delivers_dropped⟩
  | response status body =>
    by_cases success : IsSuccess status
    · simp only [read_of_isSuccess body success, delivers_response_iff, success, true_and,
        exists_eq_left]
      cases d.runBytes body <;> simp
    · rw [read_of_not_isSuccess body success]
      exact ⟨nofun, fun ⟨_, delivers, _⟩ => absurd (delivers_response_iff.mp delivers).1 success⟩

/-- **A fault of the protocol** is an answer that makes no sense. -/
theorem read_eq_protocol_iff :
    (∃ reason, a.read d url = .error (.protocol reason)) ↔
      a.IsSenseless fun body => ∃ x, d.runBytes body = some x := by
  cases a with
  | dropped =>
    rw [read_dropped]
    exact ⟨nofun, fun senseless => absurd senseless not_isSenseless_dropped⟩
  | response status body =>
    rw [isSenseless_response_iff]
    by_cases success : IsSuccess status
    · rw [read_of_isSuccess body success]
      cases d.runBytes body <;> simp [success, bodyFault]
    · rw [read_of_not_isSuccess body success]
      exact ⟨fun _ => .inl success, fun _ => ⟨_, rfl⟩⟩

/-- **A controller is out of reach** if nothing comes back. -/
theorem read_eq_unreachable_iff :
    (∃ reason, a.read d url = .error (.unreachable reason)) ↔ a = .dropped := by
  cases a with
  | dropped => exact ⟨fun _ => rfl, fun _ => ⟨_, rfl⟩⟩
  | response status body =>
    refine ⟨fun ⟨reason, unreachable⟩ => ?_, nofun⟩
    by_cases success : IsSuccess status
    · rw [read_of_isSuccess body success] at unreachable
      cases run : d.runBytes body <;> rw [run] at unreachable <;> cases unreachable
    · rw [read_of_not_isSuccess body success] at unreachable
      cases unreachable

/-- Reading an answer refuses nothing. -/
theorem read_ne_rejected (r : Relay) : a.read d url ≠ .error (.rejected r) := by
  intro rejected
  cases a with
  | dropped => cases rejected
  | response status body =>
    by_cases success : IsSuccess status
    · rw [read_of_isSuccess body success] at rejected
      cases run : d.runBytes body <;> rw [run] at rejected <;> cases rejected
    · rw [read_of_not_isSuccess body success] at rejected
      cases rejected

end Answer

/-! ## What a client makes of an answer -/

/-- What the answer to a command comes to. -/
def Answer.result (base : String) (output : Relay) (a : Answer) : Except ActuatorFault Unit :=
  match a.read successDecoder (base ++ "/relay/set") with
  | .error f => .error f
  | .ok 0 => .error (.rejected output)
  | .ok _ => .ok ()

namespace Answer

variable {base : String} {output : Relay} {a : Answer}

/-- A fault other than a refusal is that of reading the answer. -/
theorem result_eq_error_iff {f : ActuatorFault} (h : ∀ r, f ≠ .rejected r) :
    a.result base output = .error f ↔
      a.read successDecoder (base ++ "/relay/set") = .error f := by
  rw [result]
  split
  · rename_i read
    rw [read, Except.error.injEq, Except.error.injEq]
  · rename_i read
    rw [read]
    exact ⟨fun same => absurd (Except.error.inj same).symm (h output), nofun⟩
  · rename_i read
    rw [read]
    exact ⟨nofun, nofun⟩

/-- A command is refused by a 0. -/
theorem result_eq_rejected_iff {r : Relay} :
    a.result base output = .error (.rejected r) ↔
      r = output ∧ a.read successDecoder (base ++ "/relay/set") = .ok 0 := by
  rw [result]
  split
  · rename_i read
    constructor
    · intro same
      rw [Except.error.inj same] at read
      exact absurd read (read_ne_rejected r)
    · rintro ⟨-, zero⟩
      cases read.symm.trans zero
  · rename_i read
    rw [read, Except.error.injEq, ActuatorFault.rejected.injEq]
    exact ⟨fun same => ⟨same.symm, rfl⟩, fun both => both.1.symm⟩
  · rename_i positive read
    constructor
    · intro ok
      cases ok
    · rintro ⟨-, zero⟩
      exact absurd (Except.ok.inj (read.symm.trans zero)) positive

/-- A command has succeeded by any other number. -/
theorem result_eq_ok_iff :
    a.result base output = .ok () ↔
      ∃ n, a.read successDecoder (base ++ "/relay/set") = .ok n ∧ 0 < n := by
  rw [result]
  split
  · rename_i read
    rw [read]
    exact ⟨nofun, fun ⟨_, ok, _⟩ => nomatch ok⟩
  · rename_i read
    rw [read]
    exact ⟨nofun, fun ⟨n, zero, positive⟩ => absurd (Except.ok.inj zero) (Nat.ne_of_lt positive)⟩
  · rename_i n positive read
    exact ⟨fun _ => ⟨n, read, Nat.pos_of_ne_zero positive⟩, fun _ => rfl⟩

/-- **An answer to a command settles it.** -/
theorem settles_result (a : Answer) (base : String) (output : Relay) :
    a.Settles output (a.result base output) where
  done := by
    simp only [result_eq_ok_iff, read_eq_ok_iff, run_successDecoder_iff]
    constructor
    · rintro ⟨n, ⟨body, delivers, tells⟩, positive⟩
      exact ⟨body, n, delivers, tells, positive⟩
    · rintro ⟨body, n, delivers, tells, positive⟩
      exact ⟨n, ⟨body, delivers, tells⟩, positive⟩
  refused r := by
    simp only [result_eq_rejected_iff, read_eq_ok_iff, run_successDecoder_iff]
  broken := by
    simp only [← run_successDecoder_iff]
    rw [← read_eq_protocol_iff]
    exact exists_congr fun reason => result_eq_error_iff nofun
  silent := by
    rw [← read_eq_unreachable_iff]
    exact exists_congr fun reason => result_eq_error_iff nofun

/-- **An answer about the state of the outputs informs of it.** -/
theorem informs_read (a : Answer) (url : String) : a.Informs (a.read stateDecoder url) where
  done powers := by
    simp only [read_eq_ok_iff, run_stateDecoder_iff, exists_and_left]
    rfl
  unrefused r := read_ne_rejected r
  broken := by
    rw [read_eq_protocol_iff]
    have told (body : List UInt8) : (∃ powers, stateDecoder.runBytes body = some powers) ↔
        ∃ outputs, Tells body (inputs outputs) := by
      simp only [run_stateDecoder_iff]
      constructor
      · rintro ⟨_, outputs, tells, -⟩
        exact ⟨outputs, tells⟩
      · rintro ⟨outputs, tells⟩
        exact ⟨_, outputs, tells, PerRelay.of_map Power.ofWire outputs⟩
    simp only [told]
  silent := read_eq_unreachable_iff

end Answer

/-! ## What travels -/

/-- **An exchange**: a message, and what comes back. -/
abbrev Exchange := Message × Answer

/-- The message that commands a state of an output. -/
def command (output : Relay) (power : Power) : Message :=
  ⟨"POST", "/relay/set", some (Json.record
    [("relay", .nat output.val), ("state", .nat (if power = .on then 1 else 0))]).compact⟩

/-- The message that asks for the state of the outputs. -/
def inquiry : Message := ⟨"GET", "/state", none⟩

theorem message_set (output : Relay) (power : Power) :
    (Request.set output power).message = command output power := by
  cases power <;> rfl

/-- **The messages of a call.** -/
def messages : Call → List Message
  | .set output power => [command output power]
  | .sweep => Relay.all.map (command · .off)
  | .read => [inquiry]

/-- **An off command** with what was answered to it, and what was made of that. -/
structure OffCommand where
  /-- The output. -/
  output : Relay
  /-- What came back. -/
  answer : Answer
  /-- Whether the output was switched. -/
  result : Except ActuatorFault Unit
  /-- The result is that of the answer. -/
  settled : answer.Settles output result

namespace OffCommand

/-- The exchange that was made for it. -/
def exchange (c : OffCommand) : Exchange := (command c.output .off, c.answer)

/-- What a report says of it if it failed. -/
def failure? (c : OffCommand) : Option (Relay × ActuatorFault) :=
  match c.result with
  | .ok _ => none
  | .error f => some (c.output, f)

end OffCommand

/-- **What is exchanged for a call, and what comes of it.** -/
inductive Meets : Call → List Exchange → Outcome → Prop where
  /-- An output is switched by one command. -/
  | set {output : Relay} {power : Power} {a : Answer} {result : Except ActuatorFault Unit}
      (settled : a.Settles output result) :
      Meets (.set output power) [(command output power, a)] (.switched result)
  /-- A sweep is an off command for each of the outputs in board order, and reports those that
  failed. -/
  | sweep (commands : List OffCommand) (outputs : commands.map OffCommand.output = Relay.all) :
      Meets .sweep (commands.map OffCommand.exchange)
        (.swept ⟨Relay.all, commands.filterMap OffCommand.failure?⟩)
  /-- The state is told by one answer. -/
  | read {a : Answer} {result : Except ActuatorFault (PerRelay Power)}
      (informs : a.Informs result) :
      Meets .read [(inquiry, a)] (.told result)

/-- **What is exchanged for calls, and what comes of them**, call by call. -/
inductive Conversation : List Call → List Exchange → List Outcome → Prop where
  /-- Nothing is exchanged for nothing. -/
  | nil : Conversation [] [] []
  /-- What is exchanged for a call comes before what is exchanged for later ones. -/
  | cons {c : Call} {cs : List Call} {own later : List Exchange} {o : Outcome} {os : List Outcome}
      (first : Meets c own o) (rest : Conversation cs later os) :
      Conversation (c :: cs) (own ++ later) (o :: os)

theorem Meets.messages {c : Call} {talk : List Exchange} {o : Outcome} (h : Meets c talk o) :
    talk.map Prod.fst = messages c := by
  cases h with
  | set settled => rfl
  | read informs => rfl
  | sweep commands outputs =>
    rw [Controller.messages, ← outputs, List.map_map, List.map_map]
    rfl

/-- **The messages are those of the calls**, in their order, and no others. -/
theorem Conversation.messages {cs : List Call} {talk : List Exchange} {os : List Outcome}
    (h : Conversation cs talk os) : talk.map Prod.fst = cs.flatMap messages := by
  induction h with
  | nil => rfl
  | cons first rest ih => rw [List.map_append, first.messages, ih, List.flatMap_cons]

/-! ## Conversations -/

section

variable {δ : Type}

/-- A link whose exchanges are written down in order. -/
def recorded (link : Link δ) : Link (δ × List Exchange) := fun r x =>
  ((link r x.1).1, ((link r x.1).2, x.2 ++ [(r.message, (link r x.1).1)]))

theorem set_eq (base : String) (link : Link δ) (output : Relay) (power : Power) (d : δ) :
    set base link output power d =
      ((link (.set output power) d).1.result base output, (link (.set output power) d).2) := by
  show (match (link (.set output power) d).1.read successDecoder (base ++ "/relay/set") with
    | .error f => (Except.error f, (link (.set output power) d).2)
    | .ok 0 => (.error (.rejected output), _)
    | .ok _ => (.ok (), _)) = _
  rw [Answer.result]
  split <;> rfl

variable (base : String) (link : Link δ)

/-- A command makes one exchange, and is settled by its answer. -/
theorem set_recorded (output : Relay) (power : Power) (x : δ × List Exchange) :
    ∃ d a result, a.Settles output result ∧
      set base (recorded link) output power x =
        (result, (d, x.2 ++ [(command output power, a)])) := by
  let a := (link (.set output power) x.1).1
  refine ⟨(link (.set output power) x.1).2, a, _, a.settles_result base output, ?_⟩
  rw [set_eq, recorded, message_set]

/-- Off commands are sent one after the other, whatever comes back. -/
theorem sweepFrom_recorded (rs : List Relay) (report : Engine.Sweep) (x : δ × List Exchange) :
    ∃ d, ∃ commands : List OffCommand, commands.map OffCommand.output = rs ∧
      (actuator base (recorded link)).sweepFrom rs report x =
        (⟨report.attempted ++ rs, report.failures ++ commands.filterMap OffCommand.failure?⟩,
          (d, x.2 ++ commands.map OffCommand.exchange)) := by
  induction rs generalizing report x with
  | nil => exact ⟨x.1, [], rfl, by simp [Actuator.sweepFrom]⟩
  | cons r rs ih =>
    obtain ⟨d, a, result, settled, set⟩ := set_recorded base link r .off x
    obtain ⟨last, commands, outputs, swept⟩ :=
      ih (report.record r result) (d, x.2 ++ [(command r .off, a)])
    refine ⟨last, ⟨r, a, result, settled⟩ :: commands, by rw [List.map_cons, outputs], ?_⟩
    show (actuator base (recorded link)).sweepFrom rs
      (report.record r (Controller.set base (recorded link) r .off x).1)
      (Controller.set base (recorded link) r .off x).2 = _
    rw [set, swept]
    cases result <;>
      simp [Engine.Sweep.record, List.filterMap_cons, OffCommand.failure?, OffCommand.exchange]

/-- **A call makes the exchanges that are its own**, and is answered by them. -/
theorem meets (c : Call) (x : δ × List Exchange) :
    ∃ d talk, ((actuator base (recorded link)).perform c x).2 = (d, x.2 ++ talk) ∧
      Meets c talk ((actuator base (recorded link)).perform c x).1 := by
  cases c with
  | set output power =>
    obtain ⟨d, a, result, settled, set⟩ := set_recorded base link output power x
    refine ⟨d, [(command output power, a)], congrArg Prod.snd set, ?_⟩
    show Meets _ _ (.switched (Controller.set base (recorded link) output power x).1)
    rw [set]
    exact .set settled
  | sweep =>
    obtain ⟨d, commands, outputs, swept⟩ := sweepFrom_recorded base link Relay.all .empty x
    refine ⟨d, commands.map OffCommand.exchange, congrArg Prod.snd swept, ?_⟩
    show Meets _ _ (.swept ((actuator base (recorded link)).sweepFrom Relay.all .empty x).1)
    rw [swept]
    exact .sweep commands outputs
  | read =>
    exact ⟨(link .state x.1).2, [(inquiry, (link .state x.1).1)], rfl,
      .read (Answer.informs_read _ _)⟩

/-- **Calls make a conversation** with whatever answers. -/
theorem converses (cs : List Call) (x : δ × List Exchange) :
    ∃ d talk, (actuator base (recorded link)).after cs x = (d, x.2 ++ talk) ∧
      Conversation cs talk ((actuator base (recorded link)).outcomes cs x) := by
  induction cs generalizing x with
  | nil => exact ⟨x.1, [], by rw [List.append_nil]; rfl, .nil⟩
  | cons c cs ih =>
    obtain ⟨d, own, performed, first⟩ := meets base link c x
    obtain ⟨last, later, after, rest⟩ := ih ((actuator base (recorded link)).perform c x).2
    refine ⟨last, own ++ later, ?_, .cons first rest⟩
    rw [performed] at after
    show (actuator base (recorded link)).after cs
      ((actuator base (recorded link)).perform c x).2 = _
    rw [performed, after, List.append_assoc]

end

/-! ## Controllers that follow a script -/

section

variable {δ : Type} {link : Link δ} {inv : δ → Prop}

/-- What every answer keeps is kept by all calls. -/
theorem after_keeps (keeps : ∀ r d, inv d → inv (link r d).2) (base : String) (cs : List Call)
    {d : δ} (h : inv d) : inv ((actuator base link).after cs d) := by
  have agree : (actuator base link).Agree (actuator base link) fun d e => d = e ∧ inv d := {
    set := by
      rintro d _ ⟨rfl, h⟩ output power
      refine ⟨rfl, rfl, ?_⟩
      show inv (set base link output power d).2
      rw [set_eq]
      exact keeps _ _ h
    read := by
      rintro d _ ⟨rfl, h⟩
      exact ⟨rfl, rfl, keeps _ _ h⟩ }
  exact (agree.run cs ⟨rfl, h⟩).2.2

end

/-- A link that follows a script, from one of its answers on. -/
def scripted (script : Nat → Answer) : Link Nat := fun _ n => (script n, n + 1)

/-- What was written down follows a script, and the link is at the place where that ends. -/
def Follows (script : Nat → Answer) (x : Nat × List Exchange) : Prop :=
  x.1 = x.2.length ∧ x.2.map Prod.snd = (List.range x.2.length).map script

theorem Follows.recorded {script : Nat → Answer} {x : Nat × List Exchange} (h : Follows script x)
    (r : Request) : Follows script (recorded (scripted script) r x).2 := by
  obtain ⟨place, answers⟩ := h
  simp [Follows, Controller.recorded, scripted, answers, place, List.range_succ]

/-- **What is exchanged with a controller that follows a script**: the messages of the calls, in
their order and each of them once, against the answers of the script. Every call comes to what the
answers to its own messages make of it. -/
theorem conversation_of_script (base : String) (script : Nat → Answer) (calls : List Call) :
    let client := actuator base (recorded (scripted script))
    let talk := (client.after calls (0, [])).2
    talk.map Prod.fst = calls.flatMap messages ∧
      talk.map Prod.snd = (List.range talk.length).map script ∧
      Conversation calls talk (client.outcomes calls (0, [])) := by
  intro client talk
  obtain ⟨n, exchanged, after, conversation⟩ := converses base (scripted script) calls (0, [])
  have all : talk = exchanged := congrArg Prod.snd after
  rw [← all] at conversation
  refine ⟨conversation.messages, ?_, conversation⟩
  have follows : Follows script (client.after calls (0, [])) :=
    after_keeps (fun r x h => h.recorded r) base calls ⟨rfl, rfl⟩
  exact follows.2

/-- Three commands of a sweep fail, each in a way of its own, and the sweep goes on. -/
example :
    let script : Nat → Answer
      | 0 => .response 200 (Device.successBody 1)
      | 1 => .response 500 ""
      | 2 => .response 200 (Device.successBody 0)
      | _ => .dropped
    (sweep "http://192.168.4.1" (recorded (scripted script)) (0, [])).1.failures.map Prod.fst
      = [1, 2, 3] := by
  decide +kernel

end Controller

end Switchboard
