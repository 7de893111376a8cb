import Mathlib.Data.List.Nodup
import Mathlib.Logic.Function.Basic
import Switchboard.Actuator
import Switchboard.Proofs.Sweep

/-!
# Commands that overlap on a board

A board takes its time with a command. Meanwhile it can be asked for more, and
outputs can begin and cease to refuse, so that commands need not take effect in
the order in which they were asked for, and one that would have been refused
when it was asked for need not be refused in the end.

Nothing is assumed about how long a command takes: of all that is under way,
anything may take effect next (`Traffic.Happens`). A command takes effect in one
go. A sweep sends its next off command once the one before was answered. What
has happened so far, newest first, says everything about the board
(`Traffic.Lawful`): what each output is at, how each command was answered, which
commands were received, and what the sweeps report.
-/

namespace Switchboard

namespace Board

variable {b : Board} {output other : Relay} {power : Power}

/-- A command does not make outputs refuse. -/
theorem command_faulty : (b.command output power).2.faulty = b.faulty := by
  unfold command
  dsimp only
  split
  · rfl
  · rfl

/-- **A command is rejected exactly if its output refuses.** -/
theorem command_answer :
    (b.command output power).1
      = if b.faulty.of output = true then .error (.rejected output) else .ok () := by
  unfold command
  dsimp only
  split
  · rfl
  · rfl

/-- A command that is refused changes no output. -/
theorem command_power_of_faulty (h : b.faulty.of output = true) :
    (b.command output power).2.power other = b.power other := by
  unfold command
  rw [if_pos h]
  rfl

theorem setFaulty_of (faulty : Bool) :
    (b.setFaulty output faulty).faulty.of other
      = if output = other then faulty else b.faulty.of other := by
  unfold setFaulty
  split
  · rename_i same
    rw [same]
    exact PerRelay.of_put_self _ _ _
  · rename_i different
    exact PerRelay.of_put_ne _ _ different

end Board

/-! ## What is under way -/

open Engine (Ticket Sweep)

/-- **What a board was asked for**, as far as it has not taken effect. -/
inductive Errand where
  /-- A command. -/
  | command (output : Relay) (power : Power)
  /-- A sweep, of which off commands are left, with the report so far. -/
  | sweep (left : List Relay) (report : Sweep)

/-- The commands that are left of an errand. -/
def Errand.left : Errand → List (Relay × Power)
  | .command output power => [(output, power)]
  | .sweep left _ => left.map fun output => (output, .off)

/-- **A board and what is under way to it.** -/
structure Traffic where
  /-- The board. -/
  board : Board
  /-- How often something was asked for; the next ticket. -/
  issued : Ticket
  /-- What is under way, by its ticket. -/
  errands : Ticket → Option Errand

/-- **What happens to a board.** -/
inductive Happening where
  /-- A command is asked for. -/
  | asks (ticket : Ticket) (output : Relay) (power : Power)
  /-- A sweep is asked for. -/
  | asksSweep (ticket : Ticket)
  /-- A command takes effect and is answered. -/
  | lands (ticket : Ticket) (output : Relay) (power : Power)
    (answer : Except ActuatorFault Unit)
  /-- A sweep is answered. -/
  | reports (ticket : Ticket) (report : Sweep)
  /-- An output begins or ceases to refuse commands. -/
  | turns (output : Relay) (faulty : Bool)

/-- The commands that something asked for comes to. -/
def Happening.asked? : Happening → Option (Ticket × List (Relay × Power))
  | .asks t output power => some (t, [(output, power)])
  | .asksSweep t => some (t, Relay.all.map fun output => (output, .off))
  | _ => none

namespace Traffic

variable {x y : Traffic} {e : Happening} {es : List Happening} {t : Ticket} {output : Relay}
  {power : Power}

/-- A board that was just switched on, and nothing under way. -/
def fresh : Traffic := ⟨.fresh, 0, fun _ => none⟩

/-- Something more is under way. -/
def take (x : Traffic) (errand : Errand) : Traffic :=
  { x with issued := x.issued + 1, errands := Function.update x.errands x.issued (some errand) }

/-- **A command takes effect**, and something may be left of what it belongs to. -/
def land (x : Traffic) (t : Ticket) (output : Relay) (power : Power) (rest : Option Errand) :
    Traffic :=
  { x with board := (x.board.command output power).2, errands := Function.update x.errands t rest }

@[simp] theorem take_errands_issued (errand : Errand) :
    (x.take errand).errands x.issued = some errand :=
  Function.update_self _ _ _

theorem take_errands_of_ne (errand : Errand) {u : Ticket} (h : u ≠ x.issued) :
    (x.take errand).errands u = x.errands u :=
  Function.update_of_ne h _ _

@[simp] theorem land_errands_self (rest : Option Errand) :
    (x.land t output power rest).errands t = rest :=
  Function.update_self _ _ _

theorem land_errands_of_ne (rest : Option Errand) {u : Ticket} (h : u ≠ t) :
    (x.land t output power rest).errands u = x.errands u :=
  Function.update_of_ne h _ _

/-- **What may happen next.** Whatever is under way may take effect, and outputs may begin and cease
to refuse at any time. -/
inductive Happens (x : Traffic) : Happening → Traffic → Prop where
  /-- A command is asked for. -/
  | asks (output : Relay) (power : Power) :
      Happens x (.asks x.issued output power) (x.take (.command output power))
  /-- A sweep is asked for. -/
  | asksSweep : Happens x (.asksSweep x.issued) (x.take (.sweep Relay.all .empty))
  /-- A command takes effect. -/
  | lands (t : Ticket) {output : Relay} {power : Power}
      (here : x.errands t = some (.command output power)) :
      Happens x (.lands t output power (x.board.command output power).1)
        (x.land t output power none)
  /-- The next off command of a sweep takes effect. -/
  | sweeps (t : Ticket) {output : Relay} {left : List Relay} {report : Sweep}
      (here : x.errands t = some (.sweep (output :: left) report)) :
      Happens x (.lands t output .off (x.board.command output .off).1)
        (x.land t output .off
          (some (.sweep left (report.record output (x.board.command output .off).1))))
  /-- A sweep is over. -/
  | reports (t : Ticket) {report : Sweep} (here : x.errands t = some (.sweep [] report)) :
      Happens x (.reports t report) { x with errands := Function.update x.errands t none }
  /-- An output begins or ceases to refuse commands. -/
  | turns (output : Relay) (faulty : Bool) :
      Happens x (.turns output faulty) { x with board := x.board.setFaulty output faulty }

/-- **What has happened** since the board was switched on, newest first. -/
inductive History : List Happening → Traffic → Prop where
  /-- Nothing has happened. -/
  | begins : History [] fresh
  /-- Something more happens. -/
  | goesOn {es : List Happening} {x y : Traffic} {e : Happening} (before : History es x)
      (next : Happens x e y) : History (e :: es) y

/-! ## What a history says -/

/-- Whether an output refuses commands. -/
def faultyAfter (es : List Happening) (output : Relay) : Bool :=
  match es with
  | [] => false
  | .turns o faulty :: es => if o = output then faulty else faultyAfter es output
  | _ :: es => faultyAfter es output

/-- **A command that has taken effect.** -/
structure Landing where
  /-- The ticket of what it belongs to. -/
  ticket : Ticket
  /-- The output. -/
  output : Relay
  /-- The state that the output was to be switched to. -/
  power : Power
  /-- Whether the output refused at that moment. -/
  refused : Bool
deriving DecidableEq

/-- The command as it is received. -/
def Landing.command (l : Landing) : Relay × Power := (l.output, l.power)

/-- **The commands that have taken effect**, newest first. -/
def landed : List Happening → List Landing
  | [] => []
  | .lands t output power _ :: es => ⟨t, output, power, faultyAfter es output⟩ :: landed es
  | _ :: es => landed es

/-- The commands of one ticket that have taken effect, oldest first. -/
def landedBy (es : List Happening) (t : Ticket) : List Landing :=
  ((landed es).filter fun l => l.ticket = t).reverse

/-- The state of an output: that of the last command to it that was not refused, or else off. -/
def powerAfter (es : List Happening) (output : Relay) : Power :=
  (((landed es).find? fun l => l.output = output ∧ l.refused = false).map Landing.power).getD .off

/-- **What was asked for**, with the commands that it comes to, newest first. -/
def asked (es : List Happening) : List (Ticket × List (Relay × Power)) :=
  es.filterMap Happening.asked?

/-- The commands that are left of what goes by a ticket. -/
def left (x : Traffic) (t : Ticket) : List (Relay × Power) := (x.errands t).elim [] Errand.left

@[simp] theorem landedBy_lands_self (answer : Except ActuatorFault Unit) :
    landedBy (.lands t output power answer :: es) t
      = landedBy es t ++ [⟨t, output, power, faultyAfter es output⟩] := by
  simp [landedBy, landed]

theorem landedBy_lands_of_ne {u : Ticket} (answer : Except ActuatorFault Unit) (h : t ≠ u) :
    landedBy (.lands t output power answer :: es) u = landedBy es u := by
  simp [landedBy, landed, h]

/-! ## How a history accounts for a board -/

/-- **How a history accounts for a board.** -/
structure Reflects (es : List Happening) (b : Board) : Prop where
  /-- Which outputs refuse. -/
  faulty : ∀ o, b.faulty.of o = faultyAfter es o
  /-- The state of each output. -/
  power : ∀ o, b.power o = powerAfter es o
  /-- The commands received. -/
  commands : b.commands = (landed es).map Landing.command

namespace Reflects

variable {b : Board}

theorem begins : Reflects [] .fresh where
  faulty _ := PerRelay.of_same _ _
  power _ := PerRelay.of_same _ _
  commands := rfl

/-- Nothing happens to the board. -/
theorem quiet (h : Reflects es b) (same : landed (e :: es) = landed es)
    (steady : ∀ o, faultyAfter (e :: es) o = faultyAfter es o) : Reflects (e :: es) b where
  faulty o := (h.faulty o).trans (steady o).symm
  power o := by
    rw [powerAfter, same]
    exact h.power o
  commands := by
    rw [same]
    exact h.commands

/-- An output begins or ceases to refuse commands. -/
theorem turns (h : Reflects es b) (output : Relay) (faulty : Bool) :
    Reflects (.turns output faulty :: es) (b.setFaulty output faulty) where
  faulty o := by rw [Board.setFaulty_of, faultyAfter, h.faulty]
  power := h.power
  commands := h.commands

/-- **A command takes effect.** The answer says whether the output refused. -/
theorem lands (h : Reflects es b) (t : Ticket) (output : Relay) (power : Power)
    (answer : Except ActuatorFault Unit) :
    Reflects (.lands t output power answer :: es) (b.command output power).2 where
  faulty o := by
    rw [Board.command_faulty]
    exact h.faulty o
  power o := by
    have hpower := h.power o
    rw [powerAfter] at hpower ⊢
    rw [landed, List.find?_cons]
    by_cases same : output = o
    · subst same
      cases refuses : faultyAfter es output with
      | false =>
        have hok : (b.command output power).1 = .ok () := by
          rw [Board.command_answer, h.faulty, refuses]
          rfl
        rw [Board.command_power_of_ok hok]
        simp
      | true =>
        rw [Board.command_power_of_faulty ((h.faulty output).trans refuses)]
        simpa using hpower
    · rw [Board.command_power_of_ne same]
      simpa [same] using hpower
  commands := by
    rw [Board.command_commands, h.commands]
    rfl

/-- How a command is answered is up to the output. -/
theorem answer (h : Reflects es b) (output : Relay) (power : Power) :
    (b.command output power).1
      = if faultyAfter es output = true then .error (.rejected output) else .ok () := by
  rw [Board.command_answer, h.faulty]

end Reflects

/-! ## How a history accounts for what is under way -/

/-- **How far a sweep has come**, by the off commands that have taken effect. -/
structure SweepSoFar (done : List Landing) (left : List Relay) (report : Sweep) : Prop where
  /-- Together with those that are left, they are for all outputs in board order. -/
  order : done.map Landing.output ++ left = Relay.all
  /-- The report has attempted the same outputs. -/
  attempted : report.attempted = done.map Landing.output
  /-- It lists those that were refused. -/
  failures : report.failures
    = (done.filter Landing.refused).map fun l => (l.output, .rejected l.output)

/-- **An off command brings a sweep further**, refused or not. -/
theorem SweepSoFar.snoc {done : List Landing} {left : List Relay} {report : Sweep}
    (h : SweepSoFar done (output :: left) report) (t : Ticket) (refused : Bool) :
    SweepSoFar (done ++ [⟨t, output, .off, refused⟩]) left
      (report.record output (if refused = true then .error (.rejected output) else .ok ())) := by
  refine ⟨?_, ?_, ?_⟩
  · rw [List.map_append, List.append_assoc]
    exact h.order
  · rw [Engine.Sweep.attempted_record, h.attempted, List.map_append]
    rfl
  · rw [List.filter_append, List.map_append, ← h.failures]
    cases refused with
    | false => exact (List.append_nil _).symm
    | true => rfl

/-- **How a history accounts for what is under way.** -/
structure Accounted (es : List Happening) (x : Traffic) : Prop where
  /-- Tickets are issued one after the other. -/
  tickets : (asked es).map Prod.fst = (List.range x.issued).reverse
  /-- What is under way has a ticket. -/
  pending : ∀ t errand, x.errands t = some errand → t < x.issued
  /-- So has whatever has taken effect. -/
  known : ∀ l ∈ landed es, l.ticket < x.issued
  /-- The commands of each ticket have taken effect, apart from those that are left. -/
  settled : ∀ t cs, (t, cs) ∈ asked es → (landedBy es t).map Landing.command ++ x.left t = cs
  /-- Sweeps that are under way have come as far as their reports say. -/
  swept : ∀ t left report, x.errands t = some (.sweep left report) →
    SweepSoFar (landedBy es t) left report

namespace Accounted

theorem begins : Accounted [] fresh where
  tickets := rfl
  pending _ _ h := nomatch h
  known _ h := nomatch h
  settled _ _ h := nomatch h
  swept _ _ _ h := nomatch h

/-- A ticket that is not issued yet has had nothing. -/
theorem landedBy_issued (h : Accounted es x) : landedBy es x.issued = [] := by
  rw [landedBy, List.reverse_eq_nil_iff, List.filter_eq_nil_iff]
  intro l hl hticket
  exact Nat.ne_of_lt (h.known l hl) (of_decide_eq_true hticket)

/-- The tickets issued are those under which something was asked for. -/
theorem mem_tickets (h : Accounted es x) : t ∈ (asked es).map Prod.fst ↔ t < x.issued := by
  rw [h.tickets, List.mem_reverse, List.mem_range]

/-- **Something is asked for.** -/
theorem take (h : Accounted es x) {errand : Errand}
    (asks : e.asked? = some (x.issued, errand.left)) (quiet : landed (e :: es) = landed es)
    (sweep : ∀ left report, errand = .sweep left report → SweepSoFar [] left report) :
    Accounted (e :: es) (x.take errand) := by
  have hasked : asked (e :: es) = (x.issued, errand.left) :: asked es :=
    List.filterMap_cons_some asks
  have hlanded : ∀ t, landedBy (e :: es) t = landedBy es t := fun t => by
    rw [landedBy, quiet, ← landedBy]
  refine ⟨?_, fun t pending ht => ?_, fun l hl => ?_, fun t cs hmem => ?_,
    fun t left report ht => ?_⟩
  · rw [hasked, List.map_cons, h.tickets]
    exact (List.range_succ ▸ List.reverse_concat).symm
  · by_cases same : t = x.issued
    · exact same ▸ Nat.lt_succ_self _
    · rw [take_errands_of_ne errand same] at ht
      exact Nat.lt_succ_of_lt (h.pending t pending ht)
  · exact Nat.lt_succ_of_lt (h.known l (quiet ▸ hl))
  · rw [hlanded, left]
    rw [hasked, List.mem_cons] at hmem
    obtain heq | hmem := hmem
    · cases heq
      rw [h.landedBy_issued, take_errands_issued]
      rfl
    · have hlt : t < x.issued := h.mem_tickets.mp (List.mem_map_of_mem hmem)
      rw [take_errands_of_ne errand (Nat.ne_of_lt hlt)]
      exact h.settled t cs hmem
  · rw [hlanded]
    by_cases same : t = x.issued
    · subst same
      rw [take_errands_issued] at ht
      rw [h.landedBy_issued]
      exact sweep left report (Option.some.inj ht)
    · rw [take_errands_of_ne errand same] at ht
      exact h.swept t left report ht

/-- **A command takes effect**: one less is left of what it belongs to. -/
theorem land (h : Accounted es x) {errand : Errand} {rest : Option Errand}
    (answer : Except ActuatorFault Unit) (here : x.errands t = some errand)
    (less : errand.left = (output, power) :: rest.elim [] Errand.left)
    (sweep : ∀ left report, rest = some (.sweep left report) →
      SweepSoFar (landedBy es t ++ [⟨t, output, power, faultyAfter es output⟩]) left report) :
    Accounted (.lands t output power answer :: es) (x.land t output power rest) := by
  -- other tickets have had what they had, and have the same left
  refine ⟨h.tickets, fun u pending hu => ?_, fun l hl => ?_, fun u cs hmem => ?_,
    fun u left report hu => ?_⟩
  · by_cases same : u = t
    · exact same ▸ h.pending t errand here
    · rw [land_errands_of_ne rest same] at hu
      exact h.pending u pending hu
  · rcases List.mem_cons.mp hl with rfl | hl
    · exact h.pending t errand here
    · exact h.known l hl
  · have hsettled := h.settled u cs hmem
    rw [left] at hsettled ⊢
    by_cases same : u = t
    · subst same
      rw [here] at hsettled
      rw [landedBy_lands_self, land_errands_self, List.map_append, List.append_assoc]
      exact (congrArg (_ ++ ·) less).symm.trans hsettled
    · rw [landedBy_lands_of_ne answer (Ne.symm same), land_errands_of_ne rest same]
      exact hsettled
  · by_cases same : u = t
    · subst same
      rw [land_errands_self] at hu
      rw [landedBy_lands_self]
      exact sweep left report hu
    · rw [land_errands_of_ne rest same] at hu
      rw [landedBy_lands_of_ne answer (Ne.symm same)]
      exact h.swept u left report hu

/-- Nothing is asked for, and nothing takes effect. -/
theorem quiet (h : Accounted es x) (asks : e.asked? = none) (lands : landed (e :: es) = landed es)
    (issued : y.issued = x.issued) (left : ∀ t, y.left t = x.left t)
    (errands : ∀ t errand, y.errands t = some errand → x.errands t = some errand) :
    Accounted (e :: es) y := by
  have hasked : asked (e :: es) = asked es := List.filterMap_cons_none asks
  refine ⟨?_, fun t errand ht => ?_, fun l hl => ?_, fun t cs hmem => ?_,
    fun t left report ht => ?_⟩
  · rw [hasked, issued]
    exact h.tickets
  · exact issued ▸ h.pending t errand (errands t errand ht)
  · exact issued ▸ h.known l (lands ▸ hl)
  · rw [landedBy, lands, left]
    exact h.settled t cs (hasked ▸ hmem)
  · rw [landedBy, lands]
    exact h.swept t left report (errands t _ ht)

end Accounted

/-- **Whatever happens is accounted for.** -/
theorem History.accounted (h : History es x) : Reflects es x.board ∧ Accounted es x := by
  induction h with
  | begins => exact ⟨.begins, .begins⟩
  | goesOn before next ih =>
    obtain ⟨hboard, hx⟩ := ih
    cases next with
    | asks output power => exact ⟨hboard.quiet rfl fun _ => rfl, hx.take rfl rfl nofun⟩
    | asksSweep =>
      refine ⟨hboard.quiet rfl fun _ => rfl, hx.take rfl rfl ?_⟩
      rintro left report ⟨⟩
      exact ⟨rfl, rfl, rfl⟩
    | lands t here => exact ⟨hboard.lands _ _ _ _, hx.land _ here rfl nofun⟩
    | sweeps t here =>
      refine ⟨hboard.lands _ _ _ _, hx.land _ here rfl ?_⟩
      rintro left report ⟨⟩
      rw [hboard.answer]
      exact (hx.swept _ _ _ here).snoc _ _
    | reports t here =>
      -- nothing was left of the sweep, so that nothing is missing when it is gone
      refine ⟨hboard.quiet rfl fun _ => rfl, hx.quiet rfl rfl rfl (fun u => ?_) fun u _ hu => ?_⟩
      · by_cases same : u = t
        · subst same
          simp [left, here, Errand.left]
        · simp [left, same]
      · by_cases same : u = t
        · subst same
          simp at hu
        · simpa [same] using hu
    | turns output faulty =>
      exact ⟨hboard.turns output faulty, hx.quiet rfl rfl rfl (fun _ => rfl) fun _ _ => id⟩

/-! ## The law of the board -/

/-- Whatever has happened did so in a state that had a history. -/
theorem History.of_split {later earlier : List Happening} (h : History (later ++ e :: earlier) x) :
    ∃ y z, History earlier y ∧ Happens y e z := by
  induction later generalizing x with
  | nil =>
    cases h with
    | goesOn before next => exact ⟨_, _, before, next⟩
  | cons e' later ih =>
    cases h with
    | goesOn before next => exact ih before

/-- **What a history says about a board**, whatever overlaps in it. -/
structure Lawful (es : List Happening) (x : Traffic) : Prop where
  /-- An output refuses commands if it was last made to. -/
  faulty : ∀ o, x.board.faulty.of o = faultyAfter es o
  /-- An output is at what the last command to it said that was not refused, or else off. -/
  power : ∀ o, x.board.power o = powerAfter es o
  /-- A command is rejected exactly if its output refused when it took effect. -/
  answers : ∀ later t output power answer earlier,
    es = later ++ .lands t output power answer :: earlier →
      answer = if faultyAfter earlier output = true then .error (.rejected output) else .ok ()
  /-- An output changes only by a command to it, and only if that is confirmed. -/
  changes : ∀ {e y o}, Happens x e y → y.board.power o ≠ x.board.power o →
    ∃ t power, e = .lands t o power (.ok ())
  /-- The board has received the commands that took effect, in that order. -/
  commands : x.board.commands = (landed es).map Landing.command
  /-- No ticket is issued twice. -/
  tickets : ((asked es).map Prod.fst).Nodup
  /-- Each of the commands asked for under a ticket took effect once, unless it is left. -/
  once : ∀ t cs, (t, cs) ∈ asked es → (landedBy es t).map Landing.command ++ x.left t = cs
  /-- Nothing else took effect. -/
  known : ∀ l ∈ landed es, l.ticket ∈ (asked es).map Prod.fst
  /-- A sweep has attempted all outputs, and reports those that refused at the moment of their off
  command. -/
  reports : ∀ later t report earlier, es = later ++ .reports t report :: earlier →
    report.attempted = Relay.all
      ∧ report.failures = ((landedBy earlier t).filter Landing.refused).map
        fun l => (l.output, .rejected l.output)

/-- **Only a command that is confirmed changes an output**, and only the one it is for. -/
theorem Happens.changes {o : Relay} (h : Happens x e y) (changed : y.board.power o ≠ x.board.power o) :
    ∃ t power, e = .lands t o power (.ok ()) := by
  have command : ∀ {output power},
      (x.board.command output power).2.power o ≠ x.board.power o →
        output = o ∧ (x.board.command output power).1 = .ok () := by
    intro output power changed
    refine ⟨by_contra fun other => changed (Board.command_power_of_ne other), ?_⟩
    rw [Board.command_answer, if_neg fun refuses => changed (Board.command_power_of_faulty refuses)]
  cases h with
  | asks => exact absurd rfl changed
  | asksSweep => exact absurd rfl changed
  | lands t here =>
    obtain ⟨rfl, hok⟩ := command changed
    exact ⟨_, _, by rw [hok]⟩
  | sweeps t here =>
    obtain ⟨rfl, hok⟩ := command changed
    exact ⟨_, _, by rw [hok]⟩
  | reports t here => exact absurd rfl changed
  | turns => exact absurd rfl changed

/-- **Commands may overlap in any way**, with each other, with sweeps and with faults that come and
go: the board is at what took effect last, and everything is received, answered and reported
as it was when it took effect. -/
theorem commands_take_effect (h : History es x) : Lawful es x := by
  obtain ⟨hboard, hx⟩ := h.accounted
  constructor
  case faulty => exact hboard.faulty
  case power => exact hboard.power
  case answers =>
    rintro later t output power answer earlier rfl
    obtain ⟨y, z, before, next⟩ := h.of_split
    have hearlier := before.accounted.1
    cases next with
    | lands t here => exact hearlier.answer _ _
    | sweeps t here => exact hearlier.answer _ _
  case changes => exact fun next => next.changes
  case commands => exact hboard.commands
  case tickets =>
    rw [hx.tickets]
    exact List.nodup_reverse.mpr List.nodup_range
  case once => exact hx.settled
  case known => exact fun l hl => hx.mem_tickets.mpr (hx.known l hl)
  case reports =>
    rintro later t report earlier rfl
    obtain ⟨y, z, before, next⟩ := h.of_split
    cases next with
    | reports t here =>
      have hswept := before.accounted.2.swept _ _ _ here
      have horder := hswept.order
      rw [List.append_nil] at horder
      exact ⟨hswept.attempted.trans horder, hswept.failures⟩

/-- **A sweep that nobody disturbs** does what the sweep of an actuator does. -/
theorem History.sweepFrom {left : List Relay} {report : Sweep} (h : History es x)
    (here : x.errands t = some (.sweep left report)) :
    ∃ es' y, History (es' ++ es) y
      ∧ y.board = (Board.actuator.sweepFrom left report x.board).2
      ∧ y.errands t = some (.sweep [] (Board.actuator.sweepFrom left report x.board).1) := by
  induction left generalizing es x report with
  | nil => exact ⟨[], x, h, rfl, here⟩
  | cons output left ih =>
    obtain ⟨es', y, hy, hboard, herrand⟩ := ih (h.goesOn (.sweeps _ here)) (land_errands_self _)
    exact ⟨es' ++ [_], y, by rw [List.append_assoc]; exact hy, hboard, herrand⟩

/-- Two commands to one output, the first of which takes effect last, and a sweep that finds an
output refusing. Once it accepts commands again, that output is switched on during the sweep. -/
theorem commands_take_effect_overlap :
    ∃ es x, History es x
      ∧ es.head? = some (.reports 2 ⟨Relay.all, [(0, .rejected 0)]⟩)
      ∧ x.board.commands
        = [(3, .off), (2, .off), (1, .on), (1, .off), (0, .on), (0, .off), (1, .off)]
      ∧ x.board.power 0 = .on ∧ x.board.power 1 = .on ∧ Lawful es x := by
  have h₁ := History.begins.goesOn (.asks 1 .on)
  have h₂ := (h₁.goesOn (.asks 1 .off)).goesOn .asksSweep
  have h₃ := (h₂.goesOn (.turns 0 true)).goesOn (.lands 1 rfl)
  have h₄ := (h₃.goesOn (.sweeps 2 rfl)).goesOn (.turns 0 false)
  have h₅ := (h₄.goesOn (.asks 0 .on)).goesOn (.lands 3 rfl)
  have h₆ := (h₅.goesOn (.sweeps 2 rfl)).goesOn (.lands 0 rfl)
  have h₇ := (h₆.goesOn (.sweeps 2 rfl)).goesOn (.sweeps 2 rfl)
  have h₈ := h₇.goesOn (.reports 2 rfl)
  exact ⟨_, _, h₈, rfl, by decide, by decide, by decide, commands_take_effect h₈⟩

end Traffic

/-! ## The board that an engine drives -/

namespace Engine

/-- **Outputs begin and cease to refuse commands**, and nothing else happens to the board. -/
def Rig.Turns (r r' : Rig) : Prop :=
  ∃ output faulty, r'.board = r.board.setFaulty output faulty

/-- **A board that an engine drives has such a history**: the engine sends one command after the
other, and each takes effect when it is answered. -/
theorem Simulation.Course.history {panel : Panel} {tick latency : Nat} {x y : Simulation Rig}
    {signals : List Signal}
    (h : Course (Rig.surroundings panel tick latency) Rig.Turns x signals y)
    (fresh : x.world.board = .fresh) :
    ∃ es z, Traffic.History es z ∧ z.board = y.world.board := by
  induction h with
  | refl => exact ⟨[], _, .begins, fresh.symm⟩
  | @snoc signals signal v w before next ih =>
    obtain ⟨es, z, hz, hboard⟩ := ih
    by_cases answered : ∃ result, signal = some (.answered result)
    · obtain ⟨result, rfl⟩ := answered
      obtain ⟨number, output, power, -, -, hnext⟩ := next.landed
      have hlands := (hz.goesOn (.asks output power)).goesOn
        (.lands z.issued (Traffic.take_errands_issued _))
      refine ⟨_, _, hlands, ?_⟩
      rw [hnext, Rig.switch_board, ← hboard]
      rfl
    · rw [not_exists] at answered
      obtain ⟨output, faulty, hturns⟩ | hsame := next.drifts_or_same answered
      · refine ⟨_, _, hz.goesOn (.turns output faulty), ?_⟩
        rw [hturns, ← hboard]
      · exact ⟨es, z, hz, hboard.trans hsame.symm⟩

end Engine

end Switchboard
