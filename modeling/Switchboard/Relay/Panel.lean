import Switchboard.Relay.Basic

/-!
# What the outputs drive

Each output drives a pump or a valve. Switching an output means something
different for each: a pump runs while it is energised, and a valve opens or
closes depending on where it rests without power. The panel labels the four
outputs and says in words what switching one of them does.
-/

namespace Switchboard

/-- **Where a valve rests** while its output is not energised. -/
inductive Rest where
  /-- Closed at rest; energising opens it. -/
  | closed
  /-- Open at rest; energising closes it. -/
  | open
deriving Repr, DecidableEq, Inhabited

/-- **What is wired to an output.** -/
inductive Load where
  /-- A pump. -/
  | pump
  /-- A valve with its resting position. -/
  | valve (rest : Rest)
deriving Repr, DecidableEq, Inhabited

/-- **The verb for switching an output** that drives this load. -/
def Load.verb : Load → Power → String
  | .pump, .on => "activate"
  | .pump, .off => "deactivate"
  | .valve .closed, .on => "open"
  | .valve .closed, .off => "close"
  | .valve .open, .on => "close"
  | .valve .open, .off => "open"

/-- **An output as the user configured it.** -/
structure Fitting where
  /-- The name shown to the user. -/
  name : String
  /-- What the output drives. -/
  load : Load
  /-- Whether the output is in use. -/
  enabled : Bool
deriving Repr, DecidableEq, Inhabited

/-- **The labels of the four outputs.** -/
structure Panel where
  /-- One fitting per output, in board order. -/
  fittings : PerRelay Fitting
deriving Repr, DecidableEq

namespace Panel

/-- The fitting of an output. -/
def fitting (p : Panel) (r : Relay) : Fitting := p.fittings.of r

/-- What switching an output does, in words. -/
def describe (p : Panel) (r : Relay) (power : Power) : String :=
  (p.fitting r).name ++ ": " ++ (p.fitting r).load.verb power

/-- The panel of a board that nobody has labelled: four pumps in use. -/
def unlabelled : Panel :=
  ⟨Vector.ofFn fun i => ⟨"Relay " ++ Nat.repr (i.val + 1), .pump, true⟩⟩

/-- The panel with the given fittings, if there are four of them. -/
def ofList? (fs : List Fitting) : Option Panel :=
  if h : fs.length = 4 then some ⟨⟨fs.toArray, by simpa using h⟩⟩ else none

end Panel

end Switchboard
