import Switchboard.Controller.Exchange
import Switchboard.Json.Printer

/-!
# Requests as they travel

What reaches the controller is a method, a path and a text. `Server` is what
answers to that, and knows of no outputs and states but those it reads there.
-/

namespace Switchboard.Controller

/-- **A request as it travels.** -/
structure Message where
  /-- The method. -/
  method : String
  /-- The path. -/
  path : String
  /-- The body, if there is one. -/
  body : Option String
deriving Repr, DecidableEq

/-- The message that makes a request. -/
def Request.message (r : Request) : Message := ⟨r.method, r.path, r.body?.map Json.compact⟩

/-- **What answers messages**, with a state of type `δ`. -/
abbrev Server (δ : Type) := Message → δ → Answer × δ

/-- A server answers requests by their messages. -/
def Server.link {δ : Type} (f : Server δ) : Link δ := fun r => f r.message

end Switchboard.Controller
