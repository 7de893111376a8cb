import Switchboard.Fault
import Switchboard.Text.Blank

/-!
# Where the relay controller is

A user names the controller by a bare host or by a full address. Both are
brought into the form that paths can be appended to: with a scheme in front,
and without slashes at the end.
-/

namespace Switchboard.Controller

/-- What is wrong with an address that names nothing. -/
def addressFault (address : String) : String :=
  "invalid controller address `" ++ address ++ "`"

/-- Drops every slash at the end. -/
def withoutEndSlashes (s : String) : String :=
  String.ofList (Text.dropEndWhile (· = '/') s.toList)

/-- Whether an address says how to reach it. -/
def hasScheme (s : String) : Bool := s.startsWith "http://" || s.startsWith "https://"

/-- **The address that paths can be appended to**; none if nothing but blanks
and slashes was given. -/
def baseUrl? (address : String) : Option String :=
  let s := withoutEndSlashes (Text.trim address)
  if s.isEmpty then none
  else if hasScheme s then some s
  else some ("http://" ++ s)

end Switchboard.Controller
