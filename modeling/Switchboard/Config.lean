import Switchboard.Controller.Address
import Switchboard.File
import Switchboard.Json.Decode
import Switchboard.Relay.Format
import Switchboard.Toml.Reader

/-!
# Configuration

Everything that can be configured has a usual value, so the configuration file
may be missing, and so may any part of it. Variables of the environment win
over the file. What results is then checked as a whole.

Sections of the file are read like records of JSON documents, except that a
section written as an array may have too many items.
-/

namespace Switchboard

/-- **Which relay controller is driven.** -/
inductive ControllerKind where
  /-- The simulated board. -/
  | simulated
  /-- A controller on the network. -/
  | networked
deriving Repr, DecidableEq

/-- The name of a kind of controller in the configuration. -/
def ControllerKind.label : ControllerKind → String
  | simulated => "virtual"
  | networked => "esp_http"

/-- **The configuration.** -/
structure Config where
  /-- Which relay controller is driven. -/
  kind : ControllerKind := .simulated
  /-- Where the controller on the network is. -/
  address : Option String := none
  /-- How long a request to it may take, in milliseconds. -/
  timeout : Nat := 5000
  /-- How long the simulated board takes for a command, in milliseconds. -/
  latency : Nat := 0
  /-- Where the database is. -/
  databaseUrl : String := "sqlite:relayhub.db?mode=rwc"
  /-- What is written to the log. -/
  logFilter : String := "relayhubd=info,relayhub_app=info,relayhub_adapter_esp_http=info"
  /-- How many events are kept for those who follow a run. -/
  eventCapacity : Nat := 256
  /-- The labels of the outputs, or none. -/
  fittings : List Fitting := []
deriving Repr

namespace Config

/-- The length of a counted second, in milliseconds. -/
def tickPeriod : Nat := 1000

/-- **What is wrong with a configuration.** -/
inductive Fault where
  /-- The file makes no sense. -/
  | unparsable
  /-- The file is there but cannot be read. -/
  | unreadable (fault : File.Fault)
  /-- What it says is not allowed. -/
  | invalid (reason : String)
deriving Repr, DecidableEq

/-- The fault in words. -/
def Fault.message : Fault → String
  | unparsable => "failed to parse config file"
  | unreadable _ => "failed to read config file"
  | invalid reason => "invalid configuration: " ++ reason

/-! ## Reading the file -/

open Json

/-- How many containers may be opened while a file is read; its own grammar
allows fewer. -/
def depth : Nat := 1000

/-- The fields of a section. -/
def section? (names : List String) : Json → Option Fields
  | .obj members => knownMembers? names members
  | .arr items => some (names.zip items)
  | _ => none

/-- A natural number. -/
def natural : Decoder Nat := fun d v =>
  (Decoder.int 0 Size.greatestSigned64 d v).map Int.toNat

/-- An optional text: any that is there is one. -/
def someText : Decoder (Option String) := fun d v => (Decoder.text d v).map some

/-- A kind of controller, by its name, or as the only member of a table with
nothing in it. -/
def kindDecoder : Decoder ControllerKind := fun _ v =>
  let ofLabel? (s : String) : Option ControllerKind :=
    [ControllerKind.simulated, .networked].find? (·.label = s)
  match v with
  | .str (some s) => ofLabel? s
  | .obj [(some s, .obj [])] => ofLabel? s
  | .obj [(some s, .arr [])] => ofLabel? s
  | _ => none

/-- The labels of an output. -/
def fittingDecoder : Decoder Fitting := fun d v => do
  let fields ← section? ["name", "kind", "enabled"] v
  let name ← fields.required "name" Decoder.text d
  let load ← fields.withDefault "kind" .pump Load.decoder d
  let enabled ← fields.withDefault "enabled" true Decoder.bool d
  some ⟨name, load, enabled⟩

/-- The section on the controller. -/
def actuatorDecoder (c : Config) : Decoder Config := fun d v => do
  let fields ← section? ["kind", "base_url", "timeout_ms", "latency_ms"] v
  let kind ← fields.withDefault "kind" c.kind kindDecoder d
  let address ← fields.withDefault "base_url" c.address someText d
  let timeout ← fields.withDefault "timeout_ms" c.timeout natural d
  let latency ← fields.withDefault "latency_ms" c.latency natural d
  some { c with kind, address, timeout, latency }

/-- The section on the database. -/
def databaseDecoder (c : Config) : Decoder Config := fun d v => do
  let fields ← section? ["url"] v
  let databaseUrl ← fields.withDefault "url" c.databaseUrl Decoder.text d
  some { c with databaseUrl }

/-- The section on the log. -/
def loggingDecoder (c : Config) : Decoder Config := fun d v => do
  let fields ← section? ["filter"] v
  let logFilter ← fields.withDefault "filter" c.logFilter Decoder.text d
  some { c with logFilter }

/-- The section on the engine. -/
def engineDecoder (c : Config) : Decoder Config := fun d v => do
  let fields ← section? ["event_capacity"] v
  let eventCapacity ← fields.withDefault "event_capacity" c.eventCapacity natural d
  some { c with eventCapacity }

/-- The whole file. -/
def decoder : Decoder Config := fun d v => do
  let fields ← section? ["actuator", "database", "logging", "engine", "relays"] v
  let c : Config := {}
  let c ← fields.withDefault "actuator" c (actuatorDecoder c) d
  let c ← fields.withDefault "database" c (databaseDecoder c) d
  let c ← fields.withDefault "logging" c (loggingDecoder c) d
  let c ← fields.withDefault "engine" c (engineDecoder c) d
  let fittings ← fields.withDefault "relays" [] (Decoder.list fittingDecoder) d
  some { c with fittings }

/-- **The configuration that a file gives**; the usual one if there is no file. -/
def ofFile (file : File) : Except Fault Config :=
  match file.read with
  | .error .missing => .ok {}
  | .error f => .error (.unreadable f)
  | .ok s =>
    match Toml.parse s >>= decoder depth with
    | some c => .ok c
    | none => .error .unparsable

/-! ## The environment -/

/-- The kind of controller that a variable names. -/
def kindOfVariable (s : String) : Except Fault ControllerKind :=
  match Text.trim s with
  | "virtual" => .ok .simulated
  | "esp_http" => .ok .networked
  | "esp" => .ok .networked
  | other => .error (.invalid ("unknown actuator kind `" ++ other ++ "`"))

/-- The configuration with what the environment says instead. -/
def override (env : String → Option String) (c : Config) : Except Fault Config :=
  let kind := match env "RELAYHUB_ACTUATOR" with
    | some s => kindOfVariable s
    | none => .ok c.kind
  kind.map fun kind =>
    { c with
      kind
      address := (env "RELAYHUB_ESP_URL").or c.address
      databaseUrl := (env "RELAYHUB_DATABASE_URL").getD c.databaseUrl
      logFilter := (env "RUST_LOG").getD ((env "RELAYHUB_LOG").getD c.logFilter) }

/-! ## The whole -/

/-- The reason to refuse a controller on the network that is nowhere. -/
def noAddress : String := "esp_http actuator requires a base_url"

/-- **The first fault of a configuration**, or its approval. -/
def validate (c : Config) : Except Fault Unit :=
  if c.kind = .networked ∧ Text.isAllBlank (c.address.getD "") then .error (.invalid noAddress)
  else if c.timeout = 0 then .error (.invalid "actuator timeout must be non-zero")
  else if c.fittings.length ≠ 0 ∧ c.fittings.length ≠ 4 then
    .error (.invalid ("expected 4 relays, found " ++ Nat.repr c.fittings.length))
  else if c.eventCapacity = 0 then .error (.invalid "event capacity must be non-zero")
  else .ok ()

/-- **The configuration** that a file and the environment give. -/
def load (file : File) (env : String → Option String) : Except Fault Config := do
  let c ← ofFile file
  let c ← c.override env
  c.validate
  .ok c

/-- The labels of the outputs. -/
def panel (c : Config) : Panel := (Panel.ofList? c.fittings).getD .unlabelled

/-- **The controller that a configuration asks for.** -/
inductive Choice where
  /-- The simulated board, with its latency in milliseconds. -/
  | simulated (latency : Nat)
  /-- A controller on the network, with the address that paths are appended to. -/
  | networked (base : String)
deriving Repr, DecidableEq

/-- The controller that a configuration asks for, if it can be addressed. -/
def choice (c : Config) : Except Fault Choice :=
  match c.kind, c.address with
  | .simulated, _ => .ok (.simulated c.latency)
  | .networked, none => .error (.invalid noAddress)
  | .networked, some address =>
    match Controller.baseUrl? address with
    | some base => .ok (.networked base)
    | none => .error (.invalid (Controller.addressFault address))

end Config

end Switchboard
