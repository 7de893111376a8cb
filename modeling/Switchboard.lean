import Switchboard.Console.Session
import Switchboard.Controller.Device
import Switchboard.Database.Format
import Switchboard.Engine.Rig
import Switchboard.Journal.Format
import Switchboard.Main
import Switchboard.Program.Expansion
import Switchboard.Program.Format
import Switchboard.Relay.Format
import Switchboard.Proofs.Course
import Switchboard.Proofs.Transcript
import Switchboard.Proofs.Stop
import Switchboard.Proofs.Sweep
import Switchboard.Proofs.Answers
import Switchboard.Proofs.Requests
import Switchboard.Proofs.Collection
import Switchboard.Proofs.Export
import Switchboard.Proofs.Ledger
import Switchboard.Proofs.Refusal
import Switchboard.Proofs.Itinerary
import Switchboard.Proofs.Display
import Switchboard.Proofs.Clocks
import Switchboard.Proofs.Timetable
import Switchboard.Proofs.Punctuality
import Switchboard.Proofs.Schedule
import Switchboard.Proofs.Shutdown
import Switchboard.Proofs.JournalFailure
import Switchboard.Proofs.Calendar
import Switchboard.Proofs.TimeRecord
import Switchboard.Proofs.Journals
import Switchboard.Proofs.Damage
import Switchboard.Proofs.Actuators
import Switchboard.Proofs.LastWord
import Switchboard.Proofs.Following
import Switchboard.Proofs.Standstill
import Switchboard.Proofs.Turns
import Switchboard.Proofs.Arrival
import Switchboard.Proofs.ForegroundRun
import Switchboard.Proofs.Totals
import Switchboard.Proofs.Summary
import Switchboard.Proofs.Inspection
import Switchboard.Proofs.Traffic
import Switchboard.Proofs.Addresses
import Switchboard.Proofs.Exchanges
import Switchboard.Proofs.Keys
import Switchboard.Proofs.Positions
import Switchboard.Proofs.Search
