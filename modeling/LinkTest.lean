import LinkTest.Lifecycle
import LinkTest.Event
import LinkTest.Record.Table
import LinkTest.Settings
import LinkTest.Config.Basic
import LinkTest.Log
import LinkTest.Credentials
import LinkTest.Bus
import LinkTest.Message
import LinkTest.Server.Basic
import LinkTest.Server.Scripted
import LinkTest.Worker
import LinkTest.Station.Basic
import LinkTest.Station.Run
import LinkTest.Station.Step
import LinkTest.Station.Sections
import LinkTest.Toml.Scalar
import LinkTest.Config.Toml
import LinkTest.Address
import LinkTest.Client.Basic
import LinkTest.Config.Store
import LinkTest.Command.Arguments
import LinkTest.Command.Basic
import LinkTest.Main
import LinkTest.Proofs.Worker.Account
import LinkTest.Proofs.Worker.Desk
import LinkTest.Proofs.Worker.Service
import LinkTest.Proofs.Worker.Calls
import LinkTest.Proofs.Worker.Replies
import LinkTest.Proofs.Worker.Ownership
import LinkTest.Proofs.Worker.Shutdown
import LinkTest.Proofs.Bus.Watch
import LinkTest.Proofs.Bus.Orderly
import LinkTest.Proofs.Bus.Delivery
import LinkTest.Proofs.Bus.Bookkeeping
import LinkTest.Proofs.Station.Operations
import LinkTest.Proofs.Station.Scene
import LinkTest.Proofs.Station.Debt
import LinkTest.Proofs.Station.Flight
import LinkTest.Proofs.Station.InFlight
import LinkTest.Proofs.Station.Progress
import LinkTest.Proofs.Station.Stream
import LinkTest.Proofs.Station.Dispatch
import LinkTest.Proofs.Worker.Taking
import LinkTest.Proofs.Station.Handles
import LinkTest.Proofs.Station.Publishing
import LinkTest.Proofs.Station.Requests
import LinkTest.Proofs.Station.Chronicle
import LinkTest.Proofs.Station.Examination
import LinkTest.Proofs.Station.Records
import LinkTest.Proofs.Lifecycle.History
import LinkTest.Proofs.Lifecycle.Completion
import LinkTest.Proofs.Station.Superseded
import LinkTest.Proofs.Station.Starting
import LinkTest.Proofs.Station.Transcript
import LinkTest.Proofs.Station.Likeness
import LinkTest.Proofs.Station.Secrecy
import LinkTest.Proofs.Station.Departure
import LinkTest.Proofs.Station.Dockets
import LinkTest.Proofs.Client.Dialling
import LinkTest.Proofs.Client.Exchange
import LinkTest.Proofs.Client.Asking
import LinkTest.Proofs.Station.Supplies
import LinkTest.Proofs.Station.Sections
import LinkTest.Proofs.Station.Ensemble
import LinkTest.Proofs.Station.Pursuit
import LinkTest.Proofs.Station.Custody
import LinkTest.Proofs.Station.Seeking
import LinkTest.Proofs.Station.Attribution
import LinkTest.Proofs.Station.Crediting
import LinkTest.Proofs.Client.Calls
import LinkTest.Proofs.Client.Verdict
import LinkTest.Proofs.Client.Lateness
import LinkTest.Proofs.Client.Abandonment
import LinkTest.Proofs.Datum.Lookup
import LinkTest.Proofs.Datum.Fields
import LinkTest.Proofs.Record.Entries
import LinkTest.Proofs.Record.Soundness
import LinkTest.Proofs.Json.Numerals
import LinkTest.Proofs.Json.Texts
import LinkTest.Proofs.Json.Passages
import LinkTest.Proofs.Json.Layout
import LinkTest.Proofs.Json.Echo
import LinkTest.Proofs.Binary64.Magnitude
import LinkTest.Proofs.Json.Finite
import LinkTest.Proofs.Stamp.Identifier
import LinkTest.Proofs.Stamp.Calendar
import LinkTest.Proofs.Stamp.Moment
import LinkTest.Proofs.Record.RoundTrip
import LinkTest.Proofs.Toml.Texts
import LinkTest.Proofs.Toml.Lines
import LinkTest.Proofs.Toml.Range
import LinkTest.Proofs.FileTree.Writing
import LinkTest.Proofs.Config.RoundTrip
import LinkTest.Proofs.Config.Saving
import LinkTest.Proofs.Command.Limits
import LinkTest.Proofs.Client.Timing
import LinkTest.Proofs.Command.Trial
import LinkTest.Proofs.Command.Course
import LinkTest.Proofs.Command.Report
import LinkTest.Proofs.Command.Testing
import LinkTest.Proofs.Record.Alignment
import LinkTest.Proofs.Probe.Outcome
import LinkTest.Proofs.Command.Showing
import LinkTest.Proofs.Json.Tokens
import LinkTest.Proofs.Json.Cut
import LinkTest.Proofs.Json.Spacing
import LinkTest.Proofs.Json.Wholes
import LinkTest.Proofs.Wire.Codec
import LinkTest.Proofs.Wire.Schema
import LinkTest.Proofs.Wire.Types
