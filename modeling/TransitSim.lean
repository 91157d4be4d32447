import TransitSim.Calendar.Date
import TransitSim.Calendar.Instant
import TransitSim.Calendar.Offset
import TransitSim.Calendar.Stamp
import TransitSim.Cli.Options
import TransitSim.Cli.Program
import TransitSim.Config.Basic
import TransitSim.Config.Record
import TransitSim.Csv.Fault
import TransitSim.Csv.Record
import TransitSim.Decimal.Binary64
import TransitSim.Decimal.Layout
import TransitSim.Decimal.Reading
import TransitSim.Decimal.Shortest
import TransitSim.Error
import TransitSim.Eta.Board
import TransitSim.Eta.Feed
import TransitSim.Eta.Response
import TransitSim.Eta.Snapshot
import TransitSim.Eta.Tracker
import TransitSim.Geo.Coordinate
import TransitSim.Geo.Speed
import TransitSim.Geo.Sphere
import TransitSim.GeoJson.Document
import TransitSim.GeoJson.Fault
import TransitSim.Interchange.Eta
import TransitSim.Interchange.Place
import TransitSim.Interchange.Position
import TransitSim.Interchange.Time
import TransitSim.Journal
import TransitSim.Json.Number
import TransitSim.Json.Raw
import TransitSim.Json.Record
import TransitSim.Json.Value
import TransitSim.Json.Writing
import TransitSim.Main
import TransitSim.Position.Source
import TransitSim.Proofs.Calendar.Civil
import TransitSim.Proofs.Calendar.ClockFace
import TransitSim.Proofs.Calendar.Days
import TransitSim.Proofs.Calendar.Numbers
import TransitSim.Proofs.Calendar.Stamps
import TransitSim.Proofs.Calendar.Universal
import TransitSim.Proofs.Config.Reload
import TransitSim.Proofs.Config.Validation
import TransitSim.Proofs.Csv.Lines
import TransitSim.Proofs.Csv.Places
import TransitSim.Proofs.Csv.Texts
import TransitSim.Proofs.Decimal.Arithmetic
import TransitSim.Proofs.Decimal.FewDigits
import TransitSim.Proofs.Decimal.Interval
import TransitSim.Proofs.Decimal.Plain
import TransitSim.Proofs.Decimal.Rounding
import TransitSim.Proofs.Decimal.Shortest
import TransitSim.Proofs.Decimal.Sums
import TransitSim.Proofs.Decimal.Words
import TransitSim.Proofs.Eta.Agreement
import TransitSim.Proofs.Eta.Digest
import TransitSim.Proofs.Eta.MinuteRuns
import TransitSim.Proofs.Eta.Observing
import TransitSim.Proofs.Eta.Offsets
import TransitSim.Proofs.Eta.Orderly
import TransitSim.Proofs.Eta.Range
import TransitSim.Proofs.Eta.Records
import TransitSim.Proofs.Eta.Repetition
import TransitSim.Proofs.Eta.Rereading
import TransitSim.Proofs.Geo.Keys
import TransitSim.Proofs.Json.Doubles
import TransitSim.Proofs.Json.Numerals
import TransitSim.Proofs.Json.OneLine
import TransitSim.Proofs.Json.Reading
import TransitSim.Proofs.Json.Records
import TransitSim.Proofs.Json.Rereading
import TransitSim.Proofs.Json.Strings
import TransitSim.Proofs.Report.Writing
import TransitSim.Proofs.Route.Bounds
import TransitSim.Proofs.Route.Location
import TransitSim.Proofs.Route.Odometer
import TransitSim.Proofs.Route.OneStep
import TransitSim.Proofs.Route.Skipping
import TransitSim.Proofs.Route.Stops
import TransitSim.Proofs.Run.InTurn
import TransitSim.Proofs.Run.Invariants
import TransitSim.Proofs.Run.Load
import TransitSim.Proofs.Run.Orders
import TransitSim.Proofs.Run.Past
import TransitSim.Proofs.Run.Refinement
import TransitSim.Proofs.Run.Row
import TransitSim.Proofs.Run.Termination
import TransitSim.Proofs.Run.TickLimit
import TransitSim.Proofs.Session.Answers
import TransitSim.Proofs.Session.Beginning
import TransitSim.Proofs.Session.Conduct
import TransitSim.Proofs.Session.Course
import TransitSim.Proofs.Session.Delivery
import TransitSim.Proofs.Session.Kinship
import TransitSim.Proofs.Session.Names
import TransitSim.Proofs.Session.Past
import TransitSim.Proofs.Session.Reachable
import TransitSim.Proofs.Session.Recounts
import TransitSim.Proofs.Session.Refusal
import TransitSim.Proofs.Session.Renewal
import TransitSim.Proofs.Session.Repetition
import TransitSim.Proofs.Session.Replay
import TransitSim.Proofs.Session.Requests
import TransitSim.Proofs.Session.Settings
import TransitSim.Proofs.Session.Steps
import TransitSim.Proofs.Session.Summaries
import TransitSim.Proofs.Text.Delimiter
import TransitSim.Proofs.Text.Utf8
import TransitSim.Proofs.Tick.Operations
import TransitSim.Proofs.Tick.Past
import TransitSim.Proofs.Tick.Provenance
import TransitSim.Proofs.Tick.Timeline
import TransitSim.Proofs.Tick.Waiting
import TransitSim.Proofs.Trip.Acceptance
import TransitSim.Proofs.Trip.Playback
import TransitSim.Proofs.Trip.Refusals
import TransitSim.Registry
import TransitSim.Report.Basic
import TransitSim.Report.LineFile
import TransitSim.Report.Sink
import TransitSim.Route.Document
import TransitSim.Route.Path
import TransitSim.Route.Stop
import TransitSim.Route.Traversal
import TransitSim.Session.Basic
import TransitSim.Session.Run
import TransitSim.Session.Simulation
import TransitSim.Session.Summary
import TransitSim.Text.Blank
import TransitSim.Text.Utf8
import TransitSim.Tick.Clock
import TransitSim.Tick.Duration
import TransitSim.Tick.Period
import TransitSim.Tick.Scheduler
import TransitSim.Trip.Fault
import TransitSim.Trip.Player
import TransitSim.Trip.Sample
import TransitSim.Trip.Table
import TransitSim.Proofs.Route.Reading
