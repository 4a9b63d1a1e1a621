import TripRecorder.Bench.Capture
import TripRecorder.Bench.Collector
import TripRecorder.Bench.Delivery
import TripRecorder.Bench.Device
import TripRecorder.Bench.Directory
import TripRecorder.Bench.Faults
import TripRecorder.Bench.FixSource
import TripRecorder.Bench.Points
import TripRecorder.Bench.Sensors
import TripRecorder.Bench.Simulation
import TripRecorder.Bench.Writer
import TripRecorder.Capture.Attachment
import TripRecorder.Capture.Error
import TripRecorder.Capture.Fix
import TripRecorder.Capture.Intake
import TripRecorder.Capture.Pump
import TripRecorder.Chunks
import TripRecorder.CommandLine.Arguments
import TripRecorder.CommandLine.Program
import TripRecorder.Decimal
import TripRecorder.Delivery.Message
import TripRecorder.Delivery.Observer
import TripRecorder.Delivery.Registry
import TripRecorder.Double
import TripRecorder.Hex
import TripRecorder.Json.Basic
import TripRecorder.Json.Number
import TripRecorder.Json.Printer
import TripRecorder.Json.Record
import TripRecorder.Json.Tree
import TripRecorder.Json.Value
import TripRecorder.Main
import TripRecorder.Measurement
import TripRecorder.Point
import TripRecorder.Procedure
import TripRecorder.Service.Confirmation
import TripRecorder.Service.Recorder
import TripRecorder.Service.Session
import TripRecorder.Service.Status
import TripRecorder.Settings.Config
import TripRecorder.Settings.Preferences
import TripRecorder.Settings.TextFile
import TripRecorder.Simulation.Config
import TripRecorder.Simulation.Sensors
import TripRecorder.Store.Append
import TripRecorder.Store.Basic
import TripRecorder.Store.Error
import TripRecorder.Store.Image
import TripRecorder.Sync.Cycle
import TripRecorder.Sync.Error
import TripRecorder.Sync.Response
import TripRecorder.Sync.Scheduler
import TripRecorder.Sync.Upload
import TripRecorder.Ticker
import TripRecorder.Transfer.Layout
import TripRecorder.Transfer.Serializer
import TripRecorder.Transfer.Zlib
import TripRecorder.Proofs.Procedure
import TripRecorder.Proofs.Store.Calls
import TripRecorder.Proofs.Chunks
import TripRecorder.Proofs.Transfer.Zlib
import TripRecorder.Proofs.Transfer.Serializer
import TripRecorder.Proofs.Store.WellFormed
import TripRecorder.Proofs.Sync.Settled
import TripRecorder.Proofs.Sync.Cycle
import TripRecorder.Proofs.Device.Shared
import TripRecorder.Proofs.Service.Requests
import TripRecorder.Proofs.Device.Users
import TripRecorder.Proofs.Device.Run
import TripRecorder.Proofs.Service.Run
import TripRecorder.Proofs.Service.Balance
import TripRecorder.Proofs.Capture.History
import TripRecorder.Proofs.Service.Delivery
import TripRecorder.Proofs.Service.Sessions
import TripRecorder.Proofs.Service.Sensors
import TripRecorder.Proofs.Service.Phases
import TripRecorder.Proofs.Service.Blocks
import TripRecorder.Proofs.Sync.Journal
import TripRecorder.Proofs.Sync.Retry
import TripRecorder.Proofs.Sync.History
import TripRecorder.Proofs.Store.Append
import TripRecorder.Proofs.Store.Ledger
import TripRecorder.Proofs.Store.Order
import TripRecorder.Proofs.Transfer.Layout
import TripRecorder.Proofs.Transfer.Image
import TripRecorder.Proofs.Interleaving
import TripRecorder.Proofs.Transfer.Moments
import TripRecorder.Proofs.Transfer.Amid
import TripRecorder.Proofs.Transfer.Decoder
import TripRecorder.Proofs.Transcript
import TripRecorder.Proofs.Crowd
import TripRecorder.Proofs.Store.Crowd
import TripRecorder.Proofs.Delivery.Snapshot
import TripRecorder.Proofs.Agreement
import TripRecorder.Proofs.Service.Play
import TripRecorder.Proofs.Service.Independence
import TripRecorder.Proofs.Capture.Running
import TripRecorder.Proofs.Sync.FirstCycle
import TripRecorder.Proofs.Settings.Loops
import TripRecorder.Proofs.Service.Deaf
import TripRecorder.Proofs.Filling
import TripRecorder.Proofs.Store.Batches
import TripRecorder.Proofs.Store.Numbers
import TripRecorder.Proofs.Store.Pages
import TripRecorder.Proofs.Capture.Calls
import TripRecorder.Proofs.Delivery.Channel
import TripRecorder.Proofs.Service.Counters
import TripRecorder.Proofs.Capture.Fix
import TripRecorder.Proofs.Capture.Moves
import TripRecorder.Proofs.Capture.Waiting
import TripRecorder.Proofs.Capture.Attachment
import TripRecorder.Proofs.Capture.Life
import TripRecorder.Proofs.Transfer.Answers
import TripRecorder.Proofs.Sync.Verdict
import TripRecorder.Proofs.Sync.Scheduling
import TripRecorder.Proofs.Decimal
import TripRecorder.Proofs.Json.Numerals
import TripRecorder.Proofs.Json.Layout
import TripRecorder.Proofs.Json.Spelling
import TripRecorder.Proofs.Json.Rereading
import TripRecorder.Proofs.Json.Records
import TripRecorder.Proofs.Delivery.Lines
import TripRecorder.Proofs.Delivery.Framing
import TripRecorder.Proofs.Delivery.Stream
import TripRecorder.Proofs.Rounding
import TripRecorder.Proofs.Json.Overflow
import TripRecorder.Proofs.Json.Members
import TripRecorder.Proofs.Json.Values
import TripRecorder.Proofs.Settings.Preferences
import TripRecorder.Proofs.Settings.Saving
import TripRecorder.Proofs.Sync.Progress
import TripRecorder.Proofs.Capture.Watching
import TripRecorder.Proofs.Hundredths
import TripRecorder.Proofs.Transfer.Wire
