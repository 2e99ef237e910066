import RespLoad.Bytes
import RespLoad.Number.Decimal
import RespLoad.Number.Rounding
import RespLoad.Number.Binary64
import RespLoad.Number.Format
import RespLoad.Wire.Command
import RespLoad.Wire.Scan
import RespLoad.Wire.Frame
import RespLoad.Text.Utf8
import RespLoad.Reply
import RespLoad.Operation
import RespLoad.Latency
import RespLoad.Measurement
import RespLoad.Log.Timestamp
import RespLoad.Log.Entry
import RespLoad.Log.Logger
import RespLoad.Settings.Entries
import RespLoad.Settings.Basic
import RespLoad.Settings.Directive
import RespLoad.Settings.File
import RespLoad.Settings.CommandLine
import RespLoad.Report
import RespLoad.Clock
import RespLoad.Socket.Errno
import RespLoad.Socket.Endpoint
import RespLoad.Socket.Script
import RespLoad.Socket.Event
import RespLoad.Connection.Transfer
import RespLoad.Connection.Dial
import RespLoad.Connection.Pool
import RespLoad.Driver.Iterations
import RespLoad.Driver.Client
import RespLoad.Driver.Network
import RespLoad.Driver.Run
import RespLoad.Driver.Thread
import RespLoad.Driver.StartGate
import RespLoad.Benchmark
import RespLoad.Program
import RespLoad.Main
import RespLoad.Proofs.Number.Decimal
import RespLoad.Proofs.Wire.Scan
import RespLoad.Proofs.Wire.Stream
import RespLoad.Proofs.Wire.RoundTrip
import RespLoad.Proofs.Wire.Stuck
import RespLoad.Proofs.Number.Numeral
import RespLoad.Proofs.Wire.Grammar
import RespLoad.Proofs.Text.WellFormed
import RespLoad.Proofs.Text.Decode
import RespLoad.Proofs.Text.Places
import RespLoad.Proofs.Text.Subparts
import RespLoad.Proofs.Text.Locality
import RespLoad.Proofs.Connection.Turns
import RespLoad.Proofs.Connection.Transfer
import RespLoad.Proofs.Connection.Dial
import RespLoad.Proofs.Connection.Descriptors
import RespLoad.Proofs.Driver.Client
import RespLoad.Proofs.Driver.Slices
import RespLoad.Proofs.Driver.Completion
import RespLoad.Proofs.Driver.Interleaving
import RespLoad.Proofs.Driver.WireProtocol
import RespLoad.Proofs.Connection.Ownership
import RespLoad.Proofs.Connection.Deliveries
import RespLoad.Proofs.Driver.Advance
import RespLoad.Proofs.Driver.Gate
import RespLoad.Proofs.Driver.AnyOrder
import RespLoad.Proofs.Driver.Accounting
import RespLoad.Proofs.Driver.Workers
import RespLoad.Proofs.Connection.Authentication
import RespLoad.Proofs.Driver.Authentication
import RespLoad.Proofs.Benchmark.Loop
import RespLoad.Proofs.Benchmark.Texts
import RespLoad.Proofs.Benchmark.RunControl
import RespLoad.Proofs.Benchmark.Attempts
import RespLoad.Proofs.Settings.Entries
import RespLoad.Proofs.Settings.Fields
import RespLoad.Proofs.Settings.Flags
import RespLoad.Proofs.Settings.Precedence
import RespLoad.Proofs.Settings.History
import RespLoad.Proofs.Settings.Valid
import RespLoad.Proofs.Settings.Layout
import RespLoad.Proofs.Settings.InPlace
import RespLoad.Proofs.Settings.Items
import RespLoad.Proofs.Program.FailsClosed
import RespLoad.Proofs.Driver.Workload
import RespLoad.Proofs.Connection.Interruptions
import RespLoad.Proofs.Connection.Offers
import RespLoad.Proofs.Driver.Interruptions
import RespLoad.Proofs.Benchmark.Interruptions
import RespLoad.Proofs.Driver.Readings
import RespLoad.Proofs.Driver.OneClient
import RespLoad.Proofs.Driver.Counters
import RespLoad.Proofs.Driver.InPlace
import RespLoad.Proofs.Driver.CleanFailure
import RespLoad.Proofs.Driver.Logging
import RespLoad.Proofs.Driver.LoggingThreads
import RespLoad.Proofs.Benchmark.Logging
import RespLoad.Proofs.Connection.Credentials
import RespLoad.Proofs.Driver.Credentials
import RespLoad.Proofs.Driver.CredentialThreads
import RespLoad.Proofs.Benchmark.Credentials
import RespLoad.Proofs.Driver.EmptyReads
import RespLoad.Proofs.Driver.EvenSplit
import RespLoad.Proofs.Operation.Lists
import RespLoad.Proofs.Number.DoubleOrder
import RespLoad.Proofs.Latency.OrderStatistics
import RespLoad.Proofs.Latency.Consistency
import RespLoad.Proofs.Number.Rounding
import RespLoad.Proofs.Latency.Ranks
import RespLoad.Proofs.Number.Thousands
import RespLoad.Proofs.Driver.Timing
import RespLoad.Proofs.Driver.Quotes
import RespLoad.Proofs.Number.WordReaders
