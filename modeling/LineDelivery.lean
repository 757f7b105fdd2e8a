import LineDelivery.Backlog.Timeline
import LineDelivery.Log.Setup
import LineDelivery.Options.Printer
import LineDelivery.Options.Reader
import LineDelivery.Pipeline.Report
import LineDelivery.Pipeline.Run
import LineDelivery.Proofs.Backlog.Alarm
import LineDelivery.Proofs.LineBuffer.Contents
import LineDelivery.Proofs.Pipeline.Ledger
import LineDelivery.Proofs.Pipeline.Moves
import LineDelivery.Proofs.Pipeline.Bookkeeping
import LineDelivery.Proofs.Pipeline.Frames
import LineDelivery.Proofs.Pipeline.Accounts
import LineDelivery.Proofs.Pipeline.Standing
import LineDelivery.Proofs.Pipeline.Whole
import LineDelivery.Proofs.Pipeline.Quiescence
import LineDelivery.Proofs.Pipeline.Conservation
import LineDelivery.Proofs.Pipeline.Life
import LineDelivery.Proofs.Pipeline.Lifetimes
import LineDelivery.Proofs.Pipeline.Handling
import LineDelivery.Proofs.Pipeline.Barrier
import LineDelivery.Proofs.Pipeline.Flush
import LineDelivery.Proofs.Backlog.Measure
import LineDelivery.Proofs.Backlog.Bag
import LineDelivery.Proofs.Backlog.Schedule
import LineDelivery.Proofs.Pipeline.Timing
import LineDelivery.Proofs.Pipeline.Window
import LineDelivery.Proofs.Pipeline.Ending
import LineDelivery.Proofs.Pipeline.AfterClose
import LineDelivery.Proofs.Pipeline.Balance
import LineDelivery.Proofs.Line.Count
import LineDelivery.Proofs.Backlog.Room
import LineDelivery.Proofs.Backlog.Passage
import LineDelivery.Proofs.Backlog.Upkeep
import LineDelivery.Proofs.Backlog.Closed
import LineDelivery.Proofs.Pipeline.Holding
import LineDelivery.Proofs.Pipeline.Counters
import LineDelivery.Proofs.Pipeline.Authors
import LineDelivery.Proofs.Pipeline.Load
import LineDelivery.Proofs.Pipeline.Order
import LineDelivery.Proofs.Pipeline.Work
import LineDelivery.Proofs.Pipeline.Standstill
import LineDelivery.Proofs.Pipeline.Crash
import LineDelivery.Proofs.Pipeline.Shutdown
import LineDelivery.Proofs.LineBuffer.TimedBuffer
import LineDelivery.Proofs.Pipeline.Clocked
import LineDelivery.Proofs.Pipeline.Prompt
import LineDelivery.Proofs.Pipeline.Foresight
import LineDelivery.Proofs.Pipeline.Refinement
import LineDelivery.Proofs.LineBuffer.Calls
import LineDelivery.Proofs.LineBuffer.Limits
import LineDelivery.Proofs.Backlog.Fate
import LineDelivery.Proofs.Pipeline.Freshness
import LineDelivery.Proofs.Backlog.Eviction
import LineDelivery.Proofs.Json.Grammar
import LineDelivery.Proofs.Json.Tokens
import LineDelivery.Proofs.Options.Fields
import LineDelivery.Proofs.Options.Skipping
import LineDelivery.Proofs.Options.Objects
import LineDelivery.Proofs.Options.RoundTrip
import LineDelivery.Proofs.Pipeline.Delivery
import LineDelivery.Proofs.LineBuffer.Greedy
import LineDelivery.Proofs.Backoff.Words
import LineDelivery.Proofs.Backoff.Delays
import LineDelivery.Proofs.Pipeline.Faultless
import LineDelivery.Proofs.Pipeline.Alike
import LineDelivery.Proofs.Pipeline.Encoding
import LineDelivery.Proofs.Line.Records
import LineDelivery.Proofs.Text.Truncation
import LineDelivery.Proofs.Pipeline.Terminated
import LineDelivery.Proofs.Pipeline.RawWrites
import LineDelivery.Proofs.Backlog.Overtaking
