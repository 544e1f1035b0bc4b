import SpanCourier.Partition
import SpanCourier.Settings.Json
import SpanCourier.Simulation.Bench
import SpanCourier.Simulation.Session
import SpanCourier.Wire.Decoded
import SpanCourier.Proofs.Drain
import SpanCourier.Proofs.Batching
import SpanCourier.Proofs.BatchUse
import SpanCourier.Proofs.BatchDue
import SpanCourier.Proofs.Packing
import SpanCourier.Proofs.Partition
import SpanCourier.Proofs.Queue.Fifo
import SpanCourier.Proofs.Queue.Waiting
import SpanCourier.Proofs.Reporter.Latch
import SpanCourier.Proofs.Reporter.Accounting
import SpanCourier.Proofs.Reporter.Closing
import SpanCourier.Proofs.Reporter.MessageLimit
import SpanCourier.Proofs.Reporter.Dock
import SpanCourier.Proofs.Reporter.WorkerBatch
import SpanCourier.Proofs.Reporter.Timing
import SpanCourier.Proofs.Reporter.Lossless
import SpanCourier.Proofs.Reporter.SendOrder
import SpanCourier.Proofs.Reporter.Plan
import SpanCourier.Proofs.Reporter.Rounds
import SpanCourier.Proofs.Reporter.Progress
import SpanCourier.Proofs.Reporter.Admission
import SpanCourier.Proofs.Reporter.Failures
import SpanCourier.Proofs.Reporter.Greedy
import SpanCourier.Proofs.Reporter.Finality
import SpanCourier.Proofs.Reporter.Shutdown
import SpanCourier.Proofs.Reporter.Uncounted
import SpanCourier.Proofs.Reporter.Counting
import SpanCourier.Proofs.Reporter.Flushing
import SpanCourier.Proofs.Wire.Kept
import SpanCourier.Proofs.Wire.Length
import SpanCourier.Proofs.Text.Hex
import SpanCourier.Proofs.Wire.Reading
import SpanCourier.Proofs.Wire.RoundTrip
import SpanCourier.Address.InPlace
import SpanCourier.Proofs.Text.Split
import SpanCourier.Proofs.Text.Utf8
import SpanCourier.Proofs.Address.Grammar
import SpanCourier.Proofs.Address.InPlace
import SpanCourier.Proofs.Text.Decimal
import SpanCourier.Address.Dispatch
import SpanCourier.Proofs.Address.Dotted
import SpanCourier.Proofs.Address.Dispatch
import SpanCourier.Proofs.Span.Identifiers
import SpanCourier.Proofs.Span.Tags
import SpanCourier.Proofs.Wire.Tags
import SpanCourier.Proofs.Json.Words
import SpanCourier.Proofs.Json.Forms
import SpanCourier.Proofs.Span.ReadBack
import SpanCourier.Wire.Word
import SpanCourier.Proofs.Wire.Varint
import SpanCourier.Proofs.Json.Soundness
import SpanCourier.Proofs.Settings.ReadBack
