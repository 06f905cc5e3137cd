import BenchHistory.Run.Ingest
import BenchHistory.History.Document
import BenchHistory.Detector.Evaluation
import BenchHistory.Report.Verdicts
import BenchHistory.Report.Summary
import BenchHistory.Report.Schema
import BenchHistory.Alert.Json
import BenchHistory.Alert.Emitter
import BenchHistory.Disk
import BenchHistory.Program
import BenchHistory.Main
import BenchHistory.Proofs.Alert.Accounting
import BenchHistory.Proofs.Alert.Recording
import BenchHistory.Proofs.Alert.Reported
import BenchHistory.Proofs.Alert.RoundTrip
import BenchHistory.Proofs.Command.Dates
import BenchHistory.Proofs.Command.Listing
import BenchHistory.Proofs.Command.Publish
import BenchHistory.Proofs.Command.Reload
import BenchHistory.Proofs.Command.Retry
import BenchHistory.Proofs.History.Carried
import BenchHistory.Proofs.History.Document
import BenchHistory.Proofs.History.Independence
import BenchHistory.Proofs.History.Invariant
import BenchHistory.Proofs.History.Partition
import BenchHistory.Proofs.History.Schema
import BenchHistory.Proofs.History.Spelling
import BenchHistory.Proofs.History.Wrapper
import BenchHistory.Proofs.Detector.Evaluation
import BenchHistory.Proofs.Detector.Isolation
import BenchHistory.Proofs.Detector.Window
import BenchHistory.Proofs.Detector.Threshold
import BenchHistory.Proofs.Detector.Direction
import BenchHistory.Proofs.Alert.Key
import BenchHistory.Proofs.Alert.Delivery
import BenchHistory.Proofs.Run.Again
import BenchHistory.Proofs.Run.Described
import BenchHistory.Proofs.Verdict.RoundTrip
import BenchHistory.Proofs.Detector.Flagging
import BenchHistory.Proofs.Detector.Overrides
import BenchHistory.Proofs.Detector.Resets
import BenchHistory.Proofs.Float.Order
