import Vigil.Call
import Vigil.Cluster
import Vigil.ClusterInfo
import Vigil.CommandLine
import Vigil.Config.Basic
import Vigil.Config.Document
import Vigil.Config.Load
import Vigil.Config.Overrides
import Vigil.Decimal.Binary64
import Vigil.Decimal.Shortest
import Vigil.Dict
import Vigil.Error
import Vigil.Guard
import Vigil.Interval.Basic
import Vigil.Interval.Recorder
import Vigil.Interval.Timeline
import Vigil.Join
import Vigil.Json.Decode
import Vigil.Json.Reader
import Vigil.Json.Value
import Vigil.Json.Writer
import Vigil.Live
import Vigil.Main
import Vigil.Metrics
import Vigil.Orchestrator
import Vigil.Phase
import Vigil.Program
import Vigil.Record
import Vigil.Registry
import Vigil.Rehearsal.GuardTrial
import Vigil.Rehearsal.Lifecycle
import Vigil.Rehearsal.Play
import Vigil.Rehearsal.Program
import Vigil.Rehearsal.Script
import Vigil.Rehearsal.Session
import Vigil.Rehearsal.Step
import Vigil.Rehearsal.World
import Vigil.ReportFiles
import Vigil.Resources
import Vigil.RunId
import Vigil.Scene
import Vigil.Session
import Vigil.Shutdown
import Vigil.Storage.FileTree
import Vigil.Storage.Path
import Vigil.Storage.Sink
import Vigil.Text.Blank
import Vigil.Text.Quoted
import Vigil.Text.Unseen
import Vigil.Text.Utf8
import Vigil.Time.Calendar
import Vigil.Time.Duration
import Vigil.Time.Timestamp
import Vigil.Toml.Document
import Vigil.Toml.Scalar
import Vigil.Toml.Table
import Vigil.Toml.Value
import Vigil.Window
import Vigil.Proofs.Schedule.Basic
import Vigil.Proofs.Schedule.Drift
import Vigil.Proofs.Schedule.Join
import Vigil.Proofs.Conduct
import Vigil.Proofs.Schedule.Commands
import Vigil.Proofs.PhaseTrace
import Vigil.Proofs.Barrier
import Vigil.Proofs.Results
import Vigil.Proofs.StableSort
import Vigil.Proofs.Streams
import Vigil.Proofs.Schedule.Served
import Vigil.Proofs.Rehearsal.Beside
import Vigil.Proofs.Schedule.Follow
import Vigil.Proofs.Rehearsal.Scheduled
import Vigil.Proofs.Recording
import Vigil.Proofs.Deadlines
import Vigil.Proofs.Driver
import Vigil.Proofs.Reports
import Vigil.Proofs.Custody
import Vigil.Proofs.Metrics
import Vigil.Proofs.Order
import Vigil.Proofs.OwnInterval
import Vigil.Proofs.Escalation
import Vigil.Proofs.ExitStatus
import Vigil.Proofs.Attendance
import Vigil.Proofs.Schedule.Whole
import Vigil.Proofs.Isolation
import Vigil.Proofs.Race.Basic
import Vigil.Proofs.Race.Site
import Vigil.Proofs.Race.Cleanup
import Vigil.Proofs.Race.Invariant
import Vigil.Proofs.Race.Once
import Vigil.Proofs.Composition
import Vigil.Proofs.Utf8
import Vigil.Proofs.Config.Tables
import Vigil.Proofs.Config.Spelling
import Vigil.Proofs.Config.Settings
import Vigil.Proofs.Config.Arguments
import Vigil.Proofs.Config.Layers
import Vigil.Proofs.Secrecy.Redaction
import Vigil.Proofs.Secrecy.Post
import Vigil.Proofs.Secrecy.Noninterference
import Vigil.Proofs.Json.Layout
import Vigil.Proofs.Json.Reading
import Vigil.Proofs.Except
import Vigil.Proofs.Json.ValueReading
import Vigil.Proofs.Json.Decoding
import Vigil.Proofs.Json.Yielding
import Vigil.Proofs.Persistence
import Vigil.Proofs.Punctual.Basic
import Vigil.Proofs.Punctual.Course
import Vigil.Proofs.Punctual.Return
import Vigil.Proofs.OneShot.Basic
import Vigil.Proofs.OneShot.Schedules
import Vigil.Proofs.OneShot.Trial
import Vigil.Proofs.Frame
import Vigil.Proofs.Namespaces
import Vigil.Proofs.Summary
import Vigil.Proofs.Config.Checking
import Vigil.Proofs.Startup
import Vigil.Proofs.Calendar
import Vigil.Proofs.Suffixes
import Vigil.Proofs.StreamLaws
