import BuildSupervisor.Broadcast
import BuildSupervisor.CommandLine.Arguments
import BuildSupervisor.CommandLine.Run
import BuildSupervisor.CommandLine.Settings
import BuildSupervisor.Config.Basic
import BuildSupervisor.Config.Document
import BuildSupervisor.Config.Variables
import BuildSupervisor.Console
import BuildSupervisor.Diagnostic.Basic
import BuildSupervisor.Diagnostic.Dialect
import BuildSupervisor.Diagnostic.Gcc
import BuildSupervisor.Diagnostic.Rustc
import BuildSupervisor.Environment.Basic
import BuildSupervisor.Environment.FileSystem
import BuildSupervisor.Environment.SearchPath
import BuildSupervisor.Environment.Toolchain
import BuildSupervisor.Event
import BuildSupervisor.Invoker
import BuildSupervisor.Json.Basic
import BuildSupervisor.Json.Kept
import BuildSupervisor.Json.Reader
import BuildSupervisor.Json.Token
import BuildSupervisor.Main
import BuildSupervisor.Path.Basic
import BuildSupervisor.Path.Display
import BuildSupervisor.Proofs.CommandLine.Layers
import BuildSupervisor.Proofs.CommandLine.Trailing
import BuildSupervisor.Proofs.CommandLine.Words
import BuildSupervisor.Proofs.Config.Document
import BuildSupervisor.Proofs.Config.Fields
import BuildSupervisor.Proofs.Config.Overriding
import BuildSupervisor.Proofs.Console.Delivery
import BuildSupervisor.Proofs.Console.Gathering
import BuildSupervisor.Proofs.Console.Hall
import BuildSupervisor.Proofs.Console.Mailbox
import BuildSupervisor.Proofs.Console.Reading
import BuildSupervisor.Proofs.Console.Sifting
import BuildSupervisor.Proofs.Console.Subscription
import BuildSupervisor.Proofs.Crew.Abreast
import BuildSupervisor.Proofs.Crew.Basic
import BuildSupervisor.Proofs.Crew.Credit
import BuildSupervisor.Proofs.Crew.Effect
import BuildSupervisor.Proofs.Crew.Exclusive
import BuildSupervisor.Proofs.Crew.Leading
import BuildSupervisor.Proofs.Crew.Listening
import BuildSupervisor.Proofs.Crew.Scope
import BuildSupervisor.Proofs.Crew.Stranded
import BuildSupervisor.Proofs.Crew.Tally
import BuildSupervisor.Proofs.Diagnostic.BlankLine
import BuildSupervisor.Proofs.Diagnostic.Collecting
import BuildSupervisor.Proofs.Diagnostic.Header
import BuildSupervisor.Proofs.Diagnostic.LineGrammar
import BuildSupervisor.Proofs.Diagnostic.Locality
import BuildSupervisor.Proofs.Diagnostic.Location
import BuildSupervisor.Proofs.Diagnostic.Pairing
import BuildSupervisor.Proofs.Diagnostic.Rendering
import BuildSupervisor.Proofs.Diagnostic.Significant
import BuildSupervisor.Proofs.Environment.Patching
import BuildSupervisor.Proofs.Environment.SearchPath
import BuildSupervisor.Proofs.Errand.Basic
import BuildSupervisor.Proofs.Errand.Course
import BuildSupervisor.Proofs.Errand.Program
import BuildSupervisor.Proofs.Errand.Progress
import BuildSupervisor.Proofs.Errand.Report
import BuildSupervisor.Proofs.Errand.Serving
import BuildSupervisor.Proofs.Errand.ShowOutput
import BuildSupervisor.Proofs.Errand.Tending
import BuildSupervisor.Proofs.Errand.Verdict
import BuildSupervisor.Proofs.Event.Account
import BuildSupervisor.Proofs.Event.Backlog
import BuildSupervisor.Proofs.Event.Chronicle
import BuildSupervisor.Proofs.Event.Draining
import BuildSupervisor.Proofs.Event.Forum
import BuildSupervisor.Proofs.Event.Listening
import BuildSupervisor.Proofs.Event.Question
import BuildSupervisor.Proofs.Event.Search
import BuildSupervisor.Proofs.Json.Lexing
import BuildSupervisor.Proofs.Json.Reading
import BuildSupervisor.Proofs.Path.Aliasing
import BuildSupervisor.Proofs.Path.Remainder
import BuildSupervisor.Proofs.Path.Resolution
import BuildSupervisor.Proofs.Path.Spelling
import BuildSupervisor.Proofs.Schedule.Actions
import BuildSupervisor.Proofs.Schedule.Advance
import BuildSupervisor.Proofs.Schedule.Course
import BuildSupervisor.Proofs.Schedule.Order
import BuildSupervisor.Proofs.Schedule.Unfolding
import BuildSupervisor.Proofs.Service.Entry
import BuildSupervisor.Proofs.Service.Journal
import BuildSupervisor.Proofs.Service.Refinement
import BuildSupervisor.Proofs.Service.Traffic
import BuildSupervisor.Proofs.Service.Turn
import BuildSupervisor.Proofs.Service.Waiting
import BuildSupervisor.Proofs.Session.Clockwork
import BuildSupervisor.Proofs.Session.Consistency
import BuildSupervisor.Proofs.Session.Deadline
import BuildSupervisor.Proofs.Session.Effect
import BuildSupervisor.Proofs.Session.Flat
import BuildSupervisor.Proofs.Session.Gathering
import BuildSupervisor.Proofs.Session.History
import BuildSupervisor.Proofs.Session.Independence
import BuildSupervisor.Proofs.Session.Lifecycle
import BuildSupervisor.Proofs.Session.Likeness
import BuildSupervisor.Proofs.Session.Outcome
import BuildSupervisor.Proofs.Session.Refusal
import BuildSupervisor.Proofs.Session.Restoration
import BuildSupervisor.Proofs.Session.Silence
import BuildSupervisor.Proofs.Session.Tasks
import BuildSupervisor.Proofs.Session.Timeless
import BuildSupervisor.Proofs.Session.Underway
import BuildSupervisor.Proofs.Text.Cut
import BuildSupervisor.Proofs.Text.LineFeed
import BuildSupervisor.Proofs.Text.Runs
import BuildSupervisor.Proofs.Text.Trimmed
import BuildSupervisor.Proofs.Text.Utf8
import BuildSupervisor.Proofs.Time.Timestamp
import BuildSupervisor.Proofs.Tool.Pieces
import BuildSupervisor.Proofs.Tool.Reading
import BuildSupervisor.Proofs.Tool.Streaming
import BuildSupervisor.Proofs.Wire.Documents
import BuildSupervisor.Proofs.Wire.Faithful
import BuildSupervisor.Report
import BuildSupervisor.Session.Basic
import BuildSupervisor.Session.Operation
import BuildSupervisor.Session.Service
import BuildSupervisor.Shell.Builtin
import BuildSupervisor.Shell.Evaluation
import BuildSupervisor.Shell.Expansion
import BuildSupervisor.Shell.Host
import BuildSupervisor.Shell.Machine
import BuildSupervisor.Shell.Reader
import BuildSupervisor.Shell.Syntax
import BuildSupervisor.Shell.Value
import BuildSupervisor.Text.CharClass
import BuildSupervisor.Text.Lines
import BuildSupervisor.Text.Numeral
import BuildSupervisor.Text.Scan
import BuildSupervisor.Text.Utf8
import BuildSupervisor.Time.Duration
import BuildSupervisor.Time.Schedule
import BuildSupervisor.Time.Timestamp
import BuildSupervisor.Toml.Document
import BuildSupervisor.Toml.Scan
import BuildSupervisor.Toml.Value
import BuildSupervisor.Tool.Command
import BuildSupervisor.Tool.Host
import BuildSupervisor.Tool.Lines
import BuildSupervisor.Tool.Run
import BuildSupervisor.Tool.Words
import BuildSupervisor.Wire.Codec
import BuildSupervisor.Wire.Event
import BuildSupervisor.Wire.Session
