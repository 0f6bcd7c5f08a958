import Culprit.Baseline
import Culprit.Bisection
import Culprit.Candidate
import Culprit.Commands.Auto
import Culprit.Commands.Bisect
import Culprit.Commands.Form
import Culprit.Commands.Program
import Culprit.Commands.Terminal
import Culprit.Comparison
import Culprit.Csv
import Culprit.Decimal.Binary64
import Culprit.Decimal.Literal
import Culprit.Decimal.Notation
import Culprit.Decimal.Shortest
import Culprit.Error
import Culprit.FileTree
import Culprit.Flags
import Culprit.Json.Decode
import Culprit.Json.Number
import Culprit.Json.Reader
import Culprit.Json.Token
import Culprit.Json.Value
import Culprit.Lab
import Culprit.Machine
import Culprit.Main
import Culprit.Partition
import Culprit.Path
import Culprit.Pool
import Culprit.Process
import Culprit.ProjectFile
import Culprit.Proofs.Baseline.Callers
import Culprit.Proofs.Baseline.Configurations
import Culprit.Proofs.Baseline.Founding
import Culprit.Proofs.Bisection.Cancellation
import Culprit.Proofs.Bisection.Chronicle
import Culprit.Proofs.Bisection.Conclusion
import Culprit.Proofs.Bisection.Costs
import Culprit.Proofs.Bisection.Course
import Culprit.Proofs.Bisection.Endings
import Culprit.Proofs.Bisection.Failures
import Culprit.Proofs.Bisection.InStep
import Culprit.Proofs.Bisection.Listing
import Culprit.Proofs.Bisection.Localisation
import Culprit.Proofs.Bisection.Lodging
import Culprit.Proofs.Bisection.Outline
import Culprit.Proofs.Bisection.Scores
import Culprit.Proofs.Bisection.Signs
import Culprit.Proofs.Bisection.Statuses
import Culprit.Proofs.Comparison
import Culprit.Proofs.Csv
import Culprit.Proofs.Decimal.Amounts
import Culprit.Proofs.Decimal.Kinds
import Culprit.Proofs.Flags
import Culprit.Proofs.Json.Fields
import Culprit.Proofs.Json.Lexing
import Culprit.Proofs.Json.Numbers
import Culprit.Proofs.Json.OneLine
import Culprit.Proofs.Json.RoundTrip
import Culprit.Proofs.Log.Appending
import Culprit.Proofs.Log.Writers
import Culprit.Proofs.Machine.Appending
import Culprit.Proofs.Partition.Accepted
import Culprit.Proofs.Partition.Canonical
import Culprit.Proofs.Report.Codec
import Culprit.Proofs.Report.Findings
import Culprit.Proofs.Report.Markdown
import Culprit.Proofs.Report.Scores
import Culprit.Proofs.Report.Surveys
import Culprit.Proofs.RunSettings
import Culprit.Proofs.Search.Accounting
import Culprit.Proofs.Search.Bench
import Culprit.Proofs.Search.Costs
import Culprit.Proofs.Search.Culprits
import Culprit.Proofs.Search.Failures
import Culprit.Proofs.Search.Frontier
import Culprit.Proofs.Search.Joint
import Culprit.Proofs.Search.Monotone
import Culprit.Proofs.Search.Recursion
import Culprit.Proofs.Search.Removal
import Culprit.Proofs.Search.Signs
import Culprit.Proofs.Search.Simulation
import Culprit.Proofs.Search.Stopped
import Culprit.Proofs.Search.Trials
import Culprit.Proofs.Search.Turn
import Culprit.Proofs.Session.Abreast
import Culprit.Proofs.Session.Agreement
import Culprit.Proofs.Session.Batch
import Culprit.Proofs.Session.Books
import Culprit.Proofs.Session.Calls
import Culprit.Proofs.Session.Deeds
import Culprit.Proofs.Session.Interrupted
import Culprit.Proofs.Session.Kept
import Culprit.Proofs.Session.Lodging
import Culprit.Proofs.Session.Recording
import Culprit.Proofs.Session.Records
import Culprit.Proofs.Session.Seen
import Culprit.Proofs.Session.Shelf
import Culprit.Proofs.Session.Steady
import Culprit.Proofs.Session.Underway
import Culprit.Proofs.Session.Upheld
import Culprit.Proofs.Session.Verdicts
import Culprit.Proofs.Sha256
import Culprit.Proofs.Survey.Cancellation
import Culprit.Proofs.Survey.Entries
import Culprit.Proofs.Survey.Independence
import Culprit.Proofs.Survey.Lodging
import Culprit.Proofs.Survey.Overlap
import Culprit.Proofs.Survey.Pool
import Culprit.Proofs.Survey.Restored
import Culprit.Proofs.Survey.Serial
import Culprit.Proofs.Survey.Stages
import Culprit.Proofs.Text.Hex
import Culprit.Proofs.Text.Lines
import Culprit.Proofs.Text.Quoting
import Culprit.Proofs.Text.Utf8
import Culprit.Proofs.Toolchain.Building
import Culprit.Proofs.Toolchain.Compiling
import Culprit.Proofs.Toolchain.Crew
import Culprit.Proofs.Toolchain.Linking
import Culprit.Proofs.Toolchain.Listing
import Culprit.Proofs.Toolchain.Objects
import Culprit.Proofs.Toolchain.Parallel
import Culprit.Proofs.Toolchain.Places
import Culprit.Proofs.Toolchain.Planning
import Culprit.Proofs.Toolchain.Splicing
import Culprit.Proofs.Workspace.Confinement
import Culprit.Proofs.Workspace.Entries
import Culprit.Proofs.Workspace.Names
import Culprit.Proofs.Workspace.Yard
import Culprit.Rehearsal.Codec
import Culprit.Rehearsal.Manifest
import Culprit.Rehearsal.Pipeline
import Culprit.Rehearsal.Script
import Culprit.Rehearsal.Tools
import Culprit.Report
import Culprit.Report.Codec
import Culprit.Report.Label
import Culprit.Report.Markdown
import Culprit.Report.Summary
import Culprit.Report.Table
import Culprit.Results
import Culprit.Results.Reader
import Culprit.RunSettings
import Culprit.Search
import Culprit.Session
import Culprit.Setup
import Culprit.Sha256
import Culprit.Shell.Act
import Culprit.Shell.Arithmetic
import Culprit.Shell.Builtin
import Culprit.Shell.Builtin.Basic
import Culprit.Shell.Builtin.Jobs
import Culprit.Shell.Builtin.Names
import Culprit.Shell.Builtin.Places
import Culprit.Shell.Builtin.Printing
import Culprit.Shell.Builtin.Signalling
import Culprit.Shell.Builtin.Variables
import Culprit.Shell.Cursor
import Culprit.Shell.Expansion
import Culprit.Shell.Field
import Culprit.Shell.Frame
import Culprit.Shell.Grammar
import Culprit.Shell.Launch
import Culprit.Shell.Pattern
import Culprit.Shell.Printf
import Culprit.Shell.Redirect
import Culprit.Shell.Routine
import Culprit.Shell.Run
import Culprit.Shell.Signals
import Culprit.Shell.Start
import Culprit.Shell.Surroundings
import Culprit.Shell.Syntax
import Culprit.Shell.System
import Culprit.Shell.Test
import Culprit.Shell.Tools
import Culprit.Shell.Tools.Basic
import Culprit.Shell.Tools.Environment
import Culprit.Shell.Tools.Files
import Culprit.Shell.Tools.Text
import Culprit.Survey
import Culprit.Text.Blank
import Culprit.Text.Escaped
import Culprit.Text.Hex
import Culprit.Text.Lines
import Culprit.Text.ShellWords
import Culprit.Text.Substitute
import Culprit.Text.Utf8
import Culprit.Timestamp
import Culprit.Toml.Decode
import Culprit.Toml.Quoted
import Culprit.Toml.Reader
import Culprit.Toml.Scalar
import Culprit.Toml.Table
import Culprit.Toolchain.Listing
import Culprit.Toolchain.Pipeline
import Culprit.Toolchain.Plan
import Culprit.Trial
import Culprit.TrialLog
import Culprit.Workspace
