import Montage.Asset
import Montage.Cli
import Montage.Cli.Arguments
import Montage.Cli.Candidates
import Montage.Clock
import Montage.Command
import Montage.Command.Arguments
import Montage.Compiler
import Montage.Decimal.Dyadic
import Montage.Decimal.Fixed
import Montage.Decimal.Reader
import Montage.Decimal.Shortest
import Montage.Encoder
import Montage.Event
import Montage.Failure
import Montage.Fault
import Montage.Files
import Montage.Font
import Montage.Graph
import Montage.Graph.Label
import Montage.Graph.Picture
import Montage.Graph.Placement
import Montage.Graph.Printer
import Montage.Graph.Sound
import Montage.Issue
import Montage.Job
import Montage.Json
import Montage.Json.Literal
import Montage.Json.Printer
import Montage.Json.Reader
import Montage.Main
import Montage.Merge
import Montage.Number
import Montage.Number.Compact
import Montage.Number.Quotient
import Montage.Output
import Montage.Path
import Montage.Probe
import Montage.Progress
import Montage.Proofs.Compiler.Drawing
import Montage.Proofs.Compiler.Numbering
import Montage.Proofs.Compiler.Steps
import Montage.Proofs.Graph.Flow
import Montage.Proofs.Graph.Labels
import Montage.Proofs.Graph.Nodes
import Montage.Registry
import Montage.Render.Run
import Montage.Render.Stage
import Montage.Request
import Montage.Schema
import Montage.Service
import Montage.Service.Time
import Montage.Settings
import Montage.Sweep
import Montage.Text.Blank
import Montage.Text.Case
import Montage.Text.Digit
import Montage.Text.Printable
import Montage.Text.Quoted
import Montage.Text.Ranges
import Montage.Text.Shell
import Montage.Text.Tail
import Montage.Text.Utf8
import Montage.Timeline.Basic
import Montage.Timeline.Check
import Montage.Timeline.Reader
import Montage.Timeline.Writer
import Montage.Proofs.Compiler.Linear
import Montage.Proofs.Graph.Decoder
import Montage.Proofs.Asset.Resolved
import Montage.Proofs.Compiler.Faults
import Montage.Proofs.Compiler.Agreement
import Montage.Proofs.Merge.Scanner
import Montage.Proofs.Registry.Effects
import Montage.Proofs.Registry.Statistics
import Montage.Proofs.Render.Life
import Montage.Proofs.Render.Acts
import Montage.Proofs.Float.Order
import Montage.Proofs.Render.Stages
import Montage.Proofs.Service.Frame
import Montage.Proofs.Service.Stands
import Montage.Proofs.Service.Sound
import Montage.Proofs.Service.Moves
import Montage.Proofs.Service.Answers
import Montage.Proofs.Service.Cancel
import Montage.Proofs.Service.Follow
import Montage.Proofs.Service.Waiting
import Montage.Proofs.Service.Story
import Montage.Proofs.Service.Return
import Montage.Proofs.Float.Whole
import Montage.Proofs.Registry.Records
import Montage.Proofs.Timeline.Accepted
import Montage.Proofs.Timeline.Ranges
import Montage.Proofs.Timeline.Names
import Montage.Proofs.Compiler.Naming
import Montage.Proofs.Compiler.Inputs
import Montage.Proofs.Render.Disk
import Montage.Proofs.Render.Inputs
import Montage.Proofs.Service.Inputs
import Montage.Proofs.Text.Bounded
import Montage.Proofs.Text.Portions
import Montage.Proofs.Render.Reports
import Montage.Proofs.Render.Script
import Montage.Proofs.Render.Reading
import Montage.Proofs.Render.Knowledge
import Montage.Proofs.Render.Course
import Montage.Proofs.Service.Outcome
import Montage.Proofs.Service.Course
import Montage.Proofs.Service.Verdict
import Montage.Proofs.Service.Progress
import Montage.Proofs.Compiler.Compositing
import Montage.Proofs.Compiler.Mixing
import Montage.Proofs.Compiler.Missing
import Montage.Proofs.Registry.Counters
import Montage.Proofs.Render.Within
import Montage.Proofs.Render.Counters
import Montage.Proofs.Service.Counters
import Montage.Proofs.Timeline.Writing
import Montage.Proofs.Timeline.Rereading
import Montage.Proofs.Timeline.Rechecking
import Montage.Proofs.Merge.Resolved
import Montage.Proofs.Merge.Rechecked
import Montage.Proofs.Service.Alone
import Montage.Proofs.Render.Blame
import Montage.Proofs.Render.Plan
import Montage.Proofs.Service.Refused
import Montage.Proofs.Cli.Rendering
import Montage.Proofs.Cli.Verdict
import Montage.Proofs.Cli.Preview
import Montage.Proofs.Path.Spelling
import Montage.Proofs.Render.Sweeping
import Montage.Proofs.Asset.Probing
import Montage.Proofs.Compiler.Overflow
import Montage.Proofs.Service.Smooth
import Montage.Proofs.Cli.Exits
import Montage.Proofs.Event.Queues
import Montage.Proofs.Asset.Edited
import Montage.Proofs.Compiler.BaseStream
import Montage.Proofs.Compiler.Edited
import Montage.Proofs.Compiler.Omitted
import Montage.Proofs.Compiler.Renamed
import Montage.Proofs.Event.Delivery
import Montage.Proofs.Registry.Isolation
import Montage.Proofs.Timeline.Independence
import Montage.Proofs.Timeline.Totality
import Montage.Proofs.Timeline.Spelling
import Montage.Proofs.Timeline.Respelled
import Montage.Proofs.Compiler.Registration
import Montage.Proofs.Decimal.Value
import Montage.Proofs.Compiler.Values
import Montage.Proofs.Number.Printed
import Montage.Proofs.Compiler.Length
import Montage.Proofs.Compiler.Quantities
import Montage.Proofs.Compiler.Positive
import Montage.Proofs.Render.Lines
import Montage.Proofs.Render.Clearing
import Montage.Proofs.Float.Rounding
import Montage.Proofs.Number.Quotient
import Montage.Proofs.Json.Equality
import Montage.Proofs.Asset.Streams
import Montage.Proofs.Number.Plain
import Montage.Proofs.Graph.Windows
