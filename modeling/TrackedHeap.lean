import TrackedHeap.Text.Ranges
import TrackedHeap.Text.Blank
import TrackedHeap.Text.Printable
import TrackedHeap.Text.Utf8
import TrackedHeap.Text.Utf8.Lemmas
import TrackedHeap.Text.Quoted
import TrackedHeap.Number.Rounding
import TrackedHeap.Number.Double
import TrackedHeap.Number.Fixed
import TrackedHeap.Number.Numeral
import TrackedHeap.Output.Line
import TrackedHeap.Output.Bounded
import TrackedHeap.Memory.Request
import TrackedHeap.Memory.Base
import TrackedHeap.Memory.CText
import TrackedHeap.Memory.Region
import TrackedHeap.Memory.Heap
import TrackedHeap.Tracking.Ledger
import TrackedHeap.Tracking.Diagnostic
import TrackedHeap.Configuration
import TrackedHeap.Tracking.Event
import TrackedHeap.Tracking.Allocator
import TrackedHeap.Manager.Basic
import TrackedHeap.Manager.Strings
import TrackedHeap.Manager.Environment
import TrackedHeap.Memory.Access
import TrackedHeap.Output.Device
import TrackedHeap.Session.Basic
import TrackedHeap.Session.Step
import TrackedHeap.Session.Run
import TrackedHeap.Program.Basic
import TrackedHeap.Program.Step
import TrackedHeap.Program.Run
import TrackedHeap.CommandLine.Word
import TrackedHeap.CommandLine.Command
import TrackedHeap.CommandLine.Parse
import TrackedHeap.CommandLine.Run
import TrackedHeap.CommandLine.Console
import TrackedHeap.Main
import TrackedHeap.Proofs.Memory.Addresses
import TrackedHeap.Proofs.Memory.Text
import TrackedHeap.Proofs.Tracking.Bare
import TrackedHeap.Proofs.Tracking.Calls
import TrackedHeap.Proofs.Tracking.Layers
import TrackedHeap.Proofs.Session.Setup
import TrackedHeap.Proofs.Session.Transparency
import TrackedHeap.Proofs.Manager.Strings
import TrackedHeap.Proofs.Session.Effect
import TrackedHeap.Proofs.Session.Accounting
import TrackedHeap.Proofs.Session.Ownership
import TrackedHeap.Proofs.Session.Leaks
import TrackedHeap.Proofs.Session.HeldStrings
import TrackedHeap.Proofs.Number.FixedTexts
import TrackedHeap.Proofs.Number.Nearest
import TrackedHeap.Proofs.Number.RoundTrip
import TrackedHeap.Proofs.CommandLine.PrintDouble
import TrackedHeap.Proofs.Session.Refusal
import TrackedHeap.Proofs.Program.Effect
import TrackedHeap.Proofs.Program.Library
import TrackedHeap.Proofs.Program.Refusal
import TrackedHeap.Proofs.Program.Alongside
import TrackedHeap.Proofs.Tracking.Decoded
import TrackedHeap.Proofs.Tracking.Faithful
import TrackedHeap.Proofs.Program.Diagnostics
import TrackedHeap.Proofs.Session.Parallel
import TrackedHeap.Proofs.Session.Interleaving
import TrackedHeap.Proofs.Session.FailingWriter
import TrackedHeap.Proofs.Session.Stacked
import TrackedHeap.Proofs.Tracking.Story
import TrackedHeap.Proofs.Program.Story
import TrackedHeap.Proofs.CommandLine.Effect
import TrackedHeap.Proofs.Number.Rounded
import TrackedHeap.Proofs.CommandLine.LeakFree
import TrackedHeap.Proofs.CommandLine.PrintInt
import TrackedHeap.Proofs.CommandLine.Operands
import TrackedHeap.Proofs.Memory.TextOrder
import TrackedHeap.Proofs.Number.Monotone
import TrackedHeap.Proofs.Program.Comparison
import TrackedHeap.Proofs.Session.NewStrings
import TrackedHeap.Proofs.Session.Growth
import TrackedHeap.Proofs.Session.Concatenation
import TrackedHeap.Proofs.Session.Conversions
import TrackedHeap.Proofs.Text.Words
import TrackedHeap.Proofs.Configuration
import TrackedHeap.Proofs.Program.Terminated
import TrackedHeap.Proofs.Text.Escapes
import TrackedHeap.Proofs.Session.Descriptions
import TrackedHeap.Proofs.Output.Bounded
import TrackedHeap.Proofs.Configuration.Messages
import TrackedHeap.Proofs.Tracking.Overflow
import TrackedHeap.Proofs.Manager.Sizes
