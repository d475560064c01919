import TinyScript.Main
import TinyScript.Program.Render
import TinyScript.Scope.Forest
import TinyScript.Source.Words
import TinyScript.Proofs.Grammar.Completeness
import TinyScript.Proofs.Grammar.Progress
import TinyScript.Proofs.Grammar.Soundness
import TinyScript.Proofs.Grammar.WellFormed
import TinyScript.Proofs.Source.Lexicon
import TinyScript.Proofs.Source.Tiling
import TinyScript.Proofs.Machine.Visibility
import TinyScript.Proofs.Program.Lines
import TinyScript.Proofs.Grammar.Written
import TinyScript.Proofs.Machine.Lines
import TinyScript.Proofs.Source.LineEnds
import TinyScript.Proofs.Session.Batches
import TinyScript.Proofs.Machine.Blame
import TinyScript.Proofs.Session.Reports
import TinyScript.Proofs.Diagnostic.Sinks
import TinyScript.Proofs.Machine.Depth
import TinyScript.Proofs.Session.Steps
import TinyScript.Proofs.Session.History
import TinyScript.Proofs.Session.Sinks
import TinyScript.Proofs.Grammar.Lines
import TinyScript.Proofs.Session.Lines
import TinyScript.Proofs.Session.Prompt
import TinyScript.Proofs.Grammar.Mistakes
import TinyScript.Proofs.Grammar.Containment
import TinyScript.Proofs.Scope.Lineage
import TinyScript.Proofs.Scope.Sharing
import TinyScript.Proofs.Number.Bits
import TinyScript.Proofs.Number.ReadBack
import TinyScript.Proofs.Source.Numerals
import TinyScript.Proofs.Session.Printed
import TinyScript.Proofs.Source.Positions
import TinyScript.Proofs.Source.Quoting
import TinyScript.Proofs.Machine.Effects
import TinyScript.Proofs.Source.Spacing
import TinyScript.Proofs.Machine.Shielding
import TinyScript.Proofs.Machine.Scoping
import TinyScript.Proofs.Scope.Aliasing
import TinyScript.Proofs.Scope.Stacks
import TinyScript.Proofs.Scope.Handles
import TinyScript.Proofs.Machine.Echo
import TinyScript.Proofs.CommandLine.Decisions
import TinyScript.Proofs.Number.Order
import TinyScript.Proofs.Text.ByteOrder
import TinyScript.Proofs.Value.Order
import TinyScript.Proofs.Text.Quoting
import TinyScript.Proofs.Number.Literal
import TinyScript.Proofs.Program.Form
import TinyScript.Proofs.Program.Render
import TinyScript.Proofs.Session.Rendered
import TinyScript.Proofs.Grammar.Recovery
import TinyScript.Proofs.Source.Escapes
import TinyScript.Proofs.Token.KindSet
import TinyScript.Proofs.Source.Words
