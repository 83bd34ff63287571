import CrateNotation.Build.Expect
import CrateNotation.Build.Fields
import CrateNotation.Build.Node
import CrateNotation.Build.Session
import CrateNotation.Crate.Basic
import CrateNotation.Crate.Code
import CrateNotation.Crate.Location
import CrateNotation.Crate.Name
import CrateNotation.Crate.Signature
import CrateNotation.Diagnostic
import CrateNotation.Error
import CrateNotation.FrontEnd
import CrateNotation.Options
import CrateNotation.Proofs.Build.Blame
import CrateNotation.Proofs.Build.Completion
import CrateNotation.Proofs.Build.Defaults
import CrateNotation.Proofs.Build.Failure
import CrateNotation.Proofs.Build.Faulty
import CrateNotation.Proofs.Build.Filler
import CrateNotation.Proofs.Build.Heads
import CrateNotation.Proofs.Build.LaterStart
import CrateNotation.Proofs.Build.Marks
import CrateNotation.Proofs.Build.Needed
import CrateNotation.Proofs.Build.Numbering
import CrateNotation.Proofs.Build.Numbers
import CrateNotation.Proofs.Build.Outcome
import CrateNotation.Proofs.Build.Pairing
import CrateNotation.Proofs.Build.Places
import CrateNotation.Proofs.Build.Reading
import CrateNotation.Proofs.Build.Rearrangement
import CrateNotation.Proofs.Build.Report
import CrateNotation.Proofs.Build.Script
import CrateNotation.Proofs.Build.Sessions
import CrateNotation.Proofs.Build.Soundness
import CrateNotation.Proofs.Build.Source
import CrateNotation.Proofs.Build.Success
import CrateNotation.Proofs.Build.View
import CrateNotation.Proofs.Build.Writing
import CrateNotation.Proofs.Crate.Details
import CrateNotation.Proofs.Crate.Forest
import CrateNotation.Proofs.Crate.Outline
import CrateNotation.Proofs.Crate.Renumbering
import CrateNotation.Proofs.Diagnostic
import CrateNotation.Proofs.Message
import CrateNotation.Proofs.Schema.Catalogue
import CrateNotation.Proofs.Schema.Complete
import CrateNotation.Proofs.Schema.Numbered
import CrateNotation.Proofs.Schema.Regular
import CrateNotation.Proofs.Schema.Sound
import CrateNotation.Proofs.Source.Coordinates
import CrateNotation.Proofs.Source.Lines
import CrateNotation.Proofs.Source.Lookups
import CrateNotation.Proofs.Source.Walk
import CrateNotation.Proofs.Text.Classes
import CrateNotation.Proofs.Text.LiteralAt
import CrateNotation.Proofs.Text.LiteralGrammar
import CrateNotation.Proofs.Text.OneLine
import CrateNotation.Proofs.Token.Concatenation
import CrateNotation.Proofs.Token.Fault
import CrateNotation.Proofs.Token.Filler
import CrateNotation.Proofs.Token.FirstFault
import CrateNotation.Proofs.Token.Grammar
import CrateNotation.Proofs.Token.Layout
import CrateNotation.Proofs.Token.Numeral
import CrateNotation.Proofs.Token.Prefix
import CrateNotation.Proofs.Tree.Blame
import CrateNotation.Proofs.Tree.Calls
import CrateNotation.Proofs.Tree.Concatenation
import CrateNotation.Proofs.Tree.DepthCounter
import CrateNotation.Proofs.Tree.Descent
import CrateNotation.Proofs.Tree.Flattening
import CrateNotation.Proofs.Tree.Indentation
import CrateNotation.Proofs.Tree.Lexable
import CrateNotation.Proofs.Tree.Readings
import CrateNotation.Proofs.Tree.Relocation
import CrateNotation.Proofs.Tree.RoundTrip
import CrateNotation.Schema.Form
import CrateNotation.Schema.Forms
import CrateNotation.Schema.Kind
import CrateNotation.Schema.TagTable
import CrateNotation.Source.Locator
import CrateNotation.Source.Position
import CrateNotation.Text.Blank
import CrateNotation.Text.Literal
import CrateNotation.Text.Numeral
import CrateNotation.Text.Printable
import CrateNotation.Text.Quoted
import CrateNotation.Text.RangeTable
import CrateNotation.Text.Word
import CrateNotation.Token
import CrateNotation.Token.Lexer
import CrateNotation.Tree
import CrateNotation.Tree.Cursor
import CrateNotation.Tree.Printer
import CrateNotation.Tree.Reader
