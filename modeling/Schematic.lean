import Schematic.CommandLine
import Schematic.Constant
import Schematic.DataType
import Schematic.Design.Basic
import Schematic.Design.Check
import Schematic.Design.Listing
import Schematic.Design.Update
import Schematic.Direction
import Schematic.Edge
import Schematic.Edit.Basic
import Schematic.Edit.Command
import Schematic.Edit.Nodes
import Schematic.Edit.Wiring
import Schematic.Error
import Schematic.Error.Record
import Schematic.Journal
import Schematic.Netlist.Basic
import Schematic.Netlist.Build
import Schematic.Netlist.Entry
import Schematic.Netlist.Fault
import Schematic.Netlist.Form
import Schematic.Netlist.Gap
import Schematic.Netlist.Lexeme
import Schematic.Netlist.Lexer
import Schematic.Netlist.Parser
import Schematic.Netlist.Printer
import Schematic.Netlist.Token
import Schematic.Node
import Schematic.Operator
import Schematic.Pins
import Schematic.Policy
import Schematic.Registry
import Schematic.Tag
import Schematic.Text.Alphabetic
import Schematic.Text.Cased
import Schematic.Text.CodePoints
import Schematic.Text.Decimal
import Schematic.Text.Lowercase
import Schematic.Text.Numeric
import Schematic.Text.Padding
import Schematic.Text.Position
import Schematic.Text.Printable
import Schematic.Text.Quoted
import Schematic.Text.WhiteSpace
import Schematic.TypeTable
import Schematic.Main
import Schematic.Proofs.EdgeTable
import Schematic.Proofs.NodeEdges
import Schematic.Proofs.NodeTable
import Schematic.Proofs.NodeEdits
import Schematic.Proofs.Wiring
import Schematic.Proofs.Rewiring
import Schematic.Proofs.Changes
import Schematic.Proofs.Sequences
import Schematic.Proofs.Validation
import Schematic.Proofs.Neighbours
import Schematic.Proofs.Literals
import Schematic.Proofs.Effects
import Schematic.Proofs.Construction
import Schematic.Proofs.Connections
import Schematic.Proofs.Outcomes
import Schematic.Proofs.Building
import Schematic.Proofs.Acceptance
import Schematic.Proofs.LastConnection
import Schematic.Proofs.Atomicity
import Schematic.Proofs.Lenience
import Schematic.Proofs.Resolution
import Schematic.Proofs.Strictness
import Schematic.Proofs.Shifting
import Schematic.Proofs.LineEnds
import Schematic.Proofs.LineByLine
import Schematic.Proofs.Numerals
import Schematic.Proofs.Words
import Schematic.Proofs.RoundTrip
import Schematic.Proofs.Permanence
import Schematic.Proofs.Verdicts
import Schematic.Proofs.Lookup
import Schematic.Proofs.Spelling
import Schematic.Proofs.Relayout
import Schematic.Proofs.Grammar
import Schematic.Proofs.Quoting
import Schematic.Proofs.FaultPositions
import Schematic.Proofs.FaultyLines
import Schematic.Proofs.JournalLinks
import Schematic.Proofs.References
import Schematic.Proofs.Writability
import Schematic.Proofs.LineNumbers
import Schematic.Proofs.Driving
import Schematic.Proofs.Undoing
import Schematic.Proofs.ConnectionOrder
import Schematic.Proofs.Operands
import Schematic.Proofs.NodeLists
import Schematic.Proofs.ParameterValues
import Schematic.Proofs.Population
import Schematic.Proofs.LiteralNames
import Schematic.Proofs.TypeCalls
import Schematic.Proofs.Typing
import Schematic.Proofs.Copies
import Schematic.Proofs.Integers
import Schematic.Proofs.PinCalls
import Schematic.Proofs.Preservation
import Schematic.Proofs.AuditTrail
import Schematic.Proofs.ListingLines
import Schematic.Proofs.LetterCase
import Schematic.Proofs.Recasing
import Schematic.Proofs.Keywords
import Schematic.Proofs.Strings
import Schematic.Proofs.Progress
import Schematic.Proofs.TokenByToken
