import Reckoner.CommandLine
import Reckoner.Grammar.Forward
import Reckoner.Grammar.LineReader
import Reckoner.Main
import Reckoner.Proofs.Operation
import Reckoner.Proofs.Bracketing
import Reckoner.Proofs.BracketedReading
import Reckoner.Proofs.Layers
import Reckoner.Proofs.Statements
import Reckoner.Proofs.Sentences
import Reckoner.Proofs.Segments
import Reckoner.Proofs.Rendering
import Reckoner.Proofs.Retelling
import Reckoner.Proofs.LineMeaning
import Reckoner.Proofs.Actions
import Reckoner.Proofs.Separators
import Reckoner.Proofs.RowReading
import Reckoner.Proofs.Blame
import Reckoner.Proofs.Lookahead
import Reckoner.Proofs.Placement
import Reckoner.Proofs.Diagnostics
import Reckoner.Proofs.Journal
import Reckoner.Proofs.Viability
import Reckoner.Proofs.Height
import Reckoner.Proofs.LineBreaks
import Reckoner.Proofs.Moving
import Reckoner.Proofs.JoinedLines
import Reckoner.Proofs.Noninterference
import Reckoner.Proofs.Yields
import Reckoner.Proofs.NewNames
import Reckoner.Proofs.Counting
import Reckoner.Proofs.CallStack
import Reckoner.Proofs.Conversation
import Reckoner.Proofs.SourceOrder
import Reckoner.Proofs.Layout
import Reckoner.Proofs.LineLog
import Reckoner.Proofs.Descent
import Reckoner.Proofs.Room
import Reckoner.Proofs.LastLineFeed
import Reckoner.Proofs.Rules
import Reckoner.Proofs.Visits
import Reckoner.Proofs.NamedChanges
import Reckoner.Proofs.IndexedTape
import Reckoner.Proofs.Renaming
import Reckoner.Proofs.NumberText
import Reckoner.Proofs.Framing
import Reckoner.Proofs.Prompting
import Reckoner.Proofs.Quotation
import Reckoner.Proofs.OutlineReading
import Reckoner.Proofs.Rounding
import Reckoner.Proofs.Doubles
import Reckoner.Proofs.NumberReading
import Reckoner.Proofs.DumpReading
import Reckoner.Proofs.Colouring
