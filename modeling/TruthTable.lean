import TruthTable.CommandLine
import TruthTable.Main
import TruthTable.Proofs.Arena.Demands
import TruthTable.Proofs.Arena.Levels
import TruthTable.Proofs.Arena.Spans
import TruthTable.Proofs.Formula.BareReading
import TruthTable.Proofs.Formula.CanonicalText
import TruthTable.Proofs.Formula.ErrorAnchor
import TruthTable.Proofs.Formula.SpellingInvariance
import TruthTable.Proofs.Session.History
import TruthTable.Proofs.Worksheet.Decision
import TruthTable.Proofs.Worksheet.Header
import TruthTable.Proofs.Worksheet.LatexTable
import TruthTable.Proofs.Worksheet.PlainTable
import TruthTable.Proofs.Worksheet.RowCells
import TruthTable.Session
import TruthTable.Proofs.Valuation.Enumeration
import TruthTable.Proofs.Formula.HeightLimit
import TruthTable.Proofs.Formula.Surplus
import TruthTable.Proofs.Formula.Passes
import TruthTable.Proofs.Valuation.Reversal
import TruthTable.Proofs.Worksheet.Reversal
import TruthTable.Proofs.Token.OnePass
import TruthTable.Proofs.Token.Segmentation
import TruthTable.Proofs.CommandLine.Outcome
import TruthTable.Proofs.Formula.DepthCounter
