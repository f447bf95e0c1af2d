import BoardWiring.Main
import BoardWiring.Proofs.Outcome
import BoardWiring.Proofs.PinReading
import BoardWiring.Proofs.Numerals
import BoardWiring.Proofs.PinNames
import BoardWiring.Proofs.PinGrammar
import BoardWiring.Proofs.PinRespelling
import BoardWiring.Proofs.FragmentSums
import BoardWiring.Proofs.Emission
import BoardWiring.Proofs.BusStatements
import BoardWiring.Proofs.Generation
import BoardWiring.Proofs.Verdict
import BoardWiring.Proofs.PhysicalPins
import BoardWiring.Proofs.BindingNames
import BoardWiring.Proofs.InterruptLines
import BoardWiring.Proofs.CodeReading
import BoardWiring.Proofs.LineReadings
import BoardWiring.Proofs.Nesting
import BoardWiring.Proofs.Scope
import BoardWiring.Proofs.ExpressionForms
import BoardWiring.Proofs.WiringOfCode
import BoardWiring.Proofs.DistinctNames
import BoardWiring.Proofs.DistinctBindings
import BoardWiring.Proofs.CommandEffects
import BoardWiring.Proofs.Comments
import BoardWiring.Proofs.Faults
import BoardWiring.Proofs.DescriptionShape
import BoardWiring.Proofs.NullFields
import BoardWiring.Proofs.Attribution
import BoardWiring.Proofs.UnreportedFaults
import BoardWiring.Proofs.PrintableTexts
import BoardWiring.Proofs.PrintableReports
import BoardWiring.Proofs.LiteralReading
import BoardWiring.Proofs.StatementReading
import BoardWiring.Proofs.FragmentTruth
import BoardWiring.Proofs.DiagnosticLines
import BoardWiring.Proofs.MatrixCode
import BoardWiring.Proofs.GridCode
import BoardWiring.Proofs.BracketedCode
import BoardWiring.Proofs.BusCalls
import BoardWiring.Proofs.ExchangedWords
import BoardWiring.Proofs.ModeFlags
import BoardWiring.Proofs.UniquePins
import BoardWiring.Proofs.FoldedNames
import BoardWiring.Log.Session
import BoardWiring.Proofs.LoggerHierarchy
import BoardWiring.Proofs.LoggerRuns
import BoardWiring.Proofs.NearestDouble
import BoardWiring.Proofs.ShortestDigits
import BoardWiring.Proofs.NumberReading
import BoardWiring.Proofs.AsciiLiterals
import BoardWiring.Proofs.JsonReading
import BoardWiring.Proofs.TimeStamps
import BoardWiring.Proofs.LogLines
