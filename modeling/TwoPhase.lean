import TwoPhase.Agreement
import TwoPhase.ArrayFile.Delimited
import TwoPhase.ArrayFile.Typed
import TwoPhase.Binary64
import TwoPhase.Cell
import TwoPhase.CommandLine
import TwoPhase.CommandLine.Arguments
import TwoPhase.Config
import TwoPhase.Decimal.Notation
import TwoPhase.Decimal.Reading
import TwoPhase.Decimal.Shortest
import TwoPhase.Digest
import TwoPhase.Folder
import TwoPhase.Grid
import TwoPhase.History
import TwoPhase.History.File
import TwoPhase.Json.Printer
import TwoPhase.Json.Reader
import TwoPhase.Main
import TwoPhase.Matrix
import TwoPhase.Matrix.Arithmetic
import TwoPhase.Matrix.Cells
import TwoPhase.Matrix.Cofactor
import TwoPhase.Matrix.Reduction
import TwoPhase.Number
import TwoPhase.Path
import TwoPhase.Plots
import TwoPhase.Plots.Image
import TwoPhase.Position
import TwoPhase.Power
import TwoPhase.Problem
import TwoPhase.Problem.Fields
import TwoPhase.Proofs.Arrangement
import TwoPhase.Proofs.BasicSolution
import TwoPhase.Proofs.CheckedQuotient
import TwoPhase.Proofs.Clearing
import TwoPhase.Proofs.CofactorExpansion
import TwoPhase.Proofs.ColumnLimit
import TwoPhase.Proofs.CompactedPivots
import TwoPhase.Proofs.Compaction
import TwoPhase.Proofs.Course
import TwoPhase.Proofs.Cycling
import TwoPhase.Proofs.Descent
import TwoPhase.Proofs.Determinant
import TwoPhase.Proofs.DoubleBuffer
import TwoPhase.Proofs.Echelon
import TwoPhase.Proofs.EchelonForm
import TwoPhase.Proofs.Elimination
import TwoPhase.Proofs.Equations
import TwoPhase.Proofs.ExactCells
import TwoPhase.Proofs.ExactNumber
import TwoPhase.Proofs.ExactReduction
import TwoPhase.Proofs.Exchange
import TwoPhase.Proofs.ExitStatus
import TwoPhase.Proofs.FailedPivot
import TwoPhase.Proofs.Feasibility
import TwoPhase.Proofs.FinishedPrefix
import TwoPhase.Proofs.FolderReads
import TwoPhase.Proofs.FolderWrites
import TwoPhase.Proofs.FullElimination
import TwoPhase.Proofs.HelperRow
import TwoPhase.Proofs.HistoryFile
import TwoPhase.Proofs.Idempotence
import TwoPhase.Proofs.Infeasibility
import TwoPhase.Proofs.IterationLimit
import TwoPhase.Proofs.JsonNumber
import TwoPhase.Proofs.JsonText
import TwoPhase.Proofs.JsonValue
import TwoPhase.Proofs.Keyed
import TwoPhase.Proofs.Loops
import TwoPhase.Proofs.MatrixFile
import TwoPhase.Proofs.MatrixForms
import TwoPhase.Proofs.NegativeRows
import TwoPhase.Proofs.Optimality
import TwoPhase.Proofs.OutputFiles
import TwoPhase.Proofs.Partition
import TwoPhase.Proofs.PathIndependence
import TwoPhase.Proofs.PermutationSum
import TwoPhase.Proofs.ProblemShapes
import TwoPhase.Proofs.ProgramEquations
import TwoPhase.Proofs.RatioTest
import TwoPhase.Proofs.Replay
import TwoPhase.Proofs.Representation
import TwoPhase.Proofs.Reversal
import TwoPhase.Proofs.RightHandSide
import TwoPhase.Proofs.Run
import TwoPhase.Proofs.ScaledTableau
import TwoPhase.Proofs.Scaling
import TwoPhase.Proofs.Selection
import TwoPhase.Proofs.SelectionRule
import TwoPhase.Proofs.SquareInput
import TwoPhase.Proofs.Totality
import TwoPhase.Proofs.Trail
import TwoPhase.Proofs.Transcript
import TwoPhase.Proofs.Unboundedness
import TwoPhase.Proofs.UnwrittenValue
import TwoPhase.Proofs.Visits
import TwoPhase.Reference
import TwoPhase.Solver
import TwoPhase.Solver.Options
import TwoPhase.Solver.Outcome
import TwoPhase.Tableau
import TwoPhase.Tableau.Buffers
import TwoPhase.Tableau.PhaseOne
import TwoPhase.Tableau.Selection
import TwoPhase.Tableau.Table
import TwoPhase.Tensor
import TwoPhase.Text.Blank
import TwoPhase.Text.Columns
import TwoPhase.Text.Digit
import TwoPhase.Text.Lines
import TwoPhase.Text.Padding
import TwoPhase.Text.Printable
import TwoPhase.Text.Quoted
import TwoPhase.Value
import TwoPhase.Value.Array
import TwoPhase.Value.Literal
import TwoPhase.VectorText
import TwoPhase.Yaml.Cursor
import TwoPhase.Yaml.Node
import TwoPhase.Yaml.Resolve
import TwoPhase.Yaml.Scalar
import TwoPhase.Yaml.Token
