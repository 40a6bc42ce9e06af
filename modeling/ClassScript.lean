import ClassScript.CommandLine
import ClassScript.Main
import ClassScript.Proofs.Growth
import ClassScript.Proofs.Discipline
import ClassScript.Proofs.Conformance
import ClassScript.Proofs.Answers
import ClassScript.Proofs.Conduct.Calls
import ClassScript.Proofs.Conduct.Expressions
import ClassScript.Proofs.Conduct.Statements
import ClassScript.Proofs.Conduct.Programs
import ClassScript.Proofs.Balance
import ClassScript.Proofs.Isolation
import ClassScript.Proofs.Lexing.Patterns
import ClassScript.Proofs.Lexing.FirstPiece
import ClassScript.Proofs.Lexing.MaximalMunch
import ClassScript.Proofs.Lexing.Lines
import ClassScript.Proofs.Lexing.Quoting
import ClassScript.Proofs.Precedence.Rendering
import ClassScript.Proofs.Precedence.Types
import ClassScript.Proofs.Precedence.Reading
import ClassScript.Proofs.Precedence.RoundTrip
import ClassScript.Proofs.Regimes.LoopFree
import ClassScript.Proofs.Regimes.Steps
import ClassScript.Proofs.Regimes.Basic
import ClassScript.Proofs.Regimes.Expressions
import ClassScript.Proofs.Regimes.Statements
import ClassScript.Proofs.Termination
import ClassScript.Proofs.Uncatchable
import ClassScript.Proofs.Scoping.Reference
import ClassScript.Proofs.Scoping.Refinement
import ClassScript.Proofs.Typing.Store
import ClassScript.Proofs.Typing.Soundness
import ClassScript.Proofs.Statics
import ClassScript.Proofs.Jumps.Placement
import ClassScript.Proofs.Jumps.Steps
import ClassScript.Proofs.Jumps.Expressions
import ClassScript.Proofs.Jumps.Statements
import ClassScript.Proofs.Printing.Printer
import ClassScript.Proofs.Printing.ParsedExpressions
import ClassScript.Proofs.Printing.ParsedPrograms
import ClassScript.Proofs.Printing.Takes
import ClassScript.Proofs.Printing.Declarations
import ClassScript.Proofs.Printing.Classes
import ClassScript.Proofs.Printing.Statements
import ClassScript.Proofs.Printing.RoundTrip
import ClassScript.Proofs.Lasting
import ClassScript.Proofs.Declaring
import ClassScript.Proofs.Inheritance.Overlay
import ClassScript.Proofs.Inheritance.History
import ClassScript.Proofs.Inheritance.Chain
import ClassScript.Proofs.Parts
import ClassScript.Proofs.Access.Uses
import ClassScript.Proofs.Access.Sealed
import ClassScript.Proofs.Access.Own
import ClassScript.Proofs.Access.Constructors
import ClassScript.Proofs.Access.Frames
import ClassScript.Proofs.Access.BareNames
import ClassScript.Proofs.Coupling
import ClassScript.Proofs.Hoisting
import ClassScript.Proofs.Includes.Journal
import ClassScript.Proofs.Includes.RunOnce
import ClassScript.Proofs.Includes.Placement
import ClassScript.Proofs.Instantiation
import ClassScript.Proofs.Results
import ClassScript.Proofs.Exceptions
import ClassScript.Proofs.Shapes
import ClassScript.Proofs.Constants
import ClassScript.Proofs.FieldOrder
import ClassScript.Proofs.Typing.Nesting
import ClassScript.Proofs.Construction
import ClassScript.Proofs.Precedence.Rules
import ClassScript.Proofs.Precedence.Updates
import ClassScript.Proofs.Precedence.RightEnds
import ClassScript.Proofs.Printing.Colons
import ClassScript.Proofs.Printing.TypeNames
import ClassScript.Proofs.Progress.Basic
import ClassScript.Proofs.Progress.Expressions
import ClassScript.Proofs.Progress.Declarations
import ClassScript.Proofs.Progress.Statements
import ClassScript.Proofs.Progress.Rules
import ClassScript.Proofs.Fuel
import ClassScript.Proofs.Loops
import ClassScript.Proofs.Words
import ClassScript.Proofs.Operators.Integers
import ClassScript.Proofs.Operators.Contract
import ClassScript.Proofs.Inheritance.Subtyping
import ClassScript.Proofs.Enumerations
import ClassScript.Proofs.Locations
import ClassScript.Proofs.Writes
import ClassScript.Proofs.FailedDeclarations
import ClassScript.Proofs.ArraySizes.Reading
import ClassScript.Proofs.ArraySizes.Running
import ClassScript.Proofs.ArraySizes.Agreement
