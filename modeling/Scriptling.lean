import Scriptling.CommandLine
import Scriptling.Execution
import Scriptling.Fault
import Scriptling.File.Reading
import Scriptling.File.Tree
import Scriptling.Grammar.Expression
import Scriptling.Grammar.Parser
import Scriptling.Grammar.Program
import Scriptling.Grammar.Statement
import Scriptling.Machine.Evaluate
import Scriptling.Machine.Output
import Scriptling.Machine.Run
import Scriptling.Main
import Scriptling.Number.Binary64
import Scriptling.Number.Convert
import Scriptling.Number.Decimal
import Scriptling.Number.Digits
import Scriptling.Number.Scale
import Scriptling.Number.Shortest
import Scriptling.Number.Word
import Scriptling.Scope.Chain
import Scriptling.Scope.Table
import Scriptling.Syntax.Expr
import Scriptling.Syntax.Operator
import Scriptling.Syntax.Sexpr
import Scriptling.Syntax.Statement
import Scriptling.SyntaxError
import Scriptling.Text.Extending
import Scriptling.Text.Invisible
import Scriptling.Text.Quoted
import Scriptling.Text.Ranges
import Scriptling.Token
import Scriptling.Token.Rule
import Scriptling.Token.Scan
import Scriptling.Value.Basic
import Scriptling.Value.Convert
import Scriptling.Value.Operator
import Scriptling.Proofs.Trace.Basic
import Scriptling.Proofs.Trace.Logic
import Scriptling.Proofs.Machine.Constructs
import Scriptling.Proofs.Machine.Frames
import Scriptling.Proofs.Grammar.Accounts
import Scriptling.Proofs.Syntax.Shape
import Scriptling.Proofs.Grammar.Soundness
import Scriptling.Proofs.Grammar.Segments
import Scriptling.Proofs.Machine.Store
import Scriptling.Proofs.Machine.Faults
import Scriptling.Proofs.Machine.StaticTypes
import Scriptling.Proofs.Grammar.Complete.Expression
import Scriptling.Proofs.Grammar.Complete.Statement
import Scriptling.Proofs.Syntax.Lines
import Scriptling.Proofs.Grammar.Alike.Basic
import Scriptling.Proofs.Grammar.Alike.Expression
import Scriptling.Proofs.Grammar.Alike.Statement
import Scriptling.Proofs.Grammar.Alike.Program
import Scriptling.Proofs.Grammar.Complete.Program
import Scriptling.Proofs.Grammar.Prefixes
import Scriptling.Proofs.Syntax.Places
import Scriptling.Proofs.Machine.Calls
import Scriptling.Proofs.Machine.Discipline
import Scriptling.Proofs.Trace.Noted
import Scriptling.Proofs.Machine.Exits
import Scriptling.Proofs.Machine.Visits
import Scriptling.Proofs.Scope.Alike
import Scriptling.Proofs.Machine.Lockstep
import Scriptling.Proofs.Token.Patterns
import Scriptling.Proofs.Token.Lengths
import Scriptling.Proofs.Token.Munch
import Scriptling.Proofs.Token.Readings
import Scriptling.Proofs.Token.Scanning
import Scriptling.Proofs.Token.LineBreaks
import Scriptling.Proofs.Grammar.Joining
import Scriptling.Proofs.Machine.Simulation
import Scriptling.Proofs.Machine.Lines
import Scriptling.Proofs.Trace.Printed
import Scriptling.Proofs.Machine.FullOutput
import Scriptling.Proofs.Scope.Stacks
import Scriptling.Proofs.Machine.Declared
import Scriptling.Proofs.Syntax.Nodes
import Scriptling.Proofs.Machine.Units
import Scriptling.Proofs.Trace.Faulted
import Scriptling.Proofs.Machine.FirstFault
import Scriptling.Proofs.Machine.Assignments
import Scriptling.Proofs.Scope.Likeness
import Scriptling.Proofs.Machine.Likeness
import Scriptling.Proofs.Machine.Equivalents
import Scriptling.Proofs.Grammar.Depths
import Scriptling.Proofs.Token.Comments
import Scriptling.Proofs.Text.Quoted
import Scriptling.Proofs.Token.Literals
import Scriptling.Proofs.Number.Numerals
import Scriptling.Proofs.Syntax.Sexprs
import Scriptling.Proofs.Syntax.Leaves
import Scriptling.Proofs.Syntax.Shown
import Scriptling.Proofs.Syntax.Rendered
import Scriptling.Proofs.Machine.Compound
import Scriptling.Proofs.Number.Words
import Scriptling.Proofs.Number.Floats
import Scriptling.Proofs.Number.Intervals
import Scriptling.Proofs.Number.Values
import Scriptling.Proofs.Number.Rounding
import Scriptling.Proofs.Number.Conversions
import Scriptling.Proofs.Value.Numbers
import Scriptling.Proofs.Value.Exact
import Scriptling.Proofs.Value.Order
import Scriptling.Proofs.Grammar.Chunks
import Scriptling.Proofs.Grammar.Derivations
import Scriptling.Proofs.Value.Casts
