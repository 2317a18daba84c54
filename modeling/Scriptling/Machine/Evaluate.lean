import Scriptling.Machine.Run
import Scriptling.Value.Operator
import Scriptling.Value.Convert

/-!
# Scriptling.Machine.Evaluate -- what programs do

Expressions are evaluated to values and statements executed for their effects. Each construct is defined
over the evaluation of expressions and the execution of statements as such, handed to it as `eval` and
`exec`; the two functions at the end close the circle and count down the time that is left. So a fact
about one construct is a fact about it alone, whatever its parts do.

* `Flow` -- how a statement ends, when it ends without a fault.
* `evaluate`, `execute` -- expressions and statements, in a bounded time.
* `interpret` -- whole programs.
-/

set_option autoImplicit false

namespace Scriptling

/-- How a statement ends: in the next one, or in leaving the constructs around it up to the one that is
meant. -/
inductive Flow where
  | next
  | leaveLoop
  | leaveConditional
  | leaveCall (v : Value)
  deriving DecidableEq, Repr

namespace Machine

open Effects

section Constructs

variable {M : Type → Type} [Effects M] (eval : Expr → M Value) (exec : Statement → M Flow)

/-! ## Expressions -/

/-- Evaluates an expression for use: a fault in place of its value is raised, at the line of the
expression. -/
@[inline] def checked (e : Expr) : M Value := do
  match ← eval e with
  | .fault f => raise f e.line
  | v => pure v

/-- Gives a variable a new value, which is also the result. -/
@[inline] def store (target : String) (v : Value) : M Value := do
  if ← act (.update target v) then pure v else pure (.fault .undefinedVariable)

/-- The value that an assignment stores, made of the target's current value and the new one. -/
def combine (op : AssignOperator) (current v : Value) : Value :=
  match op.binary? with
  | some o => Value.binary o current v
  | none => v

/-- Evaluates an assignment. The target is looked at before the value is evaluated and must be there and
mutable; a compound operator takes the target's value from after. The result must be of the type that the
target had before. -/
@[specialize] def assignment (op : AssignOperator) (target : String) (value : Expr) : M Value := do
  match ← read fun m => m.scopes.binding? target with
  | none => pure (.fault .undefinedVariable)
  | some b =>
    if b.mutable then
      let v ← eval value
      if v.isFault then pure v
      else
        -- The value may have assigned to the target itself, so it is looked up again.
        let result := combine op (← read fun m => m.scopes.get target) v
        if result.isFault then pure result
        else if result.type? = some b.type then store target result
        else pure (.fault .wrongType)
    else pure (.fault .constantAssignment)

/-- Evaluates arguments from left to right up to the first that is a fault or not of its parameter's
type. -/
@[specialize] def arguments : List Param → List Expr → M (Except Fault (List Value))
  | p :: ps, e :: es => do
    match ← eval e with
    | .fault f => pure (.error f)
    | v =>
      if v.type? = some p.type then
        match ← arguments ps es with
        | .ok vs => pure (.ok (v :: vs))
        | .error f => pure (.error f)
      else pure (.error .wrongType)
  | _, _ => pure (.ok [])

/-- Executes statements up to the first that does not end in the next one. -/
@[specialize] def sequence : List Statement → M Flow
  | [] => pure .next
  | s :: ss => do
    match ← exec s with
    | .next => sequence ss
    | flow => pure flow

/-- Gives the parameters of a call their values, in its scope. -/
@[specialize] def defineParams : List Param → List Value → M Unit
  | p :: ps, v :: vs => do
    let _ ← act (.pass p v)
    defineParams ps vs
  | _, _ => pure ()

/-- Executes the statements of a function in a scope that holds its parameters. -/
@[specialize] def bodyFlow (f : Function) (values : List Value) : M Flow :=
  inCall f.result <| inScope .call do
    defineParams f.params values
    sequence exec f.body.statements

/-- Runs the body of a function. A body that ends without `return` yields nothing. -/
@[specialize] def body (f : Function) (values : List Value) (line : Nat) : M Value := do
  match ← bodyFlow exec f values with
  | .leaveCall v => pure v
  | .next => pure .void
  -- An exit is checked where it stands and never leaves a call, so these two do not occur.
  | .leaveLoop => raise .misplacedExit line
  | .leaveConditional => raise .misplacedExit line

/-- Evaluates a call. The number of arguments is checked before any of them is evaluated. What is wrong
with the call is a fault in place of its value; what goes wrong in the body is raised there. -/
@[specialize] def call (name : String) (args : List Expr) (line : Nat) : M Value := do
  match ← read fun m => m.scopes.function? name with
  | none => pure (.fault .undefinedFunction)
  | some f =>
    if f.params.length = args.length then
      match ← arguments eval f.params args with
      | .error fault => pure (.fault fault)
      | .ok values => body exec f values line
    else pure (.fault .wrongArgumentCount)

/-- The value of a literal. -/
def literal : Literal → Value
  | .int w => .int w
  | .float x => .float x
  | .bool b => .bool b
  | .string s => .string s
  | .char c => .char c

/-- Evaluates an expression. Both operands of an operator are evaluated, the left one first, before the
operator is applied. -/
@[specialize] def expression : Expr → M Value
  | .literal v _ => pure (literal v)
  | .name x _ => read fun m => m.scopes.get x
  | .group e _ => eval e
  | .call f args line => call eval exec f args line
  | .cast target e _ => do
    let v ← eval e
    pure (v.convert target)
  | .unary op e _ => do
    let v ← eval e
    pure (Value.unary op v)
  | .binary op l r _ => do
    let a ← eval l
    let b ← eval r
    pure (Value.binary op a b)
  | .assign op target e _ => assignment eval op target e

/-! ## Declarations and simple statements -/

/-- Defines a variable in the current scope. It is there, without a value, while its initial value is
evaluated. -/
@[specialize] def declare (d : VarDecl) : M Unit := do
  match d.initial with
  | none =>
    if d.constant then raise .constantWithoutValue d.line
    else
      let _ ← act (.define d.name ⟨.void, d.type, true⟩)
      pure ()
  | some e =>
    -- The name is taken at once: the initial value sees the new variable, not an outer one.
    let _ ← act (.define d.name ⟨.void, d.type, !d.constant⟩)
    let v ← checked eval e
    if v.type? = some d.type then
      let _ ← act (.define d.name ⟨v, d.type, !d.constant⟩)
      pure ()
    else raise .wrongType e.line

/-- Defines a function, unless one of its name is visible. -/
@[specialize] def declareFunction (f : Function) : M Unit := do
  if ← read fun m => m.scopes.isFunctionDefined f.name then raise .functionRedeclared f.line
  else
    let _ ← act (.defineFunction f)
    pure ()

/-- Prints a text or raises the fault that the output is full. -/
@[specialize] def printText (text : String) (line : Nat) : M Unit := do
  if ← act (.write text) then pure () else raise .outputFailed line

/-- Prints values one after another and ends the line. Each is printed before the next is evaluated. -/
@[specialize] def printAll (line : Nat) : List Expr → M Unit
  | [] => printText "\n" line
  | e :: es => do
    let v ← checked eval e
    printText v.text line
    printAll line es

/-- Executes `return`. Without a call under way there is nothing to return from; otherwise there must be
a value if and only if one is promised, and it must be of the promised type. -/
@[specialize] def answer (value : Option Expr) (line : Nat) : M Flow := do
  match ← read fun m => m.results.head? with
  | none => raise .returnOutsideFunction line
  | some result =>
    match value with
    | none =>
      if result = .void then pure (.leaveCall .void) else raise .missingReturnValue line
    | some e =>
      if result = .void then raise .unexpectedReturnValue line
      else
        let v ← checked eval e
        if v.type? = some result then pure (.leaveCall v) else raise .wrongReturnType line

/-- The kind of scope an exit leaves. -/
def exitScope : Exit → ScopeKind
  | .break_ => .loop
  | .remit_ => .conditional

/-- What an exit leaves. -/
def exitFlow : Exit → Flow
  | .break_ => .leaveLoop
  | .remit_ => .leaveConditional

/-- Executes `break` or `remit`, if there is something to leave. -/
@[specialize] def leave (kind : Exit) (line : Nat) : M Flow := do
  if ← read fun m => m.scopes.within (exitScope kind) then pure (exitFlow kind)
  else raise .misplacedExit line

/-! ## Blocks, conditionals and loops -/

/-- Executes a block in a scope of its own. -/
@[specialize] def block (kind : ScopeKind) (b : Block) : M Flow := inScope kind (sequence exec b.statements)

/-- Evaluates a condition. Only truth itself is true. -/
@[inline] def condition (e : Expr) : M Bool := do
  let v ← checked eval e
  pure (v = .bool true)

/-- Executes the branch of a conditional that was chosen. Leaving the conditional ends here. -/
@[specialize] def branch (b : Block) : M Flow := do
  match ← block exec .conditional b with
  | .leaveConditional => pure .next
  | flow => pure flow

/-- Executes the first branch whose condition is true, if there is one. -/
@[specialize] def branches : Branches → M Flow
  | .done => pure .next
  | .elif c b rest _ => do
    if ← condition eval c then branch exec b else branches rest
  | .otherwise b _ => branch exec b

/-- Repeats a body, and a step after it, as long as a condition is true. Leaving the loop ends here. The
number bounds the rounds. -/
@[specialize] def repeated (c : Expr) (b : Block) (step : M Unit) : Nat → M Flow
  | 0 => exhausted
  | n + 1 => do
    if ← condition eval c then
      match ← block exec .loop b with
      | .next => do
        step
        repeated c b step n
      | .leaveLoop => pure .next
      | flow => pure flow
    else pure .next

/-- Executes a loop that counts. Its variable has a scope around the loop. -/
@[specialize] def counted (d : VarDecl) (c step : Expr) (b : Block) (n : Nat) : M Flow :=
  inScope .loop do
    declare eval d
    repeated eval exec c b (do let _ ← checked eval step) n

/-- Executes a statement. The number bounds the rounds of a loop. -/
@[specialize] def statement (n : Nat) : Statement → M Flow
  | .var d => do
    declare eval d
    pure .next
  | .func f => do
    declareFunction f
    pure .next
  | .expr e _ => do
    let _ ← checked eval e
    pure .next
  | .print e es line => do
    printAll eval line (e :: es)
    pure .next
  | .block b => block exec .plain b
  | .cond c b rest _ => do
    if ← condition eval c then branch exec b else branches eval exec rest
  | .loop c b _ => repeated eval exec c b (pure ()) n
  | .count d c step b _ => counted eval exec d c step b n
  | .return_ e line => answer eval e line
  | .exit kind line => leave kind line

/-- Executes the statements of a program. How one of them ends does not matter to the next. -/
@[specialize] def each : List Statement → M Unit
  | [] => pure ()
  | s :: ss => do
    let _ ← exec s
    each ss

/-- Interprets a program. From now on messages name its file. -/
@[specialize] def program (p : Program) : M Unit := do
  let _ ← act (.load p.file)
  each exec p.statements

end Constructs

/-! ## Closing the circle -/

mutual

/-- Evaluates an expression in time `n`. -/
def evaluate : Nat → Expr → Run Value
  | 0, _ => exhausted
  | n + 1, e => expression (evaluate n) (execute n) e

/-- Executes a statement in time `n`. -/
def execute : Nat → Statement → Run Flow
  | 0, _ => exhausted
  | n + 1, s => statement (evaluate n) (execute n) n s

end

/-- Interprets a program in time `n`. -/
def interpret (n : Nat) (p : Program) : Run Unit := program (execute n) p

/-- More time than any run can use up. -/
def ample : Nat := 1000000000000000000

end Machine

end Scriptling
