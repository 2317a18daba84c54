/-!
# Scriptling.Syntax.Operator -- types and operators of the language

Operators come in families. The operators of one family take operands of the same kinds and fail in the
same ways, so the rules for values are stated once per family. How tightly an operator binds is its
`tier`; the families and the tiers agree except that arithmetic has two tiers.
-/

set_option autoImplicit false

namespace Scriptling

/-- The types a program can write. `void` is the type of having no value. -/
inductive ValueType where
  | int
  | float
  | bool
  | string
  | char
  | void
  deriving DecidableEq, Repr

/-- The name of a type in programs. -/
def ValueType.name : ValueType → String
  | .int => "int"
  | .float => "float"
  | .bool => "bool"
  | .string => "string"
  | .char => "char"
  | .void => "void"

/-- Operators that stand before their operand. -/
inductive UnaryOperator where
  | negate
  | not
  | complement
  deriving DecidableEq, Repr

/-- How a program writes a unary operator. -/
def UnaryOperator.symbol : UnaryOperator → String
  | .negate => "-"
  | .not => "!"
  | .complement => "~"

/-! ## Binary operators by family -/

/-- Sums and products, and the two halves of a division. -/
inductive Arithmetic where
  | add
  | sub
  | mul
  | div
  | mod
  deriving DecidableEq, Repr

/-- Moving the bits of a word. -/
inductive Shift where
  | left
  | right
  deriving DecidableEq, Repr

/-- Questions of order. -/
inductive Comparison where
  | less
  | greater
  | lessEqual
  | greaterEqual
  deriving DecidableEq, Repr

/-- Questions of equality. -/
inductive Equality where
  | equal
  | notEqual
  deriving DecidableEq, Repr

/-- Operators that work bit by bit. -/
inductive Bitwise where
  | and
  | or
  | xor
  deriving DecidableEq, Repr

/-- Operators on truth values. -/
inductive Logical where
  | and
  | or
  deriving DecidableEq, Repr

/-- Operators between two operands. -/
inductive BinaryOperator where
  | arithmetic (op : Arithmetic)
  | shift (op : Shift)
  | comparison (op : Comparison)
  | equality (op : Equality)
  | bitwise (op : Bitwise)
  | logical (op : Logical)
  deriving DecidableEq, Repr

/-- How a program writes an arithmetic operator. -/
def Arithmetic.symbol : Arithmetic → String
  | .add => "+"
  | .sub => "-"
  | .mul => "*"
  | .div => "/"
  | .mod => "%"

/-- How a program writes a binary operator. -/
def BinaryOperator.symbol : BinaryOperator → String
  | .arithmetic op => op.symbol
  | .shift .left => "<<"
  | .shift .right => ">>"
  | .comparison .less => "<"
  | .comparison .greater => ">"
  | .comparison .lessEqual => "<="
  | .comparison .greaterEqual => ">="
  | .equality .equal => "=="
  | .equality .notEqual => "!="
  | .bitwise .and => "&"
  | .bitwise .or => "|"
  | .bitwise .xor => "^"
  | .logical .and => "&&"
  | .logical .or => "||"

/-- How loosely an operator binds, from `1` for the tightest to `7`. Operators of one tier associate to
the left. -/
def BinaryOperator.tier : BinaryOperator → Nat
  | .arithmetic .mul | .arithmetic .div | .arithmetic .mod => 1
  | .arithmetic .add | .arithmetic .sub => 2
  | .shift _ => 3
  | .comparison _ => 4
  | .equality _ => 5
  | .bitwise _ => 6
  | .logical _ => 7

/-- The tier of the loosest operators. -/
def BinaryOperator.loosest : Nat := 7

/-- No operator binds more loosely than the loosest. -/
theorem BinaryOperator.tier_le_loosest (op : BinaryOperator) : op.tier ≤ loosest := by
  unfold tier loosest
  split <;> decide

/-- Tier zero is left to expressions without binary operators. -/
theorem BinaryOperator.tier_pos (op : BinaryOperator) : 0 < op.tier := by
  unfold tier
  split <;> decide

/-! ## Assignment -/

/-- Plain assignment, or assignment of the result of an arithmetic operator. -/
inductive AssignOperator where
  | plain
  | compound (op : Arithmetic)
  deriving DecidableEq, Repr

/-- The operator that a compound assignment applies. -/
def AssignOperator.binary? : AssignOperator → Option BinaryOperator
  | .plain => none
  | .compound op => some (.arithmetic op)

/-- How a program writes an assignment operator. -/
def AssignOperator.symbol : AssignOperator → String
  | .plain => "="
  | .compound op => op.symbol ++ "="

end Scriptling
