import Scriptling.Value.Basic

/-!
# Scriptling.Value.Operator -- what operators do to values

An operator passes on the fault of an operand, the left one first. Then the operands must agree in type,
a divisor must not be zero, and the family of the operator decides what it means for values of that type.

* `coerce` -- how two operands come to agree.
* `binary`, `unary` -- the operators, with faults in place of values.
-/

set_option autoImplicit false

namespace Scriptling.Value

/-- Brings two operands to a common type. An integer beside a character becomes the character with that
code point; nothing else is converted. -/
def coerce : Value → Value → Except Fault (Value × Value)
  | int w, char c => do
    let d ← orFault .notConvertible (Word.toChar? w)
    pure (char d, char c)
  | char c, int w => do
    let d ← orFault .notConvertible (Word.toChar? w)
    pure (char c, char d)
  | l, r => if l.type? = r.type? then .ok (l, r) else .error .typeMismatch

/-! ## Arithmetic -/

/-- Arithmetic on whole numbers. Division rounds toward zero and the remainder has the sign of the
dividend. -/
def wholeArithmetic : Arithmetic → Int → Int → Int
  | .add, a, b => a + b
  | .sub, a, b => a - b
  | .mul, a, b => a * b
  | .div, a, b => a.tdiv b
  | .mod, a, b => a.tmod b

/-- Arithmetic on words. A remainder belongs to a division, so it exists only where the quotient fits in
a word. -/
def wordArithmetic (op : Arithmetic) (a b : Word) : Except Fault Word :=
  match op with
  | .mod => do
    let _ ← orFault .overflow (Word.ofInt? (a.toInt.tdiv b.toInt))
    orFault .overflow (Word.ofInt? (a.toInt.tmod b.toInt))
  | op => orFault .overflow (Word.ofInt? (wholeArithmetic op a.toInt b.toInt))

/-- Arithmetic on floats, rounded as floats are. -/
def floatArithmetic : Arithmetic → Float → Float → Float
  | .add, x, y => x + y
  | .sub, x, y => x - y
  | .mul, x, y => x * y
  | .div, x, y => x / y
  | .mod, x, y => Binary64.remainder x y

/-- Arithmetic on two values of one type. Characters calculate with their code points, and strings know
addition alone. -/
def arithmetic (op : Arithmetic) : Value → Value → Except Fault Value
  | int a, int b => int <$> wordArithmetic op a b
  | float x, float y => .ok (float (floatArithmetic op x y))
  | char c, char d => do
    let code ← wordArithmetic op (Word.ofChar c) (Word.ofChar d)
    char <$> orFault .notConvertible (Word.toChar? code)
  | string s, string t => if op = .add then .ok (string (s ++ t)) else .error .unsupportedType
  | _, _ => .error .unsupportedType

/-! ## Comparison and equality -/

/-- How two floats lie to each other. Not-a-number lies nowhere. -/
def floatOrder (x y : Float) : Option Ordering :=
  if x < y then some .lt else if x == y then some .eq else if y < x then some .gt else none

/-- How two values of one type lie to each other: numbers by size, characters by code point, and false
before true. -/
def order : Value → Value → Except Fault (Option Ordering)
  | int a, int b => .ok (some (compare a.toInt b.toInt))
  | float x, float y => .ok (floatOrder x y)
  | char c, char d => .ok (some (compare c.toNat d.toNat))
  | bool a, bool b => .ok (some (compare a.toNat b.toNat))
  | _, _ => .error .unsupportedType

/-- Whether a comparison admits an order. -/
def admits : Comparison → Ordering → Bool
  | .less, o => o.isLT
  | .greater, o => o.isGT
  | .lessEqual, o => o.isLE
  | .greaterEqual, o => o.isGE

/-- Compares two values. Values that lie nowhere to each other compare false. -/
def comparison (op : Comparison) (l r : Value) : Except Fault Value := do
  let o ← order l r
  pure (bool (o.elim false (admits op)))

/-- Whether two values of one type are equal. Floats are equal as numbers: zeros of both signs are, and
not-a-number is not equal to itself. -/
def equals : Value → Value → Bool
  | float x, float y => x == y
  | l, r => l = r

/-- Tells whether two values of one type are equal. Values of every type can be asked. -/
def equality : Equality → Value → Value → Value
  | .equal, l, r => bool (equals l r)
  | .notEqual, l, r => bool (!equals l r)

/-! ## Logic, bits and shifts -/

/-- The truth value of an operand: that of a number or a character is whether it differs from zero. -/
def truth : Value → Except Fault Bool
  | bool b => .ok b
  | int w => .ok (w.toInt ≠ 0)
  | float x => .ok (!(x == 0))
  | char c => .ok (c ≠ '\x00')
  | string _ | void | fault _ => .error .unsupportedType

/-- Both operands of a logical operator have their values already, so none is left out. -/
def logical (op : Logical) (l r : Value) : Except Fault Value := do
  let a ← truth l
  let b ← truth r
  pure (bool (match op with
    | .and => a && b
    | .or => a || b))

/-- Bitwise operators on words, which are 64 bits of two's complement. -/
def wordBitwise : Bitwise → Word → Word → Word
  | .and, a, b => a &&& b
  | .or, a, b => a ||| b
  | .xor, a, b => a ^^^ b

/-- Bitwise operators on truth values, which are one bit. -/
def boolBitwise : Bitwise → Bool → Bool → Bool
  | .and, a, b => a && b
  | .or, a, b => a || b
  | .xor, a, b => a ^^ b

/-- Bitwise operators on two values of one type. -/
def bitwise (op : Bitwise) : Value → Value → Except Fault Value
  | int a, int b => .ok (int (wordBitwise op a b))
  | bool a, bool b => .ok (bool (boolBitwise op a b))
  | _, _ => .error .unsupportedType

/-- Shifts the bits of a word. Bits shifted out are lost, and the sign fills up from the left. -/
def shift (op : Shift) : Value → Value → Except Fault Value
  | int a, int b => do
    let n ← orFault .overflow (Word.shiftAmount? b)
    pure (int (match op with
      | .left => a <<< n
      | .right => a >>> n))
  | _, _ => .error .unsupportedType

/-! ## All operators -/

/-- Applies an operator to two values of one type. -/
def applyFamily : BinaryOperator → Value → Value → Except Fault Value
  | .arithmetic op, l, r => arithmetic op l r
  | .shift op, l, r => shift op l r
  | .comparison op, l, r => comparison op l r
  | .equality op, l, r => .ok (equality op l r)
  | .bitwise op, l, r => bitwise op l r
  | .logical op, l, r => logical op l r

/-- Whether an operator divides. -/
def divides : BinaryOperator → Bool
  | .arithmetic .div | .arithmetic .mod => true
  | _ => false

/-- Applies an operator to two values that are no faults. -/
def applyBinary (op : BinaryOperator) (l r : Value) : Except Fault Value := do
  let (l, r) ← coerce l r
  if divides op && r.isZero then .error .divisionByZero
  else applyFamily op l r

/-- Applies a binary operator. -/
def binary (op : BinaryOperator) : Value → Value → Value
  | fault f, _ => fault f
  | _, fault f => fault f
  | l, r => ofExcept (applyBinary op l r)

/-- Applies a unary operator. -/
def unary : UnaryOperator → Value → Value
  | _, fault f => fault f
  | .negate, int w => ofExcept (int <$> orFault .overflow (Word.ofInt? (-w.toInt)))
  | .negate, float x => float (-x)
  | .negate, _ => fault .notNegatable
  | .not, bool b => bool (!b)
  | .complement, int w => int (~~~w)
  | .not, _ => fault .unsupportedType
  | .complement, _ => fault .unsupportedType

end Scriptling.Value
