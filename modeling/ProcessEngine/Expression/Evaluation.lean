import ProcessEngine.Expression.Basic
import ProcessEngine.Json.Writer
import ProcessEngine.Binary64.Remainder

/-!
# The value of an expression

A value is `none` when it is undefined: a path that leads nowhere.  An explicit null is a value.
Arithmetic on integers is exact as long as operands and result fit in 64 signed bits, and falls back
to doubles otherwise.
-/

namespace ProcessEngine

/-! ## Variables -/

/-- The index that a path segment writes: digits with at most one plus sign in front, below
`2 ^ 64`. -/
def arrayIndex? (segment : String) : Option Nat :=
  let ds := match segment.toList with
    | '+' :: ds => ds
    | ds => ds
  if ds.isEmpty || !ds.all Text.isDigit then none
  else
    let n := Text.decimalValue ds
    if n < UInt64.size then some n else none

/-- Follows the segments of a path into a value. -/
def Value.descend : Value → List String → Option Value
  | v, [] => some v
  | .object fields, s :: rest => (Fields.get? fields s).bind (Value.descend · rest)
  | .array items, s :: rest => (arrayIndex? s).bind fun i => (items[i]?).bind (Value.descend · rest)
  | _, _ :: _ => none

/-- The value at a path; the first segment names a variable. -/
def Variables.lookup (vars : Variables) : List String → Option Value
  | [] => none
  | head :: rest => (Fields.get? vars head).bind (Value.descend · rest)

/-- The value at a dotted path. -/
def Variables.resolve (vars : Variables) (path : String) : Option Value :=
  Variables.lookup vars (Text.split '.' path)

/-! ## Operands -/

/-- Whether a condition with this value holds: undefined, null, false, zero, the empty string and
what is not a number do not. -/
def truthy : Option Value → Bool
  | none | some .null => false
  | some (.bool b) => b
  | some (.number n) => let x := n.toFloat; x != 0.0 && x == x
  | some (.string s) => !s.isEmpty
  | some (.array _) | some (.object _) => true

/-- The kind of an operand. -/
def kindOf : Option Value → Kind
  | none => .undefined
  | some .null => .null
  | some (.bool _) => .boolean
  | some (.number _) => .number
  | some (.string _) => .string
  | some (.array _) => .array
  | some (.object _) => .object

/-- How an operand reads inside a string that it is joined to. -/
def display : Option Value → String
  | none => "undefined"
  | some (.string s) => s
  | some v => Json.write v

namespace Expression

/-- The operand of an operator that takes only numbers. -/
def numberOperand (symbol : String) : Option Value → Except ExpressionError Number
  | some (.number n) => .ok n
  | other => .error (.notANumber symbol (kindOf other))

/-! ## Comparison -/

/-- Equality of operands: undefined equals null, bare numbers are compared by value, everything else
kind by kind. -/
def looseEqual : Option Value → Option Value → Bool
  | none, none | none, some .null | some .null, none | some .null, some .null => true
  | some (.number a), some (.number b) =>
    match a.toInt?, b.toInt? with
    | some x, some y => x == y
    | _, _ => a.toFloat == b.toFloat
  | some a, some b => a.equal b
  | _, _ => false

/-- The order of two doubles, if they have one. -/
def floatOrder (x y : Float) : Option Ordering :=
  if x < y then some .lt else if x == y then some .eq else if y < x then some .gt else none

/-- The order of two numbers, by their exact values if both are 64-bit integers. -/
def numberOrder (a b : Number) : Option Ordering :=
  match a.toInt?, b.toInt? with
  | some x, some y => some (compare x y)
  | _, _ => floatOrder a.toFloat b.toFloat

/-- The order of two operands: none if one of them is null or undefined. -/
def order (op : BinaryOp) : Option Value → Option Value → Except ExpressionError (Option Ordering)
  | none, _ | some .null, _ | _, none | _, some .null => .ok none
  | some (.number a), some (.number b) => .ok (numberOrder a b)
  | some (.string a), some (.string b) => .ok (some (compare a b))
  | a, b => .error (.notComparable (kindOf a) op (kindOf b))

/-- Whether an order satisfies an ordering operator. -/
def satisfies : BinaryOp → Ordering → Bool
  | .lt, o => o == .lt
  | .le, o => o != .gt
  | .gt, o => o == .gt
  | _, o => o != .lt

/-! ## Arithmetic -/

/-- A double as a value; a result that is not finite is an error. -/
def floatResult (x : Float) : Except ExpressionError Value :=
  if Binary64.isFinite x then .ok (.number (.float x)) else .error (.notFinite x)

/-- An integer that fits in 64 signed bits. -/
def checked (i : Int) : Option Int := if fitsInt64 i then some i else none

/-- The exact result of an arithmetic operator on integers, for a divisor other than zero.  A
quotient must have no remainder; a remainder needs a quotient that fits. -/
def exactResult (op : BinaryOp) (x y : Int) : Option Int :=
  match op with
  | .add => checked (x + y)
  | .sub => checked (x - y)
  | .mul => checked (x * y)
  | .div => if x.tmod y = 0 then checked (x.tdiv y) else none
  | .mod => (checked (x.tdiv y)).map fun _ => x.tmod y
  | _ => none

/-- The result of an arithmetic operator on doubles. -/
def floatArithmetic (op : BinaryOp) (x y : Float) : Except ExpressionError Value :=
  match op with
  | .add => floatResult (x + y)
  | .sub => floatResult (x - y)
  | .mul => floatResult (x * y)
  | .div => if y == 0.0 then .error .divisionByZero else floatResult (x / y)
  | _ => if y == 0.0 then .error .divisionByZero else floatResult (Binary64.remainder x y)

/-- Whether an operator divides. -/
def divides : BinaryOp → Bool
  | .div | .mod => true
  | _ => false

/-- The result of an arithmetic operator: exact on integers where possible, else on doubles. -/
def arithmetic (op : BinaryOp) (a b : Number) : Except ExpressionError Value :=
  match a.toInt?, b.toInt? with
  | some x, some y =>
    if divides op && y == 0 then .error .divisionByZero
    else match exactResult op x y with
      | some i => .ok (.number (.int i))
      | none => floatArithmetic op a.toFloat b.toFloat
  | _, _ => floatArithmetic op a.toFloat b.toFloat

/-- The number with the opposite sign. -/
def negate (n : Number) : Except ExpressionError Value :=
  match n.toInt?.bind fun i => checked (-i) with
  | some i => .ok (.number (.int i))
  | none => floatResult (-n.toFloat)

/-- An arithmetic operator on operands, the left one checked first. -/
def arithmeticOn (op : BinaryOp) (l r : Option Value) : Except ExpressionError Value := do
  let a ← numberOperand op.symbol l
  let b ← numberOperand op.symbol r
  arithmetic op a b

/-- A binary operator on operands that are both evaluated. -/
def applyBinary (op : BinaryOp) (l r : Option Value) : Except ExpressionError Value :=
  match op with
  | .or => .ok (.bool (truthy l || truthy r))
  | .and => .ok (.bool (truthy l && truthy r))
  | .eq => .ok (.bool (looseEqual l r))
  | .ne => .ok (.bool (!looseEqual l r))
  | .lt | .le | .gt | .ge =>
    (order op l r).map fun o => .bool ((o.map (satisfies op)).getD false)
  | .add =>
    match l, r with
    | some (.string a), r => .ok (.string (a ++ display r))
    | l, some (.string b) => .ok (.string (display l ++ b))
    | l, r => arithmeticOn .add l r
  | .sub | .mul | .div | .mod => arithmeticOn op l r

/-- A unary operator on an operand. -/
def applyUnary (op : UnaryOp) (v : Option Value) : Except ExpressionError Value :=
  match op with
  | .not => .ok (.bool (!truthy v))
  | .neg => do
    let n ← numberOperand "-" v
    negate n

/-- The value of an expression.  The right operand of `and` and `or` is evaluated only if the left
one does not decide. -/
def evaluate (vars : Variables) : Expr → Except ExpressionError (Option Value)
  | .literal v => .ok (some v)
  | .path segments => .ok (Variables.lookup vars segments)
  | .unary op arg => do
    let v ← evaluate vars arg
    let r ← applyUnary op v
    return some r
  | .binary .and left right => do
    let l ← evaluate vars left
    if truthy l then
      let r ← evaluate vars right
      return some (.bool (truthy r))
    else return some (.bool false)
  | .binary .or left right => do
    let l ← evaluate vars left
    if truthy l then return some (.bool true)
    else
      let r ← evaluate vars right
      return some (.bool (truthy r))
  | .binary op left right => do
    let l ← evaluate vars left
    let r ← evaluate vars right
    let v ← applyBinary op l r
    return some v

end Expression

/-! ## Messages -/

/-- An expression error in words. -/
def ExpressionError.message : ExpressionError → String
  | .malformed source => s!"Failed to parse expression '{source}'"
  | .notANumber symbol found =>
    s!"Type error: operator '{symbol}' expects numbers, got " ++ found.label
  | .notComparable left op right =>
    "Type error: cannot compare " ++ left.label ++ " " ++ op.symbol ++ " " ++ right.label
  | .notFinite result => "Type error: non-finite result: " ++ Binary64.plainLayout.text result
  | .divisionByZero => "Division by zero"

end ProcessEngine
