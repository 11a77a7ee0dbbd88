import ProcessEngine.Value
import ProcessEngine.Text.Split

/-!
# Expressions

Guards are expressions over the variables of an instance: literals, dotted variable paths, negation
in its two forms, and thirteen binary operators.
-/

namespace ProcessEngine

/-- The operators that stand in front of their operand. -/
inductive UnaryOp where
  | not
  | neg
deriving DecidableEq, Repr, Inhabited

/-- The operators that stand between their operands. -/
inductive BinaryOp where
  | or
  | and
  | eq
  | ne
  | lt
  | le
  | gt
  | ge
  | add
  | sub
  | mul
  | div
  | mod
deriving DecidableEq, Repr, Inhabited

/-- An expression. -/
inductive Expr where
  | literal (value : Value)
  | path (segments : List String)
  | unary (op : UnaryOp) (arg : Expr)
  | binary (op : BinaryOp) (left right : Expr)
deriving Inhabited

/-- The kinds of operand that messages name; a variable that is not there is undefined. -/
inductive Kind where
  | undefined
  | null
  | boolean
  | number
  | string
  | array
  | object
deriving DecidableEq, Repr, Inhabited

/-- Why an expression has no value. -/
inductive ExpressionError where
  | malformed (source : String)
  | notANumber (symbol : String) (found : Kind)
  | notComparable (left : Kind) (op : BinaryOp) (right : Kind)
  | notFinite (result : Float)
  | divisionByZero
deriving DecidableEq, Inhabited

/-! ## Operator symbols -/

/-- The symbol of an operator in messages. -/
def BinaryOp.symbol : BinaryOp → String
  | .or => "||"
  | .and => "&&"
  | .eq => "=="
  | .ne => "!="
  | .lt => "<"
  | .le => "<="
  | .gt => ">"
  | .ge => ">="
  | .add => "+"
  | .sub => "-"
  | .mul => "*"
  | .div => "/"
  | .mod => "%"

/-- The name of a kind of operand. -/
def Kind.label : Kind → String
  | .undefined => "undefined"
  | .null => "null"
  | .boolean => "boolean"
  | .number => "number"
  | .string => "string"
  | .array => "array"
  | .object => "object"

/-! ## Paths -/

/-- Appends a text unless it is there already. -/
def addNew (texts : List String) (t : String) : List String :=
  if texts.contains t then texts else texts ++ [t]

namespace Expr

/-- Every path of an expression, from left to right. -/
def allPaths : Expr → List (List String)
  | .literal _ => []
  | .path segments => [segments]
  | .unary _ arg => arg.allPaths
  | .binary _ left right => left.allPaths ++ right.allPaths

/-- Adds the dotted paths of an expression to a list, each once, in order of first appearance. -/
def collectPaths (e : Expr) (found : List String) : List String :=
  (e.allPaths.map (Text.join '.')).foldl addNew found

/-- The dotted paths of an expression, each once, in order of first appearance. -/
def paths (e : Expr) : List String := e.collectPaths []

end Expr

end ProcessEngine
