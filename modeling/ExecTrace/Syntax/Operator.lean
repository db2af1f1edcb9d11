import ExecTrace.Syntax.Ty

/-
  This file defines the operators of the language with their
  symbols and the static types of their results.

  Key definitions include:
    * `UnaryOp`
    * `UnaryOp.resultTy`
    * `BinaryOp`
    * `BinaryOp.resultTy`
    * `StepOp`
-/

namespace ExecTrace

------------------------------------------------------------
-- One operand
------------------------------------------------------------

/- The operators with one operand. -/
inductive UnaryOp where
  | neg
  | not
  | bitNot
  deriving DecidableEq, Repr, Inhabited

namespace UnaryOp

/- The symbol of an operator. -/
def symbol : UnaryOp → String
  | .neg => "-"
  | .not => "!"
  | .bitNot => "~"

/- Every operator, in order. -/
def all : List UnaryOp :=
  [.neg, .not, .bitNot]

/- The operator with a symbol. -/
def ofSymbol? (s : String) : Option UnaryOp :=
  all.find? fun op => op.symbol == s

/- The static type of the result. -/
def resultTy
    (op : UnaryOp)
    (operand : Ty) : Ty :=
  match op with
  | .not => .bool
  | _ => operand.promoteUnary

end UnaryOp

------------------------------------------------------------
-- Two operands
------------------------------------------------------------

/- The operators with two operands. -/
inductive BinaryOp where
  | add
  | sub
  | mul
  | div
  | rem
  | shl
  | shr
  | ushr
  | bitAnd
  | bitOr
  | bitXor
  | and
  | or
  | eq
  | ne
  | lt
  | le
  | gt
  | ge
  deriving DecidableEq, Repr, Inhabited

namespace BinaryOp

/- The symbol of an operator. -/
def symbol : BinaryOp → String
  | .add => "+"
  | .sub => "-"
  | .mul => "*"
  | .div => "/"
  | .rem => "%"
  | .shl => "<<"
  | .shr => ">>"
  | .ushr => ">>>"
  | .bitAnd => "&"
  | .bitOr => "|"
  | .bitXor => "^"
  | .and => "&&"
  | .or => "||"
  | .eq => "=="
  | .ne => "!="
  | .lt => "<"
  | .le => "<="
  | .gt => ">"
  | .ge => ">="

/- Every operator, in order. -/
def all : List BinaryOp :=
  [.add, .sub, .mul, .div, .rem, .shl, .shr, .ushr, .bitAnd,
    .bitOr, .bitXor, .and, .or, .eq, .ne, .lt, .le, .gt, .ge]

/- The operator with a symbol. -/
def ofSymbol? (s : String) : Option BinaryOp :=
  all.find? fun op => op.symbol == s

/- Whether the left operand can decide the result alone. -/
def isShortCircuit : BinaryOp → Bool
  | .and | .or => true
  | _ => false

/- Whether an operator compares its operands. -/
def isComparison : BinaryOp → Bool
  | .eq | .ne | .lt | .le | .gt | .ge => true
  | _ => false

/- Whether an operator shifts its left operand. -/
def isShift : BinaryOp → Bool
  | .shl | .shr | .ushr => true
  | _ => false

/- The static type of the result. -/
def resultTy
    (op : BinaryOp)
    (lhs rhs : Ty) : Ty :=
  if op.isComparison || op.isShortCircuit then .bool
  else if op = .add ∧ (lhs = .str ∨ rhs = .str) then .str
  else if op.isShift then lhs.promoteUnary
  else if lhs = .bool ∧ rhs = .bool then .bool
  else Ty.promote lhs rhs

end BinaryOp

------------------------------------------------------------
-- Steps
------------------------------------------------------------

/- The operators that step a variable up or down by one. -/
inductive StepOp where
  | preInc
  | preDec
  | postInc
  | postDec
  deriving DecidableEq, Repr, Inhabited

namespace StepOp

/- Whether the operator stands before its operand. -/
def isPrefix : StepOp → Bool
  | .preInc | .preDec => true
  | _ => false

/- Whether the operator steps up. -/
def isIncrement : StepOp → Bool
  | .preInc | .postInc => true
  | _ => false

/- The symbol, without its place. -/
def symbol (op : StepOp) : String :=
  if op.isIncrement then "++" else "--"

/- The symbol with its place in words. -/
def describe (op : StepOp) : String :=
  (if op.isPrefix then "prefix " else "postfix ") ++ op.symbol

end StepOp

end ExecTrace
