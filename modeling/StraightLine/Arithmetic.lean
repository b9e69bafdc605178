import StraightLine.Instruction
import StraightLine.Raise

/-! Values of the operations. Quotients are cut toward zero, and a remainder has the sign of the
dividend. Dividing by zero is a fault, as is reading when no input is left. The fault of a division
shows the dividend. -/
namespace StraightLine

inductive Fault
  | inputExhausted (dst : Register)
  | divisionByZero (lhs : Int)
  | moduloByZero (lhs : Int)
  | overlong
  deriving DecidableEq, Repr

namespace Fault

def kind : Fault → ErrorKind
  | .inputExhausted _ => .exhaustedInput
  | .divisionByZero _ => .arithmetic
  | .moduloByZero _ => .arithmetic
  | .overlong => .invalidValue

def message : Fault → Except Text.Overlong String
  | .inputExhausted dst => do
    return "'" ++ (← (Instruction.read dst).render) ++ "' executed with no input left"
  | .divisionByZero lhs => do
    return "division by zero (" ++ (← Text.Numeral.render lhs) ++ " / 0)"
  | .moduloByZero lhs => do
    return "modulo by zero (" ++ (← Text.Numeral.render lhs) ++ " % 0)"
  | .overlong => .ok (Text.Overlong.message {})

def raised (fault : Fault) : Fault := StraightLine.raised message .overlong fault

theorem divisionRaised (lhs : Int) :
    (divisionByZero lhs).raised =
      if Text.Numeral.isWritable lhs then .divisionByZero lhs else .overlong :=
  raisedIf rfl

theorem moduloRaised (lhs : Int) :
    (moduloByZero lhs).raised =
      if Text.Numeral.isWritable lhs then .moduloByZero lhs else .overlong :=
  raisedIf rfl

end Fault

def quotient (lhs rhs : Int) : Except Fault Int :=
  if rhs = 0 then .error (Fault.divisionByZero lhs).raised else .ok (lhs.tdiv rhs)

def remainder (lhs rhs : Int) : Except Fault Int :=
  if rhs = 0 then .error (Fault.moduloByZero lhs).raised else .ok (lhs.tmod rhs)

namespace Operation

def eval : Operation → Int → Int → Except Fault Int
  | .add, a, b => .ok (a + b)
  | .mul, a, b => .ok (a * b)
  | .div, a, b => quotient a b
  | .mod, a, b => remainder a b
  | .eql, a, b => .ok (if a = b then 1 else 0)
  | .set, _, b => .ok b

theorem evalFails {op : Operation} {a b : Int} {f : Fault} :
    op.eval a b = .error f ↔
      b = 0 ∧ (op = .div ∧ f = (Fault.divisionByZero a).raised ∨
        op = .mod ∧ f = (Fault.moduloByZero a).raised) := by
  cases op <;> simp [eval, quotient, remainder] <;> by_cases zero : b = 0 <;> simp [zero, eq_comm]

end Operation
end StraightLine
