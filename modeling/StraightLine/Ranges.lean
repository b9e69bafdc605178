import StraightLine.Interval
import StraightLine.Machine

/-! One interval for each register: what is known about the machine between two instructions. -/
namespace StraightLine

abbrev Ranges := PerRegister Interval

namespace Ranges

def zero : Ranges := PerRegister.uniform Interval.zero

def exactly (registers : Registers) : Ranges := registers.map Interval.point

def Contains (s : Ranges) (registers : Registers) : Prop := ∀ r, registers.get r ∈ s.get r

theorem containsExactly (registers : Registers) : (exactly registers).Contains registers := by
  intro r
  rw [exactly, PerRegister.getMap, Interval.memPoint]

def ofOperand (s : Ranges) : Operand → Interval
  | .reg r => s.get r
  | .const n => Interval.point n

def render (s : Ranges) : Except Text.Overlong String := do
  let entries ← Register.all.mapM fun r => do
    return r.letter.toString ++ "=" ++ (← (s.get r).render)
  return " ".intercalate entries

def transfer (s : Ranges) : Instruction → Ranges
  | .read dst => s.set dst Interval.digit
  | .update op dst src =>
    let old := s.get dst
    let operand := s.ofOperand src
    s.set dst <|
      match op with
      | .add => old.add operand
      | .mul => old.multiply operand
      | .div => old.divide operand
      | .mod => old.modulo operand
      | .eql => Interval.truth
      | .set => operand

end Ranges
end StraightLine
