import StraightLine.Proofs.Execution
import StraightLine.Proofs.Interval.Enclosure
import StraightLine.Ranges

/-! Ranges describe a machine when each register lies in its range and every input still to be read
is a digit. A completed instruction leads from a described machine to one that the advanced
ranges describe. -/
namespace StraightLine.Ranges

structure Describes (s : Ranges) (m : Machine) : Prop where
  registers : s.Contains m.registers
  inputs : ∀ d ∈ m.inputs, d ∈ Interval.digit

theorem containsSet {s : Ranges} {registers : Registers} {a : Interval} {n : Int}
    (inside : s.Contains registers) (dst : Register) (member : n ∈ a) :
    Contains (s.set dst a) (registers.set dst n) := by
  intro r
  rw [PerRegister.getSet, PerRegister.getSet]
  split
  · exact member
  · exact inside r

theorem operandInside {s : Ranges} {registers : Registers} (inside : s.Contains registers)
    (src : Operand) : src.eval registers ∈ s.ofOperand src := by
  cases src with
  | reg r => exact inside r
  | const n => exact Interval.memPoint.mpr rfl

theorem zeroContains : zero.Contains Registers.zero := by
  intro r
  rw [zero, Registers.zero, PerRegister.getUniform, PerRegister.getUniform]
  exact Interval.memPoint.mpr rfl

theorem valueInside {s : Ranges} {registers : Registers} {op : Operation} {dst : Register}
    {src : Operand} {n : Int} (inside : s.Contains registers)
    (value : op.eval (registers.get dst) (src.eval registers) = .ok n) :
    n ∈ (s.transfer (.update op dst src)).get dst := by
  have old := inside dst
  have operand := operandInside inside src
  simp only [transfer, PerRegister.getSetSame]
  cases op with
  | add =>
    cases value
    exact Interval.memAdd old operand
  | mul =>
    cases value
    exact Interval.memMultiply old operand
  | div =>
    simp only [Operation.eval, quotient] at value
    split at value <;> try contradiction
    rename_i nonzero
    cases value
    exact Interval.memDivide old operand nonzero
  | mod =>
    simp only [Operation.eval, remainder] at value
    split at value <;> try contradiction
    rename_i nonzero
    cases value
    exact Interval.memModulo old operand nonzero
  | eql =>
    cases value
    dsimp only
    split <;> decide
  | set =>
    cases value
    exact operand

theorem transferOther {s : Ranges} {i : Instruction} {r : Register} (other : r ≠ i.dst) :
    (s.transfer i).get r = s.get r := by
  cases i <;> exact PerRegister.getSetOther s _ other

theorem transferDescribes {s : Ranges} {m next : Machine} {i : Instruction}
    (described : s.Describes m) (ran : m.step i = .ok next) : (s.transfer i).Describes next := by
  cases i with
  | read dst =>
    obtain ⟨n, rest, inputs, rfl⟩ := Machine.stepRead ran
    have digits := described.inputs
    rw [inputs] at digits
    exact ⟨containsSet described.registers dst (digits n (by simp)),
      fun d later => digits d (List.mem_cons_of_mem n later)⟩
  | update op dst src =>
    obtain ⟨n, value, rfl⟩ := Machine.stepUpdate ran
    refine ⟨?_, described.inputs⟩
    intro r
    by_cases same : r = dst
    · subst r
      rw [PerRegister.getSetSame]
      exact valueInside described.registers value
    · rw [PerRegister.getSetOther _ _ same, transferOther same]
      exact described.registers r

end StraightLine.Ranges
