import StraightLine.Proofs.Ranges.Soundness
import StraightLine.Simplify

/-! The rules of simplification, each with the ranges that license it, and what a rule does to a
described machine: a dropped instruction would have left the machine alone, or divided zero by
zero; a replacement takes exactly the step of the instruction it replaces. -/
namespace StraightLine

inductive Rule (s : Ranges) : Instruction → Verdict → Prop
  | identity {op dst n} (neutral : op.isIdentity (.const n) = true) :
      Rule s (.update op dst (.const n)) .drop
  | zeroScaled {op dst src} (scaling : op = .mul ∨ op = .div) (old : s.get dst = Interval.zero) :
      Rule s (.update op dst src) .drop
  | zeroFactor {dst src} (operand : s.ofOperand src = Interval.zero) :
      Rule s (.update .mul dst src) (.become (.update .set dst (.const 0)))
  | zeroSummand {dst src} (old : s.get dst = Interval.zero) :
      Rule s (.update .add dst src) (.become (.update .set dst src))
  | knownOperand {op dst r} (point : (s.get r).isPoint = true) :
      Rule s (.update op dst (.reg r)) (.become (.update op dst (.const (s.get r).low)))
  | storedAlready {dst src} (same : s.ofOperand src = s.get dst)
      (point : (s.ofOperand src).isPoint = true) : Rule s (.update .set dst src) .drop
  | belowModulus {dst n} (within : (s.get dst).liesWithin 0 (n - 1) = true) :
      Rule s (.update .mod dst (.const n)) .drop
  | belowModulusRange {dst r} (nonneg : 0 ≤ (s.get dst).low)
      (below : (s.get dst).high < (s.get r).low) : Rule s (.update .mod dst (.reg r)) .drop
  | neverEqual {dst src} (apart : (s.get dst).isDisjoint (s.ofOperand src) = true) :
      Rule s (.update .eql dst src) (.become (.update .set dst (.const 0)))
  | alwaysEqual {dst src} (point : (s.get dst).isPoint = true)
      (same : s.get dst = s.ofOperand src) :
      Rule s (.update .eql dst src) (.become (.update .set dst (.const 1)))

theorem ruleApplied (s : Ranges) (i : Instruction) :
    verdict s i = .keep ∨ Rule s i (verdict s i) := by
  cases i with
  | read dst => exact .inl rfl
  | update op dst src =>
    unfold verdict
    dsimp only
    split
    · rename_i neutral
      cases src with
      | reg r => cases op <;> cases neutral
      | const n => exact .inr (.identity neutral)
    split
    · rename_i zero
      exact .inr (.zeroScaled zero.1 zero.2)
    split
    · rename_i zero
      obtain ⟨rfl, operand⟩ := zero
      exact .inr (.zeroFactor operand)
    split
    · rename_i zero
      obtain ⟨rfl, old⟩ := zero
      exact .inr (.zeroSummand old)
    split
    · rename_i known
      cases src with
      | reg r => exact .inr (.knownOperand known.2)
      | const n => cases known.1
    split
    · rename_i stored
      obtain ⟨rfl, same, point⟩ := stored
      exact .inr (.storedAlready same point)
    split
    · rename_i below
      obtain ⟨rfl, constant, within⟩ := below
      cases src with
      | reg r => exact absurd rfl constant
      | const n => exact .inr (.belowModulus within)
    split
    · rename_i below
      obtain ⟨rfl, register, nonneg, less⟩ := below
      cases src with
      | reg r => exact .inr (.belowModulusRange nonneg less)
      | const n => cases register
    split
    · rename_i compared
      obtain ⟨rfl, apart⟩ := compared
      exact .inr (.neverEqual apart)
    split
    · rename_i compared
      obtain ⟨rfl, point, same⟩ := compared
      exact .inr (.alwaysEqual point same)
    · exact .inl rfl

theorem ruleOfVerdict {s : Ranges} {i : Instruction} {v : Verdict} (given : verdict s i = v)
    (changes : v ≠ .keep) : Rule s i v := by
  rcases ruleApplied s i with kept | rule
  · exact absurd (given.symm.trans kept) changes
  · rwa [given] at rule

theorem keptElse {c : Prop} [Decidable c] {v w : Verdict} (changes : v ≠ .keep) :
    (if c then v else w) = .keep ↔ ¬c ∧ w = .keep := by
  by_cases holds : c <;> simp [holds, changes]

theorem ruleChanges {s : Ranges} {i : Instruction} {v : Verdict} (rule : Rule s i v) :
    verdict s i ≠ .keep := by
  intro kept
  cases rule with
  | identity neutral => simp [verdict, neutral] at kept
  | zeroScaled scaling old => simp [verdict, scaling, old] at kept
  | zeroFactor operand => simp [verdict, keptElse, operand] at kept
  | zeroSummand old => simp [verdict, keptElse, old] at kept
  | knownOperand point =>
    simp [verdict, keptElse, Operand.isRegister, Operand.register?, Ranges.ofOperand, point] at kept
  | storedAlready same point =>
    rw [same] at point
    simp [verdict, keptElse, same, point] at kept
  | belowModulus within =>
    simp [verdict, Operand.isRegister, Operand.register?, Ranges.ofOperand, Interval.point,
      within] at kept
  | belowModulusRange nonneg below =>
    have above := Int.not_le.mpr below
    simp [verdict, keptElse, Operand.isRegister, Operand.register?, Ranges.ofOperand, nonneg,
      above] at kept
  | neverEqual apart => simp [verdict, keptElse, apart] at kept
  | alwaysEqual point same => simp [verdict, keptElse, ← same, point] at kept

namespace Interval

theorem pointMembers {a : Interval} {n k : Int} (point : a.isPoint = true) (left : n ∈ a)
    (right : k ∈ a) : n = k := by
  simp only [isPoint, decide_eq_true_eq] at point
  rw [memBounds] at left right
  omega

end Interval

theorem Operation.identityNeutral {op : Operation} {e : Int}
    (neutral : op.isIdentity (.const e) = true) (n : Int) : op.eval n e = .ok n := by
  cases op <;> simp only [isIdentity, decide_eq_true_eq, Bool.false_eq_true] at neutral
  all_goals subst e
  all_goals simp [eval, quotient]

namespace Machine

theorem stepUnchanged {m : Machine} {op : Operation} {dst : Register} {src : Operand}
    (value : op.eval (m.registers.get dst) (src.eval m.registers) = .ok (m.registers.get dst)) :
    m.step (.update op dst src) = .ok m := by
  rw [stepOfValue value, PerRegister.setGet]

theorem stepReplaced {m : Machine} {op cheaper : Operation} {dst : Register} {src other : Operand}
    (same : cheaper.eval (m.registers.get dst) (other.eval m.registers) =
      op.eval (m.registers.get dst) (src.eval m.registers)) :
    m.step (.update cheaper dst other) = m.step (.update op dst src) := by
  simp only [step, same]

end Machine

theorem dropStep {s : Ranges} {m : Machine} {i : Instruction} (described : s.Describes m)
    (rule : Rule s i .drop) : m.step i = .ok m ∨ m.step i = .error (.divisionByZero 0) := by
  have inside := described.registers
  cases rule with
  | identity neutral => exact .inl (Machine.stepUnchanged (Operation.identityNeutral neutral _))
  | @zeroScaled op dst src scaling old =>
    have zero : m.registers.get dst = 0 := by
      have member := inside dst
      rwa [old, Interval.zero, Interval.memPoint] at member
    rcases scaling with rfl | rfl
    · refine .inl (Machine.stepUnchanged ?_)
      simp [Operation.eval, zero]
    · by_cases divisor : src.eval m.registers = 0
      · refine .inr (Machine.stepOfFault ?_)
        rw [zero, divisor]
        rfl
      · refine .inl (Machine.stepUnchanged ?_)
        simp [Operation.eval, quotient, divisor, zero]
  | @storedAlready dst src same point =>
    have operand := Ranges.operandInside inside src
    have equal : src.eval m.registers = m.registers.get dst :=
      Interval.pointMembers point operand (same ▸ inside dst)
    exact .inl (Machine.stepUnchanged (congrArg Except.ok equal))
  | @belowModulus dst n within =>
    simp only [Interval.liesWithin, decide_eq_true_eq] at within
    have bounds := Interval.memBounds.mp (inside dst)
    have same : (m.registers.get dst).tmod n = m.registers.get dst :=
      Int.tmod_eq_of_lt (by omega) (by omega)
    refine .inl (Machine.stepUnchanged ?_)
    simp only [Operation.eval, Operand.evalConst, remainder, same]
    exact if_neg (by omega)
  | @belowModulusRange dst r nonneg below =>
    have bounds := Interval.memBounds.mp (inside dst)
    have modulus := Interval.memBounds.mp (inside r)
    have same : (m.registers.get dst).tmod (m.registers.get r) = m.registers.get dst :=
      Int.tmod_eq_of_lt (by omega) (by omega)
    refine .inl (Machine.stepUnchanged ?_)
    simp only [Operation.eval, Operand.evalRegister, remainder, same]
    exact if_neg (by omega)

theorem becomeStep {s : Ranges} {m : Machine} {i j : Instruction} (described : s.Describes m)
    (rule : Rule s i (.become j)) : m.step j = m.step i := by
  have inside := described.registers
  cases rule with
  | @zeroFactor dst src operand =>
    have member := Ranges.operandInside inside src
    rw [operand, Interval.zero, Interval.memPoint] at member
    apply Machine.stepReplaced
    simp [Operation.eval, member]
  | @zeroSummand dst src old =>
    have member := inside dst
    rw [old, Interval.zero, Interval.memPoint] at member
    apply Machine.stepReplaced
    simp [Operation.eval, member]
  | @knownOperand op dst r point =>
    have known : (s.get r).low = m.registers.get r :=
      Interval.pointMembers point (s.get r).lowMember (inside r)
    apply Machine.stepReplaced
    simp only [Operand.evalConst, Operand.evalRegister, known]
  | @neverEqual dst src apart =>
    have different := Interval.disjointApart apart (inside dst) (Ranges.operandInside inside src)
    apply Machine.stepReplaced
    simp [Operation.eval, different]
  | @alwaysEqual dst src point same =>
    have operand := Ranges.operandInside inside src
    rw [← same] at operand
    have equal := Interval.pointMembers point (inside dst) operand
    apply Machine.stepReplaced
    simp [Operation.eval, equal]

end StraightLine
