import StraightLine.Proofs.Ranges.Checked
import StraightLine.Proofs.Ranges.Narrowing

/-! A step against the plain operation. A step first looks for a rule and then advances the ranges by
what is left of the instruction; the ranges that it comes to are within those of the instruction as
it was given. They are the same but for a remainder that is below its modulus already and for a
comparison whose outcome is known. -/
namespace StraightLine

namespace Operation

theorem remainderWithin (a b : Interval) : mod.effect a b ⊆ a.modulo b := by
  simp only [effect]
  split
  · rename_i below
    exact Interval.belowModulo (Interval.subsetSelf a) (Interval.subsetSelf b) below.1 below.2
  · exact Interval.subsetSelf _

end Operation

namespace Ranges

theorem withinSelf (s : Ranges) : s.Within s := fun r => Interval.subsetSelf (s.get r)

theorem transferEffect {op : Operation} (remainder : op ≠ .mod) (comparison : op ≠ .eql)
    (s : Ranges) (dst : Register) (src : Operand) :
    s.transfer (.update op dst src) = s.set dst (op.effect (s.get dst) (s.ofOperand src)) := by
  cases op with
  | mod => exact absurd rfl remainder
  | eql => exact absurd rfl comparison
  | _ => rfl

theorem stepTransfers {i : Instruction} (remainder : i.opcode ≠ .update .mod)
    (comparison : i.opcode ≠ .update .eql) (s : Ranges) : (s.step i).2 = s.transfer i := by
  cases i with
  | read dst => exact stepRead s dst
  | update op dst src =>
    rw [stepEffect, transferEffect (fun same => remainder (congrArg _ same))
      (fun same => comparison (congrArg _ same))]

theorem stepWithin (s : Ranges) (i : Instruction) : (s.step i).2.Within (s.transfer i) := by
  cases i with
  | read dst =>
    rw [stepRead]
    exact withinSelf _
  | update op dst src =>
    rw [stepEffect]
    cases op with
    | mod => exact setWithin (withinSelf s) dst (Operation.remainderWithin _ _)
    | eql => exact setWithin (withinSelf s) dst (Operation.comparisonWithin _ _)
    | add | mul | div | set => exact withinSelf _

theorem stepSharpens (s : Ranges) (i : Instruction) :
    s.checkedStep i = .ok (s.step i) ∧ s.checkedTransfer i = .ok (s.transfer i) ∧
      (s.step i).2.Within (s.transfer i) ∧
      (i.opcode ≠ .update .mod → i.opcode ≠ .update .eql → (s.step i).2 = s.transfer i) :=
  ⟨stepChecked s i, transferChecked s i, stepWithin s i,
    fun remainder comparison => stepTransfers remainder comparison s⟩

theorem stepSharpensRemainder :
    let s : Ranges := ⟨⟨2, 4, by decide⟩, ⟨5, 9, by decide⟩, ⟨-3, 3, by decide⟩, Interval.zero⟩
    let i : Instruction := .update .mod .w (.reg .x)
    let j : Instruction := .update .div .z (.reg .z)
    (s.step i).2.Within (s.transfer i) ∧ (s.step i).2.w = ⟨2, 4, by decide⟩ ∧
      (s.transfer i).w = ⟨0, 4, by decide⟩ ∧ (s.step j).1 = none ∧ (s.step j).2 = s.transfer j := by
  intro s i j
  obtain ⟨_, _, within, _⟩ := stepSharpens s i
  obtain ⟨_, _, _, same⟩ := stepSharpens s j
  exact ⟨within, by decide +kernel, by decide +kernel, by decide +kernel,
    same (by decide) (by decide)⟩

end Ranges
end StraightLine
