import StraightLine.Proofs.Interval.Narrowing
import StraightLine.Proofs.Simplify.Effect

/-! Narrower entry ranges. A scan from narrower ranges may apply other rules than one from wider
ranges, but by its effects each of its steps leaves narrower ranges again, and so does the whole
scan. A divisor range of exactly zero is the exception: the dividend range is kept there, which is
not a bound for the quotients and remainders by a wider divisor range. -/
namespace StraightLine

namespace Operation
variable {op : Operation} {a b c d : Interval}

theorem comparisonWithin (a b : Interval) : eql.effect a b ⊆ Interval.truth := by
  simp only [effect]
  split
  · exact ⟨by decide, by decide⟩
  · split
    · exact ⟨by decide, by decide⟩
    · exact Interval.subsetSelf _

theorem comparisonNarrow (left : a ⊆ c) (right : b ⊆ d) : eql.effect a b ⊆ eql.effect c d := by
  by_cases apart : c.isDisjoint d = true
  · have apartToo := Interval.apartNarrow left right apart
    rw [effect, effect, if_pos apart, if_pos apartToo]
    exact Interval.subsetSelf _
  · by_cases equal : c.isPoint = true ∧ c = d
    · obtain ⟨known, rfl⟩ := equal
      rw [Interval.pointNarrow left known, Interval.pointNarrow right known]
      exact Interval.subsetSelf _
    · have undecided : eql.effect c d = Interval.truth := by
        rw [effect, if_neg apart, if_neg equal]
      rw [undecided]
      exact comparisonWithin a b

theorem remainderNarrow (left : a ⊆ c) (right : b ⊆ d) (other : b ≠ Interval.zero) :
    mod.effect a b ⊆ mod.effect c d := by
  have ordered := a.ordered
  have bounds := Interval.subsetBounds.mp left
  have boundsToo := Interval.subsetBounds.mp right
  by_cases wide : 0 ≤ c.low ∧ c.high < d.low
  · have narrow : 0 ≤ a.low ∧ a.high < b.low := by omega
    rw [effect, effect, if_pos wide, if_pos narrow]
    exact left
  · rw [effect, effect, if_neg wide]
    split
    · rename_i narrow
      exact Interval.belowModulo left right narrow.1 narrow.2
    · exact Interval.moduloNarrow left right other

theorem effectNarrow (left : a ⊆ c) (right : b ⊆ d)
    (divides : op = .div ∨ op = .mod → b ≠ Interval.zero) : op.effect a b ⊆ op.effect c d := by
  cases op with
  | add => exact Interval.addNarrow left right
  | mul => exact Interval.multiplyNarrow left right
  | div => exact Interval.divideNarrow left right (divides (.inl rfl))
  | mod => exact remainderNarrow left right (divides (.inr rfl))
  | eql => exact comparisonNarrow left right
  | set => exact right

end Operation

namespace Ranges

def Within (s t : Ranges) : Prop := ∀ r, s.get r ⊆ t.get r

def dividesByZero (s : Ranges) : Instruction → Bool
  | .read _ => false
  | .update op _ src => (op = .div ∨ op = .mod) ∧ s.ofOperand src = Interval.zero

variable {s t : Ranges}

theorem setWithin {a b : Interval} (within : s.Within t) (dst : Register) (narrower : a ⊆ b) :
    Within (s.set dst a) (t.set dst b) := by
  intro r
  simp only [PerRegister.getSet]
  split
  · exact narrower
  · exact within r

theorem operandWithin (within : s.Within t) (src : Operand) : s.ofOperand src ⊆ t.ofOperand src := by
  cases src with
  | reg r => exact within r
  | const n => exact Interval.subsetSelf _

theorem stepNarrow {i : Instruction} (within : s.Within t) (divides : s.dividesByZero i = false) :
    (s.step i).2.Within (t.step i).2 := by
  cases i with
  | read dst =>
    rw [stepRead, stepRead]
    exact setWithin within dst (Interval.subsetSelf _)
  | update op dst src =>
    rw [stepEffect, stepEffect]
    simp only [dividesByZero, decide_eq_false_iff_not, not_and] at divides
    exact setWithin within dst
      (Operation.effectNarrow (within dst) (operandWithin within src) divides)

theorem scanNarrows {is : List Instruction} (within : s.Within t)
    (divides : ∀ k (listed : k < is.length),
      (s.scan (is.take k)).2.dividesByZero is[k] = false) :
    (s.scan is).2.Within (t.scan is).2 := by
  -- the ranges of the first scan stay within those of the second
  induction is generalizing s t with
  | nil => exact within
  | cons i rest ih =>
    have first := stepNarrow within (divides 0 (Nat.succ_pos _))
    exact ih first fun k listed => divides (k + 1) (Nat.succ_lt_succ listed)

theorem scanNarrowsSigned :
    let s : Ranges := ⟨⟨2, 6, by decide⟩, ⟨-3, -1, by decide⟩, ⟨5, 5, by decide⟩, ⟨0, 4, by decide⟩⟩
    let t : Ranges := ⟨⟨-2, 9, by decide⟩, ⟨-3, 3, by decide⟩, ⟨5, 8, by decide⟩, ⟨0, 4, by decide⟩⟩
    let is : List Instruction := [.update .mod .w (.const 7), .update .eql .z (.reg .y),
      .update .mul .y (.reg .x), .update .div .w (.reg .x)]
    (s.scan is).1.length = 3 ∧ (t.scan is).1.length = 4 ∧ s.Within t ∧
      (s.scan is).2.Within (t.scan is).2 := by
  intro s t is
  have within : s.Within t := by
    intro r
    cases r <;> exact ⟨by decide, by decide⟩
  have divides : ∀ k (listed : k < is.length),
      (s.scan (is.take k)).2.dividesByZero is[k] = false := by decide +kernel
  exact ⟨by decide +kernel, by decide +kernel, within, scanNarrows within divides⟩

end Ranges
end StraightLine
