import StraightLine.Proofs.Quotient

/-! Division with remainder. Quotient and remainder are the one pair that makes up the dividend, with
a remainder that is shorter than the divisor and, unless it is zero, has the sign of the dividend.
The quotient is that of the lengths of dividend and divisor, negative where their signs differ; it
goes one way as the dividend grows, and gets no longer as the divisor does. -/
namespace StraightLine

structure Divided (a b q r : Int) : Prop where
  whole : a = b * q + r
  shorter : r.natAbs < b.natAbs
  sign : r = 0 ∨ r < 0 ∧ a < 0 ∨ 0 < r ∧ 0 < a

/- A dividend of zero counts as positive here. -/
def lengthQuotient (a b : Int) : Int :=
  let length : Nat := a.natAbs / b.natAbs
  if a < 0 ↔ b < 0 then length else -length

theorem tdivLengths (a b : Int) : a.tdiv b = lengthQuotient a b := by
  have length : (a.tdiv b).natAbs = a.natAbs / b.natAbs := Int.natAbs_tdiv a b
  rw [lengthQuotient, ← length]
  split
  · rename_i same
    have sign : 0 ≤ a.tdiv b := by
      rcases Int.lt_or_le a 0 with negative | nonneg
      · have divisor := same.mp negative
        exact Int.tdiv_nonneg_of_nonpos_of_nonpos (Int.le_of_lt negative) (Int.le_of_lt divisor)
      · exact Int.tdiv_nonneg nonneg (by omega)
    omega
  · rename_i different
    have sign : a.tdiv b ≤ 0 := by
      rcases Int.lt_or_le a 0 with negative | nonneg
      · exact tdivNonpos (Int.le_of_lt negative) (by omega)
      · exact Int.tdiv_nonpos_of_nonneg_of_nonpos nonneg (by omega)
    omega

theorem tdivDivided (a : Int) {b : Int} (nonzero : b ≠ 0) : Divided a b (a.tdiv b) (a.tmod b) := by
  -- a dividend of zero falls under both signs, which leaves no remainder but zero
  obtain ⟨_, shorter, nonneg, nonpos⟩ := tmodBounds (a := a) nonzero
  exact ⟨(Int.mul_tdiv_add_tmod a b).symm, shorter, by omega⟩

theorem dividedUnique {a b q r : Int} (nonzero : b ≠ 0) (divided : Divided a b q r) :
    a.tdiv b = q ∧ a.tmod b = r := by
  obtain ⟨whole, shorter, sign⟩ := divided
  rcases Int.le_total 0 a with nonneg | nonpos
  · exact (Int.tdiv_tmod_unique nonneg nonzero).mpr ⟨by omega, by omega, by omega⟩
  · exact (Int.tdiv_tmod_unique' nonpos nonzero).mpr ⟨by omega, by omega, by omega⟩

section
variable {b : Int} (nonzero : b ≠ 0)
include nonzero

theorem quotientDefined (a : Int) : quotient a b = .ok (a.tdiv b) := if_neg nonzero

theorem remainderDefined (a : Int) : remainder a b = .ok (a.tmod b) := if_neg nonzero

theorem dividedResults {a q r : Int} :
    Divided a b q r ↔ quotient a b = .ok q ∧ remainder a b = .ok r := by
  rw [quotientDefined nonzero, remainderDefined nonzero]
  constructor
  · intro divided
    obtain ⟨rfl, rfl⟩ := dividedUnique nonzero divided
    exact ⟨rfl, rfl⟩
  · intro results
    obtain ⟨same, sameToo⟩ := results
    cases same
    cases sameToo
    exact tdivDivided a nonzero

theorem quotientShrinks (a : Int) {c : Int} (wider : b.natAbs ≤ c.natAbs) :
    ∃ p q, quotient a b = .ok p ∧ quotient a c = .ok q ∧ q.natAbs ≤ p.natAbs := by
  have nonzeroToo : c ≠ 0 := by omega
  exact ⟨_, _, quotientDefined nonzero a, quotientDefined nonzeroToo a, tdivShrinks nonzero wider⟩

end

theorem divisionUnique {b : Int} (nonzero : b ≠ 0) :
    (∀ a, quotient a b = .ok (lengthQuotient a b) ∧
      remainder a b = .ok (a - b * lengthQuotient a b)) ∧
    (∀ a q r, Divided a b q r ↔ quotient a b = .ok q ∧ remainder a b = .ok r) ∧
    (0 < b → ∀ a c, a ≤ c → ∃ p q, quotient a b = .ok p ∧ quotient c b = .ok q ∧ p ≤ q) ∧
    (b < 0 → ∀ a c, a ≤ c → ∃ p q, quotient a b = .ok p ∧ quotient c b = .ok q ∧ q ≤ p) ∧
    ∀ a c, b.natAbs ≤ c.natAbs →
      ∃ p q, quotient a b = .ok p ∧ quotient a c = .ok q ∧ q.natAbs ≤ p.natAbs := by
  refine ⟨?_, fun a q r => dividedResults nonzero, ?_, ?_, fun a c => quotientShrinks nonzero a⟩
  · intro a
    rw [quotientDefined nonzero, remainderDefined nonzero, ← tdivLengths]
    exact ⟨rfl, congrArg Except.ok (Int.tmod_def a b)⟩
  · intro positive a c le
    exact ⟨_, _, quotientDefined nonzero a, quotientDefined nonzero c, Int.tdiv_le_tdiv positive le⟩
  · intro negative a c le
    exact ⟨_, _, quotientDefined nonzero a, quotientDefined nonzero c, tdivAntitone negative le⟩

theorem divisionUniqueSigned :
    (-3 : Int) ≠ 0 ∧ (∀ q r, Divided (-7) (-3) q r ↔ q = 2 ∧ r = -1) ∧
      (∀ q r, Divided 0 (-3) q r ↔ q = 0 ∧ r = 0) ∧
      (∃ p q, quotient (-7) (-3) = .ok p ∧ quotient 8 (-3) = .ok q ∧ q ≤ p) ∧
      ∃ p q, quotient (-7) (-3) = .ok p ∧ quotient (-7) 5 = .ok q ∧ q.natAbs ≤ p.natAbs := by
  have nonzero : (-3 : Int) ≠ 0 := by decide
  obtain ⟨_, divided, _, falls, shrinks⟩ := divisionUnique nonzero
  refine ⟨nonzero, ?_, ?_, falls (by decide) (-7) 8 (by decide), shrinks (-7) 5 (by decide)⟩
  · intro q r
    rw [divided]
    simp [quotient, remainder, eq_comm]
  · intro q r
    rw [divided]
    simp [quotient, remainder, eq_comm]

end StraightLine
