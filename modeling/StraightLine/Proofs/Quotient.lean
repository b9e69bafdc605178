import StraightLine.Arithmetic

/-! Order of truncated quotients. For a fixed divisor the quotient rises or falls with the
dividend; for a fixed dividend it keeps its sign and shrinks as the divisor grows. -/
namespace StraightLine

theorem tdivAntitone {a b c : Int} (negative : c < 0) (le : a ≤ b) : b.tdiv c ≤ a.tdiv c := by
  have flipped : a.tdiv (-c) ≤ b.tdiv (-c) := Int.tdiv_le_tdiv (by omega) le
  rw [Int.tdiv_neg, Int.tdiv_neg] at flipped
  omega

theorem tdivShrinks {a b c : Int} (nonzero : b ≠ 0) (wider : b.natAbs ≤ c.natAbs) :
    (a.tdiv c).natAbs ≤ (a.tdiv b).natAbs := by
  rw [Int.natAbs_tdiv, Int.natAbs_tdiv]
  exact Nat.div_le_div_left wider (by omega)

theorem tdivNonpos {a b : Int} (dividend : a ≤ 0) (divisor : 0 ≤ b) : a.tdiv b ≤ 0 := by
  have flipped := Int.tdiv_nonneg (a := -a) (by omega) divisor
  rw [Int.neg_tdiv] at flipped
  omega

theorem tmodBounds {a b : Int} (nonzero : b ≠ 0) :
    (a.tmod b).natAbs ≤ a.natAbs ∧ (a.tmod b).natAbs < b.natAbs ∧
      (0 ≤ a → 0 ≤ a.tmod b) ∧ (a ≤ 0 → a.tmod b ≤ 0) := by
  rw [Int.natAbs_tmod]
  refine ⟨Nat.mod_le _ _, Nat.mod_lt _ (by omega), Int.tmod_nonneg b, ?_⟩
  intro dividend
  have flipped := Int.tmod_nonneg (a := -a) b (by omega)
  rw [Int.neg_tmod] at flipped
  omega

end StraightLine
