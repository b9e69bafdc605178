import StraightLine.Interval
import StraightLine.Proofs.Quotient

/-! Enclosure of results. Each operation on intervals holds every result that the operation has on
members of its arguments. Products and quotients run monotonically along both edges of the
argument box, so that a result stands between two corners. -/
namespace StraightLine.Interval

def Between (v p q : Int) : Prop := p ≤ v ∧ v ≤ q ∨ q ≤ v ∧ v ≤ p

theorem memAdd {a b : Interval} {n k : Int} (left : n ∈ a) (right : k ∈ b) : n + k ∈ a.add b := by
  rw [memBounds] at left right ⊢
  simp only [add]
  omega

theorem betweenListed {v p q n : Int} {ks : List Int} (between : Between v p q)
    (first : p ∈ n :: ks) (second : q ∈ n :: ks) : v ∈ hull n ks := by
  have hp := memBounds.mp (memHull first)
  have hq := memBounds.mp (memHull second)
  rw [memBounds]
  rcases between with bounds | bounds <;> omega

theorem betweenCorners {v p q c₁ c₂ c₃ c₄ n : Int} {ks : List Int} (inner : Between v p q)
    (left : Between p c₁ c₂) (right : Between q c₃ c₄)
    (listed : ∀ c ∈ [c₁, c₂, c₃, c₄], c ∈ n :: ks) : v ∈ hull n ks := by
  have hp := memBounds.mp (betweenListed left (listed c₁ (by simp)) (listed c₂ (by simp)))
  have hq := memBounds.mp (betweenListed right (listed c₃ (by simp)) (listed c₄ (by simp)))
  rw [memBounds]
  rcases inner with bounds | bounds <;> omega

theorem mulBetween {n k p q : Int} (lower : p ≤ n) (upper : n ≤ q) :
    Between (n * k) (p * k) (q * k) := by
  rcases Int.le_total 0 k with sign | sign
  · exact .inl ⟨Int.mul_le_mul_of_nonneg_right lower sign,
      Int.mul_le_mul_of_nonneg_right upper sign⟩
  · exact .inr ⟨Int.mul_le_mul_of_nonpos_right upper sign,
      Int.mul_le_mul_of_nonpos_right lower sign⟩

theorem memMultiply {a b : Interval} {n k : Int} (left : n ∈ a) (right : k ∈ b) :
    n * k ∈ a.multiply b := by
  rw [memBounds] at left right
  have edge (m : Int) : Between (m * k) (m * b.low) (m * b.high) := by
    simpa only [Int.mul_comm m] using mulBetween (k := m) right.1 right.2
  exact betweenCorners (mulBetween left.1 left.2) (edge a.low) (edge a.high) (by simp)

theorem tdivBetween {n k p q : Int} (nonzero : k ≠ 0) (lower : p ≤ n) (upper : n ≤ q) :
    Between (n.tdiv k) (p.tdiv k) (q.tdiv k) := by
  rcases Int.lt_or_gt_of_ne nonzero with sign | sign
  · exact .inr ⟨tdivAntitone sign upper, tdivAntitone sign lower⟩
  · exact .inl ⟨Int.tdiv_le_tdiv sign lower, Int.tdiv_le_tdiv sign upper⟩

theorem tdivBetweenPositive (n : Int) {k p q : Int} (positive : 0 < p) (lower : p ≤ k)
    (upper : k ≤ q) : Between (n.tdiv k) (n.tdiv p) (n.tdiv q) := by
  have near : (n.tdiv k).natAbs ≤ (n.tdiv p).natAbs := tdivShrinks (by omega) (by omega)
  have far : (n.tdiv q).natAbs ≤ (n.tdiv k).natAbs := tdivShrinks (by omega) (by omega)
  rcases Int.le_total 0 n with sign | sign
  · have hp : 0 ≤ n.tdiv p := Int.tdiv_nonneg sign (by omega)
    have hk : 0 ≤ n.tdiv k := Int.tdiv_nonneg sign (by omega)
    have hq : 0 ≤ n.tdiv q := Int.tdiv_nonneg sign (by omega)
    exact .inr (by omega)
  · have hp : n.tdiv p ≤ 0 := tdivNonpos sign (by omega)
    have hk : n.tdiv k ≤ 0 := tdivNonpos sign (by omega)
    have hq : n.tdiv q ≤ 0 := tdivNonpos sign (by omega)
    exact .inl (by omega)

theorem tdivBetweenNegative (n : Int) {k p q : Int} (negative : q < 0) (lower : p ≤ k)
    (upper : k ≤ q) : Between (n.tdiv k) (n.tdiv p) (n.tdiv q) := by
  have flipped := tdivBetweenPositive n (p := -q) (k := -k) (q := -p) (by omega) (by omega)
    (by omega)
  simp only [Int.tdiv_neg] at flipped
  rcases flipped with bounds | bounds
  · exact .inl (by omega)
  · exact .inr (by omega)

theorem memSignedPart {b : Interval} {k : Int} (inside : k ∈ b) (nonzero : k ≠ 0) :
    ∃ part ∈ b.signedParts, k ∈ part ∧ (part.high < 0 ∨ 0 < part.low) := by
  rw [memBounds] at inside
  rcases Int.lt_or_gt_of_ne nonzero with sign | sign
  · have below : b.low ≤ -1 := by omega
    refine ⟨⟨b.low, min b.high (-1), by have := b.ordered; omega⟩, ?_, ?_, .inl ?_⟩
    · simp [signedParts, negativePart?, below]
    · rw [memBounds]; dsimp only; omega
    · dsimp only; omega
  · have above : 1 ≤ b.high := by omega
    refine ⟨⟨max b.low 1, b.high, by have := b.ordered; omega⟩, ?_, ?_, .inr ?_⟩
    · simp [signedParts, positivePart?, above]
    · rw [memBounds]; dsimp only; omega
    · dsimp only; omega

theorem memDivide {a b : Interval} {n k : Int} (left : n ∈ a) (right : k ∈ b) (nonzero : k ≠ 0) :
    n.tdiv k ∈ a.divide b := by
  obtain ⟨part, listed, inside, oneSign⟩ := memSignedPart right nonzero
  have corner (c : Int) (mem : c ∈ a.cornerQuotients part) :
      c ∈ b.signedParts.flatMap a.cornerQuotients := List.mem_flatMap.mpr ⟨part, listed, mem⟩
  rw [memBounds] at left inside
  have edge (m : Int) : Between (m.tdiv k) (m.tdiv part.low) (m.tdiv part.high) := by
    rcases oneSign with negative | positive
    · exact tdivBetweenNegative m negative inside.1 inside.2
    · exact tdivBetweenPositive m positive inside.1 inside.2
  unfold divide
  split
  · rename_i noCorners
    rw [noCorners] at corner
    exact absurd (corner _ List.mem_cons_self) List.not_mem_nil
  · rename_i corners
    rw [corners] at corner
    exact betweenCorners (tdivBetween nonzero left.1 left.2) (edge a.low) (edge a.high) corner

theorem memModulo {a b : Interval} {n k : Int} (left : n ∈ a) (right : k ∈ b) (nonzero : k ≠ 0) :
    n.tmod k ∈ a.modulo b := by
  rw [memBounds] at left right
  obtain ⟨short, below, nonneg, nonpos⟩ := tmodBounds (a := n) nonzero
  have bound : (n.tmod k).natAbs ≤ b.remainderBound := by
    simp only [remainderBound]
    omega
  unfold modulo
  rw [dif_neg (by omega), memBounds]
  dsimp only
  constructor
  · split <;> omega
  · split <;> omega

end StraightLine.Interval
