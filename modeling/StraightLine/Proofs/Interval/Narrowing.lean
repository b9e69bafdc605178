import StraightLine.Proofs.Interval.Exact

/-! Narrower arguments. An operation on narrower intervals has fewer results, and so exact bounds
can only move inwards. The bounds of a remainder are not exact, but the length that they allow it
and the dividend range itself can only shrink. -/
namespace StraightLine.Interval

instance : HasSubset Interval := ⟨fun a b => b.low ≤ a.low ∧ a.high ≤ b.high⟩

theorem subsetBounds {a b : Interval} : a ⊆ b ↔ b.low ≤ a.low ∧ a.high ≤ b.high := Iff.rfl

theorem subsetSelf (a : Interval) : a ⊆ a := ⟨Int.le_refl _, Int.le_refl _⟩

theorem memSubset {a b : Interval} {n : Int} (narrower : a ⊆ b) (inside : n ∈ a) : n ∈ b :=
  ⟨Int.le_trans narrower.1 inside.1, Int.le_trans inside.2 narrower.2⟩

theorem zeroOfSubset {a b : Interval} (narrower : a ⊆ b) (known : b = zero) : a = zero := by
  subst known
  have ordered := a.ordered
  simp only [subsetBounds, zero, point] at narrower
  exact sameBounds (by simp only [zero, point]; omega) (by simp only [zero, point]; omega)

theorem exactNarrow {a b : Interval} {fewer values : Set Int} (left : a.Exact fewer)
    (right : b.Exact values) (listed : fewer ⊆ values) : a ⊆ b :=
  ⟨right.low.2 (listed left.low.1), right.high.2 (listed left.high.1)⟩

section
variable {a b c d : Interval} (left : a ⊆ c) (right : b ⊆ d)
include left right

theorem resultsNarrow (op : Operation) : results op a b ⊆ results op c d := by
  rintro v ⟨n, inA, k, inB, value⟩
  exact ⟨n, memSubset left inA, k, memSubset right inB, value⟩

theorem addNarrow : a.add b ⊆ c.add d :=
  exactNarrow (addExact a b) (addExact c d) (resultsNarrow left right .add)

theorem multiplyNarrow : a.multiply b ⊆ c.multiply d :=
  exactNarrow (multiplyExact a b) (multiplyExact c d) (resultsNarrow left right .mul)

theorem divideNarrow (other : b ≠ zero) : a.divide b ⊆ c.divide d := by
  have otherToo : d ≠ zero := fun known => other (zeroOfSubset right known)
  exact exactNarrow (divideExact a other) (divideExact c otherToo) (resultsNarrow left right .div)

end

theorem boundNarrow {b d : Interval} (narrower : b ⊆ d) : b.remainderBound ≤ d.remainderBound := by
  have ordered := b.ordered
  simp only [subsetBounds] at narrower
  simp only [remainderBound]
  omega

theorem boundNonneg {b : Interval} (other : b ≠ zero) : 0 ≤ b.remainderBound := by
  obtain ⟨k, member, nonzero⟩ := nonzeroMember other
  rw [memBounds] at member
  simp only [remainderBound]
  omega

theorem moduloBounds (a : Interval) {b : Interval} (other : b ≠ zero) :
    (a.modulo b).low = (if 0 ≤ a.low then 0 else max a.low (-b.remainderBound)) ∧
      (a.modulo b).high = if a.high ≤ 0 then 0 else min a.high b.remainderBound := by
  have bound := boundNonneg other
  simp [modulo, Int.not_lt.mpr bound]

theorem moduloNarrow {a b c d : Interval} (left : a ⊆ c) (right : b ⊆ d) (other : b ≠ zero) :
    a.modulo b ⊆ c.modulo d := by
  have otherToo : d ≠ zero := fun known => other (zeroOfSubset right known)
  obtain ⟨low, high⟩ := moduloBounds a other
  obtain ⟨lowWide, highWide⟩ := moduloBounds c otherToo
  have bound := boundNonneg other
  have longer := boundNarrow right
  have ordered := a.ordered
  simp only [subsetBounds] at left
  rw [subsetBounds, low, high, lowWide, highWide]
  constructor
  · split <;> split <;> omega
  · split <;> split <;> omega

theorem belowModulo {a b c d : Interval} (left : a ⊆ c) (right : b ⊆ d) (nonneg : 0 ≤ a.low)
    (below : a.high < b.low) : a ⊆ c.modulo d := by
  have ordered := a.ordered
  have orderedToo := b.ordered
  have other : d ≠ zero := by
    intro known
    rw [zeroOfSubset right known, zero, point] at below
    dsimp only at below
    omega
  obtain ⟨low, high⟩ := moduloBounds c other
  simp only [subsetBounds] at left right
  rw [subsetBounds, low, high, remainderBound]
  constructor
  · split <;> omega
  · split <;> omega

theorem apartNarrow {a b c d : Interval} (left : a ⊆ c) (right : b ⊆ d)
    (apart : c.isDisjoint d = true) : a.isDisjoint b = true := by
  simp only [isDisjoint, decide_eq_true_eq, subsetBounds] at apart left right ⊢
  omega

theorem pointNarrow {a c : Interval} (narrower : a ⊆ c) (known : c.isPoint = true) : a = c := by
  have ordered := a.ordered
  simp only [isPoint, decide_eq_true_eq, subsetBounds] at known narrower
  exact sameBounds (by omega) (by omega)

end StraightLine.Interval
