import StraightLine.Proofs.Interval.Narrowing

/-! Ranges of remainders. A remainder goes up and down with its dividend and with its divisor, so
its range is not taken at corners. What bounds it is the sign and the length of the dividend, and
the length of the longest divisor. -/
namespace StraightLine.Interval

/- A range of remainders, for dividends from one interval and divisors from another. Its bounds are
members, so that what holds of every member holds of both. -/
structure BoundsRemainders (m a b : Interval) : Prop where
  zero : 0 ∈ m
  encloses : ∀ n ∈ a, ∀ k ∈ b, k ≠ 0 → ∃ v ∈ m, remainder n k = .ok v
  nonneg : (∀ n ∈ a, 0 ≤ n) → ∀ v ∈ m, 0 ≤ v
  nonpos : (∀ n ∈ a, n ≤ 0) → ∀ v ∈ m, v ≤ 0
  shorter : ∃ k ∈ b, (∀ j ∈ b, j.natAbs ≤ k.natAbs) ∧ ∀ v ∈ m, v.natAbs < k.natAbs
  within : ∀ h : Interval, a ⊆ h → 0 ∈ h → m ⊆ h

theorem longestMember (b : Interval) :
    ∃ k ∈ b, (∀ j ∈ b, j.natAbs ≤ k.natAbs) ∧ b.remainderBound = k.natAbs - 1 := by
  rcases Nat.le_total b.low.natAbs b.high.natAbs with upper | lower
  · have longest : ∀ j ∈ b, j.natAbs ≤ b.high.natAbs := by
      intro j inside
      rw [memBounds] at inside
      omega
    exact ⟨b.high, b.highMember, longest, by simp only [remainderBound]; omega⟩
  · have longest : ∀ j ∈ b, j.natAbs ≤ b.low.natAbs := by
      intro j inside
      rw [memBounds] at inside
      omega
    exact ⟨b.low, b.lowMember, longest, by simp only [remainderBound]; omega⟩

theorem moduloEncloses {a b : Interval} {n k : Int} (left : n ∈ a) (right : k ∈ b)
    (nonzero : k ≠ 0) : ∃ v ∈ a.modulo b, remainder n k = .ok v :=
  ⟨n.tmod k, memModulo left right nonzero, if_neg nonzero⟩

section
variable {a b : Interval} (other : b ≠ zero)
include other

theorem moduloZero : 0 ∈ a.modulo b := by
  obtain ⟨low, high⟩ := moduloBounds a other
  have bound := boundNonneg other
  have below : (a.modulo b).low ≤ 0 := by
    rw [low]
    split <;> omega
  have above : 0 ≤ (a.modulo b).high := by
    rw [high]
    split <;> omega
  exact memBounds.mpr ⟨below, above⟩

theorem moduloNonneg (dividend : ∀ n ∈ a, 0 ≤ n) {v : Int} (inside : v ∈ a.modulo b) : 0 ≤ v := by
  have low := (moduloBounds a other).1
  rw [if_pos (dividend a.low a.lowMember)] at low
  exact low ▸ (memBounds.mp inside).1

theorem moduloNonpos (dividend : ∀ n ∈ a, n ≤ 0) {v : Int} (inside : v ∈ a.modulo b) : v ≤ 0 := by
  have high := (moduloBounds a other).2
  rw [if_pos (dividend a.high a.highMember)] at high
  exact high ▸ (memBounds.mp inside).2

theorem moduloLength {v : Int} (inside : v ∈ a.modulo b) : v.natAbs ≤ b.remainderBound := by
  obtain ⟨low, high⟩ := moduloBounds a other
  have bound := boundNonneg other
  have least : -b.remainderBound ≤ (a.modulo b).low := by
    rw [low]
    split <;> omega
  have greatest : (a.modulo b).high ≤ b.remainderBound := by
    rw [high]
    split <;> omega
  rw [memBounds] at inside
  omega

theorem moduloShorter :
    ∃ k ∈ b, (∀ j ∈ b, j.natAbs ≤ k.natAbs) ∧ ∀ v ∈ a.modulo b, v.natAbs < k.natAbs := by
  obtain ⟨k, member, longest, bound⟩ := longestMember b
  have shorter : ∀ v ∈ a.modulo b, v.natAbs < k.natAbs := by
    intro v inside
    have length := moduloLength other inside
    omega
  exact ⟨k, member, longest, shorter⟩

theorem moduloWithin {h : Interval} (dividend : a ⊆ h) (origin : 0 ∈ h) : a.modulo b ⊆ h := by
  obtain ⟨low, high⟩ := moduloBounds a other
  rw [memBounds] at origin
  rw [subsetBounds] at dividend
  have least : h.low ≤ (a.modulo b).low := by
    rw [low]
    split <;> omega
  have greatest : (a.modulo b).high ≤ h.high := by
    rw [high]
    split <;> omega
  exact subsetBounds.mpr ⟨least, greatest⟩

end

theorem moduloBoundsRemainders (a : Interval) {b : Interval} (other : b ≠ zero) :
    a.checkedModulo b = .ok (a.modulo b) ∧ (a.modulo b).BoundsRemainders a b := by
  have bounds : (a.modulo b).BoundsRemainders a b := {
    zero := moduloZero other
    encloses := fun _ left _ right nonzero => moduloEncloses left right nonzero
    nonneg := fun dividend _ => moduloNonneg other dividend
    nonpos := fun dividend _ => moduloNonpos other dividend
    shorter := moduloShorter other
    within := fun _ dividend origin => moduloWithin other dividend origin }
  exact ⟨moduloChecked a b, bounds⟩

theorem moduloBoundsStraddling :
    let a : Interval := ⟨-7, 2, by decide⟩
    let b : Interval := ⟨-5, 3, by decide⟩
    let m : Interval := ⟨-4, 2, by decide⟩
    b ≠ zero ∧ a.checkedModulo b = .ok m ∧ m.BoundsRemainders a b := by
  intro a b m
  have other : b ≠ zero := by decide
  have same : a.modulo b = m := by decide
  obtain ⟨checked, bounds⟩ := moduloBoundsRemainders a other
  exact ⟨other, same ▸ checked, same ▸ bounds⟩

end StraightLine.Interval
