import Mathlib.Order.Bounds.Basic
import StraightLine.Proofs.Interval.Checked
import StraightLine.Proofs.Interval.Enclosure

/-! Exact bounds. The bounds of a sum, a product or a quotient of intervals are the least and the
greatest result that the operation has on members of its arguments. They are results because each
is taken at a corner, and a quotient has corners as soon as the divisor range holds anything but
zero. -/
namespace StraightLine.Interval

structure Exact (a : Interval) (values : Set Int) : Prop where
  low : IsLeast values a.low
  high : IsGreatest values a.high

def results (op : Operation) (a b : Interval) : Set Int :=
  {v | ∃ n ∈ a, ∃ k ∈ b, op.eval n k = .ok v}

theorem exactOf {a : Interval} {values : Set Int} (low : a.low ∈ values) (high : a.high ∈ values)
    (inside : ∀ v ∈ values, v ∈ a) : a.Exact values :=
  ⟨⟨low, fun v mem => (inside v mem).1⟩, ⟨high, fun v mem => (inside v mem).2⟩⟩

theorem exactUnique {a b : Interval} {values : Set Int} (left : a.Exact values)
    (right : b.Exact values) : a = b :=
  sameBounds (left.low.unique right.low) (left.high.unique right.high)

theorem exactHull {n : Int} {ks : List Int} {values : Set Int}
    (corners : ∀ c ∈ n :: ks, c ∈ values) (inside : ∀ v ∈ values, v ∈ hull n ks) :
    (hull n ks).Exact values := by
  obtain ⟨low, high⟩ := hullBoundsListed n ks
  exact exactOf (corners _ low) (corners _ high) inside

theorem addExact (a b : Interval) : (a.add b).Exact (results .add a b) := by
  refine exactOf ⟨_, a.lowMember, _, b.lowMember, rfl⟩ ⟨_, a.highMember, _, b.highMember, rfl⟩ ?_
  rintro v ⟨n, left, k, right, value⟩
  cases value
  exact memAdd left right

theorem multiplyExact (a b : Interval) : (a.multiply b).Exact (results .mul a b) := by
  refine exactHull ?_ ?_
  · intro c corner
    simp only [List.mem_cons, List.not_mem_nil, or_false] at corner
    rcases corner with rfl | rfl | rfl | rfl
    · exact ⟨_, a.lowMember, _, b.lowMember, rfl⟩
    · exact ⟨_, a.lowMember, _, b.highMember, rfl⟩
    · exact ⟨_, a.highMember, _, b.lowMember, rfl⟩
    · exact ⟨_, a.highMember, _, b.highMember, rfl⟩
  · rintro v ⟨n, left, k, right, value⟩
    cases value
    exact memMultiply left right

theorem quotientValue {n k v : Int} :
    Operation.div.eval n k = .ok v ↔ k ≠ 0 ∧ n.tdiv k = v := by
  by_cases zero : k = 0 <;> simp [Operation.eval, quotient, zero]

theorem signedPartInside {b part : Interval} (listed : part ∈ b.signedParts) :
    part.low ∈ b ∧ part.high ∈ b := by
  have ordered := b.ordered
  rw [memBounds, memBounds]
  rcases List.mem_append.mp listed with negative | positive
  · unfold negativePart? at negative
    split at negative
    · cases List.mem_singleton.mp negative
      dsimp only
      omega
    · cases negative
  · unfold positivePart? at positive
    split at positive
    · cases List.mem_singleton.mp positive
      dsimp only
      omega
    · cases positive

theorem nonzeroMember {b : Interval} (other : b ≠ zero) : ∃ k ∈ b, k ≠ 0 := by
  by_cases low : b.low = 0
  · refine ⟨b.high, b.highMember, fun high => other (sameBounds low high)⟩
  · exact ⟨b.low, b.lowMember, low⟩

theorem cornerQuotient {a b : Interval} {c : Int}
    (corner : c ∈ b.signedParts.flatMap a.cornerQuotients) : c ∈ results .div a b := by
  obtain ⟨part, signed, listed⟩ := List.mem_flatMap.mp corner
  obtain ⟨lowNonzero, highNonzero⟩ := signedPartNonzero signed
  obtain ⟨lowInside, highInside⟩ := signedPartInside signed
  simp only [cornerQuotients, List.mem_cons, List.not_mem_nil, or_false] at listed
  rcases listed with rfl | rfl | rfl | rfl
  · exact ⟨_, a.lowMember, _, lowInside, quotientValue.mpr ⟨lowNonzero, rfl⟩⟩
  · exact ⟨_, a.lowMember, _, highInside, quotientValue.mpr ⟨highNonzero, rfl⟩⟩
  · exact ⟨_, a.highMember, _, lowInside, quotientValue.mpr ⟨lowNonzero, rfl⟩⟩
  · exact ⟨_, a.highMember, _, highInside, quotientValue.mpr ⟨highNonzero, rfl⟩⟩

theorem divideExact (a : Interval) {b : Interval} (other : b ≠ zero) :
    (a.divide b).Exact (results .div a b) := by
  have inside : ∀ v ∈ results .div a b, v ∈ a.divide b := by
    rintro v ⟨n, left, k, right, value⟩
    obtain ⟨nonzero, rfl⟩ := quotientValue.mp value
    exact memDivide left right nonzero
  obtain ⟨k, member, nonzero⟩ := nonzeroMember other
  obtain ⟨part, signed, _⟩ := memSignedPart member nonzero
  have corner : a.low.tdiv part.low ∈ b.signedParts.flatMap a.cornerQuotients :=
    List.mem_flatMap.mpr ⟨part, signed, List.mem_cons_self⟩
  have corners := fun c => cornerQuotient (a := a) (b := b) (c := c)
  unfold divide at inside ⊢
  generalize b.signedParts.flatMap a.cornerQuotients = values at *
  cases values with
  | nil => cases corner
  | cons n ks => exact exactHull corners inside

theorem boundsExact (a b : Interval) :
    (a.add b).Exact (results .add a b) ∧ (a.multiply b).Exact (results .mul a b) ∧
      (b ≠ zero → (a.divide b).Exact (results .div a b)) :=
  ⟨addExact a b, multiplyExact a b, divideExact a⟩

theorem boundsExactStraddling :
    let a : Interval := ⟨-7, 5, by decide⟩
    let b : Interval := ⟨-2, 3, by decide⟩
    (a.add b = ⟨-9, 8, by decide⟩ ∧ a.multiply b = ⟨-21, 15, by decide⟩ ∧
      a.divide b = ⟨-7, 7, by decide⟩) ∧ b ≠ zero ∧
      IsLeast (results .div a b) (-7) ∧ IsGreatest (results .div a b) 7 := by
  intro a b
  have other : b ≠ zero := by decide
  have quotients := (boundsExact a b).2.2 other
  exact ⟨by decide +kernel, other, quotients.low, quotients.high⟩

end StraightLine.Interval
