import StraightLine.Arithmetic
import StraightLine.Interval

/-! Interval arithmetic with every check made. Bounds are compared when an interval is built, a hull
asks for a first value, and a corner quotient may meet a divisor of zero. None of the checks ever
fails, and the results are those of the arithmetic that carries the order of its bounds along. -/
namespace StraightLine

inductive IntervalFault
  | empty (bounds : EmptyInterval)
  | noValues
  | corner (fault : Fault)
  deriving DecidableEq, Repr

namespace Interval

def build (low high : Int) : Except IntervalFault Interval := (ofBounds low high).mapError .empty

def checkedHull (values : List Int) : Except IntervalFault Interval :=
  match values.min?, values.max? with
  | some low, some high => build low high
  | _, _ => .error .noValues

def checkedAdd (a b : Interval) : Except IntervalFault Interval :=
  build (a.low + b.low) (a.high + b.high)

def checkedMultiply (a b : Interval) : Except IntervalFault Interval :=
  checkedHull [a.low * b.low, a.low * b.high, a.high * b.low, a.high * b.high]

def checkedNegative (b : Interval) : Except IntervalFault (List Interval) :=
  if b.low ≤ -1 then (build b.low (min b.high (-1))).map List.singleton else .ok []

def checkedPositive (b : Interval) : Except IntervalFault (List Interval) :=
  if 1 ≤ b.high then (build (max b.low 1) b.high).map List.singleton else .ok []

def corners (a part : Interval) : List (Int × Int) :=
  [(a.low, part.low), (a.low, part.high), (a.high, part.low), (a.high, part.high)]

def checkedQuotients (corners : List (Int × Int)) : Except IntervalFault (List Int) :=
  corners.mapM fun c => (quotient c.1 c.2).mapError .corner

def checkedDivide (a b : Interval) : Except IntervalFault Interval := do
  let negative ← b.checkedNegative
  let positive ← b.checkedPositive
  let parts := negative ++ positive
  if parts.isEmpty then return a
  let values ← checkedQuotients (parts.flatMap a.corners)
  checkedHull values

def checkedModulo (a b : Interval) : Except IntervalFault Interval :=
  let bound := b.remainderBound
  if bound < 0 then .ok a
  else
    build (if 0 ≤ a.low then 0 else max a.low (-bound))
      (if a.high ≤ 0 then 0 else min a.high bound)

theorem buildOrdered {low high : Int} (ordered : low ≤ high) :
    build low high = .ok ⟨low, high, ordered⟩ := by
  rw [build, ofBounds, dif_pos ordered]
  rfl

theorem hullChecked (n : Int) (ks : List Int) : checkedHull (n :: ks) = .ok (hull n ks) := by
  obtain ⟨lowListed, highListed⟩ := hullBoundsListed n ks
  have least : (n :: ks).min? = some (hull n ks).low :=
    List.min?_eq_some_iff.mpr ⟨lowListed, fun _ listed => (memBounds.mp (memHull listed)).1⟩
  have greatest : (n :: ks).max? = some (hull n ks).high :=
    List.max?_eq_some_iff.mpr ⟨highListed, fun _ listed => (memBounds.mp (memHull listed)).2⟩
  simp only [checkedHull, least, greatest]
  exact buildOrdered (hull n ks).ordered

theorem addChecked (a b : Interval) : a.checkedAdd b = .ok (a.add b) :=
  buildOrdered (a.add b).ordered

theorem multiplyChecked (a b : Interval) : a.checkedMultiply b = .ok (a.multiply b) :=
  hullChecked _ _

theorem negativeChecked (b : Interval) : b.checkedNegative = .ok b.negativePart?.toList := by
  have ordered := b.ordered
  unfold checkedNegative negativePart?
  split
  · rename_i below
    rw [buildOrdered (by omega)]
    rfl
  · rfl

theorem positiveChecked (b : Interval) : b.checkedPositive = .ok b.positivePart?.toList := by
  have ordered := b.ordered
  unfold checkedPositive positivePart?
  split
  · rename_i above
    rw [buildOrdered (by omega)]
    rfl
  · rfl

theorem signedPartNonzero {b part : Interval} (listed : part ∈ b.signedParts) :
    part.low ≠ 0 ∧ part.high ≠ 0 := by
  have ordered := part.ordered
  rcases List.mem_append.mp listed with negative | positive
  · unfold negativePart? at negative
    split at negative
    · cases List.mem_singleton.mp negative
      dsimp only at ordered ⊢
      omega
    · cases negative
  · unfold positivePart? at positive
    split at positive
    · cases List.mem_singleton.mp positive
      dsimp only at ordered ⊢
      omega
    · cases positive

theorem quotientsChecked {cs : List (Int × Int)} (nonzero : ∀ c ∈ cs, c.2 ≠ 0) :
    checkedQuotients cs = .ok (cs.map fun c => c.1.tdiv c.2) := by
  induction cs with
  | nil => rfl
  | cons c rest ih =>
    have first : quotient c.1 c.2 = .ok (c.1.tdiv c.2) := if_neg (nonzero c (by simp))
    have others := ih fun d later => nonzero d (List.mem_cons_of_mem c later)
    rw [checkedQuotients] at others ⊢
    rw [List.mapM_cons, others, first]
    rfl

theorem cornerNonzero {a b : Interval} {c : Int × Int}
    (listed : c ∈ b.signedParts.flatMap a.corners) : c.2 ≠ 0 := by
  obtain ⟨part, signed, corner⟩ := List.mem_flatMap.mp listed
  obtain ⟨low, high⟩ := signedPartNonzero signed
  simp only [corners, List.mem_cons, List.not_mem_nil, or_false] at corner
  rcases corner with rfl | rfl | rfl | rfl
  · exact low
  · exact high
  · exact low
  · exact high

theorem divideChecked (a b : Interval) : a.checkedDivide b = .ok (a.divide b) := by
  have quotients := quotientsChecked fun _ => cornerNonzero (a := a) (b := b)
  rw [List.map_flatMap] at quotients
  change checkedQuotients _ = .ok (b.signedParts.flatMap a.cornerQuotients) at quotients
  have parts : a.checkedDivide b =
      if b.signedParts.isEmpty then .ok a
      else checkedQuotients (b.signedParts.flatMap a.corners) >>= checkedHull := by
    rw [checkedDivide, negativeChecked, positiveChecked]
    rfl
  rw [parts, quotients, divide]
  cases b.signedParts with
  | nil => rfl
  | cons part rest => exact hullChecked _ _

theorem moduloChecked (a b : Interval) : a.checkedModulo b = .ok (a.modulo b) := by
  unfold checkedModulo modulo
  by_cases zero : b.remainderBound < 0
  · rw [if_pos zero, dif_pos zero]
  · rw [if_neg zero, dif_neg zero]
    exact buildOrdered _

end Interval
end StraightLine
