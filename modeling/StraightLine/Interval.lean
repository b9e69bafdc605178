import StraightLine.Text.Numeral

/-! Closed non-empty integer intervals and their arithmetic. Sums, products and quotients take
their bounds at the corners of the operands. A divisor range is first cut into its negative
and its positive part; a divisor of exactly zero leaves the dividend alone, because no
execution gets past it. -/
namespace StraightLine

structure Interval where
  low : Int
  high : Int
  ordered : low ≤ high
  deriving DecidableEq, Repr

structure EmptyInterval where
  low : Int
  high : Int
  deriving DecidableEq, Repr

def EmptyInterval.message (e : EmptyInterval) : Except Text.Overlong String := do
  let low ← Text.Numeral.render e.low
  let high ← Text.Numeral.render e.high
  return "empty interval [" ++ low ++ ", " ++ high ++ "]"

namespace Interval

instance : Membership Int Interval := ⟨fun a n => a.low ≤ n ∧ n ≤ a.high⟩
instance (a : Interval) (n : Int) : Decidable (n ∈ a) :=
  inferInstanceAs (Decidable (a.low ≤ n ∧ n ≤ a.high))

theorem memBounds {a : Interval} {n : Int} : n ∈ a ↔ a.low ≤ n ∧ n ≤ a.high := Iff.rfl

theorem lowMember (a : Interval) : a.low ∈ a := ⟨Int.le_refl _, a.ordered⟩

theorem highMember (a : Interval) : a.high ∈ a := ⟨a.ordered, Int.le_refl _⟩

theorem sameBounds {a b : Interval} (low : a.low = b.low) (high : a.high = b.high) : a = b := by
  cases a
  cases b
  cases low
  cases high
  rfl

def ofBounds (low high : Int) : Except EmptyInterval Interval :=
  if ordered : low ≤ high then .ok ⟨low, high, ordered⟩ else .error ⟨low, high⟩

def point (n : Int) : Interval := ⟨n, n, Int.le_refl n⟩
def zero : Interval := point 0
def digit : Interval := ⟨1, 9, by decide⟩
def truth : Interval := ⟨0, 1, by decide⟩

def isPoint (a : Interval) : Bool := a.low = a.high
def liesWithin (a : Interval) (low high : Int) : Bool := low ≤ a.low ∧ a.high ≤ high
def isDisjoint (a b : Interval) : Bool := a.high < b.low ∨ b.high < a.low

theorem memPoint {n k : Int} : k ∈ point n ↔ k = n := by
  rw [memBounds]
  simp only [point]
  omega

theorem disjointApart {a b : Interval} {n k : Int} (apart : a.isDisjoint b = true)
    (inside : n ∈ a) (other : k ∈ b) : n ≠ k := by
  simp only [isDisjoint, decide_eq_true_eq] at apart
  rw [memBounds] at inside other
  omega

theorem selfMeets (a : Interval) : ¬ a.isDisjoint a = true :=
  fun apart => disjointApart apart a.lowMember a.lowMember rfl

def render (a : Interval) : Except Text.Overlong String := do
  let low ← Text.Numeral.render a.low
  let high ← Text.Numeral.render a.high
  return "[" ++ low ++ ", " ++ high ++ "]"

def hull (n : Int) : List Int → Interval
  | [] => point n
  | k :: ks =>
    let rest := hull k ks
    ⟨min n rest.low, max n rest.high, by have := rest.ordered; omega⟩

theorem memHull {n : Int} {ks : List Int} {k : Int} (listed : k ∈ n :: ks) : k ∈ hull n ks := by
  induction ks generalizing n with
  | nil => simpa [hull, memPoint] using listed
  | cons m ms ih =>
    rw [memBounds]
    simp only [hull]
    have first := (hull m ms).ordered
    rcases List.mem_cons.mp listed with same | later
    · omega
    · have bounds := memBounds.mp (ih later)
      omega

theorem hullBoundsListed (n : Int) (ks : List Int) :
    (hull n ks).low ∈ n :: ks ∧ (hull n ks).high ∈ n :: ks := by
  induction ks generalizing n with
  | nil => simp [hull, point]
  | cons m ms ih =>
    have rest := ih m
    simp only [hull]
    constructor
    · rcases Int.le_total n (hull m ms).low with first | later
      · simp [Int.min_eq_left first]
      · rw [Int.min_eq_right later]; exact List.mem_cons_of_mem n rest.1
    · rcases Int.le_total n (hull m ms).high with later | first
      · rw [Int.max_eq_right later]; exact List.mem_cons_of_mem n rest.2
      · simp [Int.max_eq_left first]

def add (a b : Interval) : Interval :=
  ⟨a.low + b.low, a.high + b.high, by have := a.ordered; have := b.ordered; omega⟩

def multiply (a b : Interval) : Interval :=
  hull (a.low * b.low) [a.low * b.high, a.high * b.low, a.high * b.high]

def negativePart? (a : Interval) : Option Interval :=
  if below : a.low ≤ -1 then
    some ⟨a.low, min a.high (-1), by have := a.ordered; omega⟩
  else none

def positivePart? (a : Interval) : Option Interval :=
  if above : 1 ≤ a.high then
    some ⟨max a.low 1, a.high, by have := a.ordered; omega⟩
  else none

def signedParts (a : Interval) : List Interval :=
  a.negativePart?.toList ++ a.positivePart?.toList

def cornerQuotients (a part : Interval) : List Int :=
  [a.low.tdiv part.low, a.low.tdiv part.high, a.high.tdiv part.low, a.high.tdiv part.high]

def divide (a b : Interval) : Interval :=
  match b.signedParts.flatMap a.cornerQuotients with
  | [] => a
  | n :: ks => hull n ks

/-- The largest magnitude of a remainder, or -1 when the divisor can only be zero. -/
def remainderBound (b : Interval) : Int := max b.low.natAbs b.high.natAbs - 1

def modulo (a b : Interval) : Interval :=
  let bound := b.remainderBound
  if zero : bound < 0 then a
  else
    ⟨if 0 ≤ a.low then 0 else max a.low (-bound),
      if a.high ≤ 0 then 0 else min a.high bound,
      by have := a.ordered; split <;> split <;> omega⟩

end Interval
end StraightLine
