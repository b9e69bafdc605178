import StraightLine.Text.Quoted

/-! The digits 1 to 9 in the order of a search: descending finds the greatest accepted numeral
first, ascending the least. -/
namespace StraightLine

inductive DigitOrder
  | descending
  | ascending
  deriving DecidableEq, Repr

structure UnknownOrder where
  name : String
  deriving DecidableEq, Repr

def UnknownOrder.message (e : UnknownOrder) : String :=
  Text.Quoted.render e.name.toList ++ " is not a valid DigitOrder"

namespace DigitOrder

def name : DigitOrder → String
  | .descending => "descending"
  | .ascending => "ascending"

def ofName (name : String) : Except UnknownOrder DigitOrder :=
  if name = "descending" then .ok .descending
  else if name = "ascending" then .ok .ascending
  else .error ⟨name⟩

def digits : DigitOrder → List Int
  | .descending => [9, 8, 7, 6, 5, 4, 3, 2, 1]
  | .ascending => [1, 2, 3, 4, 5, 6, 7, 8, 9]

theorem digitRange (order : DigitOrder) (d : Int) : d ∈ order.digits ↔ 1 ≤ d ∧ d ≤ 9 := by
  cases order <;> simp only [digits, List.mem_cons, List.not_mem_nil, or_false] <;> omega

theorem digitsReversed : DigitOrder.ascending.digits = DigitOrder.descending.digits.reverse := rfl

end DigitOrder
end StraightLine
