import StraightLine.Fixpoint
import StraightLine.Search.DigitOrder

/-! What a search is asked for and how it is to be done. -/
namespace StraightLine

/-- A sequential search tries a digit only when the ones before it have failed. A parallel search
tries all nine digits of a position before it goes deeper. -/
inductive Schedule
  | sequential
  | parallel (workers : Option Int)
  deriving DecidableEq, Repr

structure SearchPlan where
  order : DigitOrder
  output : Register
  target : Int
  prune : Bool
  schedule : Schedule
  maxRounds : Int
  deriving DecidableEq, Repr

namespace SearchPlan

def standard : SearchPlan where
  order := .descending
  output := .z
  target := 0
  prune := true
  schedule := .sequential
  maxRounds := Program.defaultMaxRounds

end SearchPlan
end StraightLine
