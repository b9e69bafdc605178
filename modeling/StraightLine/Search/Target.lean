import StraightLine.Search.Plan
import StraightLine.Segment

/-! The standard predicate. At the last position the output register must hold the target. Before
that, a pruning search asks whether the ranges of what is left to run, started from the exact
registers, still leave room for the target. -/
namespace StraightLine

namespace Segment

def remaining (segments : List Segment) (position : Nat) : List Instruction :=
  (segments.drop (position + 1)).flatMap Segment.instructions

end Segment

def SearchPlan.reaches (plan : SearchPlan) (segments : List Segment) (position : Nat)
    (registers : Registers) : Bool :=
  if position + 1 = segments.length then registers.get plan.output = plan.target
  else if plan.prune then
    let exit := ((Ranges.exactly registers).scan (Segment.remaining segments position)).2
    plan.target ∈ exit.get plan.output
  else true

end StraightLine
