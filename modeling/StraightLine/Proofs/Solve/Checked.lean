import StraightLine.Proofs.Fixpoint.Checked
import StraightLine.Solve

/-! Solving with every check of the interval arithmetic made, in the rounds and in the predicate of
the search. A fault of the arithmetic would end the solving beside the errors of its stages; none
ever does. -/
namespace StraightLine

inductive SolveFailure
  | stage (e : SolveError IntervalFault)
  | analysis (fault : IntervalFault)
  deriving DecidableEq, Repr

def SearchPlan.checkedReaches (plan : SearchPlan) (segments : List Segment) :
    Predicate IntervalFault := fun position registers =>
  if position + 1 = segments.length then
    .ok (decide (registers.get plan.output = plan.target))
  else if plan.prune then do
    let entry ← (Ranges.checkedExactly registers).mapError .other
    let (_, exit) ← (entry.checkedScan (Segment.remaining segments position)).mapError .other
    return plan.target ∈ exit.get plan.output
  else .ok true

theorem SearchPlan.reachesChecked (plan : SearchPlan) (segments : List Segment) (position : Nat)
    (registers : Registers) :
    plan.checkedReaches segments position registers =
      .ok (plan.reaches segments position registers) := by
  unfold checkedReaches reaches
  split
  · rfl
  split
  · rw [Ranges.exactlyChecked]
    change ((Ranges.exactly registers).checkedScan
      (Segment.remaining segments position)).mapError PredicateError.other >>= _ = _
    rw [Ranges.scanChecked]
    rfl
  · rfl

theorem searchChecked (plan : SearchPlan) (segments : List Segment) :
    search plan (some (plan.checkedReaches segments)) segments =
      search plan (none : Option (Predicate IntervalFault)) segments := by
  have same : plan.checkedReaches segments = fun position registers =>
      .ok (plan.reaches segments position registers) :=
    funext fun position => funext fun registers => plan.reachesChecked segments position registers
  rw [same]
  rfl

namespace Program

def checkedSolve (order : DigitOrder) (plan : SearchPlan) (digitCount : Int) (p : Program) :
    Except SolveFailure Solution := do
  p.validate.mapError fun e => .stage (.opening e)
  if p.inputCount ≠ digitCount then
    .error (.stage (.digitCount (CountError.differs p.inputCount digitCount).raised))
  let settled ← (p.checkedStabilize plan.output plan.maxRounds).mapError .analysis
  let stable ← settled.mapError fun e => .stage (.unstable e)
  let segments ← stable.program.segments.mapError fun e => .stage (.segments e)
  let planned := { plan with order }
  let found ← (search planned (some (planned.checkedReaches segments)) segments).result.mapError
    fun e => .stage (.search e)
  return {
    answer := found.answer
    statistics := {
      digitCount
      order := order.name
      rawCount := p.length
      optimizedCount := stable.program.length
      rounds := stable.rounds
      segmentCount := segments.length
      evaluations := found.evaluations } }

theorem solveChecked (order : DigitOrder) (plan : SearchPlan) (digitCount : Int) (p : Program) :
    p.checkedSolve order plan digitCount =
      (p.solve order plan none digitCount).mapError .stage := by
  unfold checkedSolve solve
  rw [stabilizeChecked]
  simp only [searchChecked]
  cases p.validate with
  | error e => rfl
  | ok valid =>
    by_cases differs : (p.inputCount : Int) ≠ digitCount
    · rw [if_pos differs, if_pos differs]
      rfl
    · rw [if_neg differs, if_neg differs]
      cases p.stabilize plan.output plan.maxRounds with
      | error e => rfl
      | ok stable =>
        change (stable.program.segments.mapError fun e => SolveFailure.stage (.segments e)) >>= _ =
          (stable.program.segments.mapError SolveError.segments >>= _).mapError _
        cases stable.program.segments with
        | error e => rfl
        | ok segments =>
          change ((search { plan with order } none segments).result.mapError fun e =>
              SolveFailure.stage (.search e)) >>= _ =
            ((search { plan with order } none segments).result.mapError SolveError.search >>=
              _).mapError _
          cases (search { plan with order } none segments).result <;> rfl

end Program
end StraightLine
