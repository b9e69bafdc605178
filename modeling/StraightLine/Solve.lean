import StraightLine.Report
import StraightLine.Search
import StraightLine.Source

/-! Solving: a program is checked, optimized, cut into segments and searched, and the sizes of the
stages go into the statistics. -/
namespace StraightLine

inductive CountError
  | differs (reads : Nat) (requested : Int)
  | overlong
  deriving DecidableEq, Repr

namespace CountError

def kind : CountError → ErrorKind
  | .differs _ _ => .exhaustedInput
  | .overlong => .invalidValue

def message : CountError → Except Text.Overlong String
  | .differs reads requested => do
    let asked ← Text.Numeral.render requested
    return s!"program reads {reads} digit(s) but {asked} were requested"
  | .overlong => .ok (Text.Overlong.message {})

def raised (e : CountError) : CountError := StraightLine.raised message .overlong e

theorem differsRaised (reads : Nat) (requested : Int) :
    (differs reads requested).raised =
      if Text.Numeral.isWritable requested then .differs reads requested else .overlong :=
  raisedIf rfl

end CountError

inductive SolveError (ε : Type)
  | opening (e : Program.OpeningError)
  | digitCount (e : CountError)
  | unstable (e : Unstable)
  | segments (e : NoOpeningRead)
  | search (e : SearchError ε)
  deriving DecidableEq, Repr

namespace SolveError
variable {ε : Type}

def kind (sort : ε → ErrorKind) : SolveError ε → ErrorKind
  | .opening e => e.kind
  | .digitCount e => e.kind
  | .unstable e => e.kind
  | .segments e => e.kind
  | .search e => e.kind sort

def message (describe : ε → String) : SolveError ε → Except Text.Overlong String
  | .opening e => e.message
  | .digitCount e => e.message
  | .unstable e => e.message
  | .segments e => .ok e.message
  | .search e => e.message describe

end SolveError

structure Solution where
  answer : Answer
  statistics : Statistics
  deriving DecidableEq, Repr

namespace Program
variable {ε : Type}

/-- The first accepted input of the given length; the order stands in for the planned one. -/
def solve (order : DigitOrder) (plan : SearchPlan) (custom : Option (Predicate ε))
    (digitCount : Int) (p : Program) : Except (SolveError ε) Solution := do
  p.validate.mapError .opening
  if p.inputCount ≠ digitCount then
    .error (.digitCount (CountError.differs p.inputCount digitCount).raised)
  let stable ← (p.stabilize plan.output plan.maxRounds).mapError .unstable
  let segments ← stable.program.segments.mapError .segments
  let found ← (search { plan with order } custom segments).result.mapError .search
  return {
    answer := found.answer
    statistics := {
      digitCount
      order := order.name
      rawCount := p.length
      optimizedCount := stable.program.length
      rounds := stable.rounds
      segmentCount := segments.length
      evaluations := found.evaluations } }

end Program
end StraightLine
