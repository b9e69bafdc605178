import StraightLine.Search.Progress
import StraightLine.Search.Target

/-! Depth-first search for a digit sequence. At each position the segment runs on the registers
that the accepted digits before it have left, and a predicate accepts or rejects the digit. An
accepted digit is kept as long as some continuation of it succeeds. -/
namespace StraightLine

/-- What a predicate may raise. It can be of the kinds that end an iteration or an exhausted search,
or any other error. -/
inductive PredicateError (ε : Type)
  | iterationEnd (text : String)
  | exhausted (text : String)
  | other (reason : ε)
  deriving DecidableEq, Repr

def PredicateError.kind {ε : Type} (sort : ε → ErrorKind) : PredicateError ε → ErrorKind
  | .iterationEnd _ => .iterationEnd
  | .exhausted _ => .searchExhausted
  | .other reason => sort reason

def PredicateError.message {ε : Type} (describe : ε → String) : PredicateError ε → String
  | .iterationEnd text => text
  | .exhausted text => text
  | .other reason => describe reason

abbrev Predicate (ε : Type) := Nat → Registers → Except (PredicateError ε) Bool

inductive SearchError (ε : Type)
  | noSegments
  | noWorkers
  | exhausted (length evaluations : Nat)
  | crashed (fault : Fault)
  | interrupted
  | predicateExhausted (text : String)
  | predicate (reason : ε)
  deriving DecidableEq, Repr

namespace SearchError
variable {ε : Type}

/-- Candidates come from a generator, and the end of an iteration does not get out of one: it is an
error of its own there. -/
def ofPredicate : PredicateError ε → SearchError ε
  | .iterationEnd _ => .interrupted
  | .exhausted text => .predicateExhausted text
  | .other reason => .predicate reason

def kind (sort : ε → ErrorKind) : SearchError ε → ErrorKind
  | .noSegments => .malformedProgram
  | .noWorkers => .invalidValue
  | .exhausted _ _ => .searchExhausted
  | .crashed fault => fault.kind
  | .interrupted => .runtime
  | .predicateExhausted _ => .searchExhausted
  | .predicate reason => sort reason

def message (describe : ε → String) : SearchError ε → Except Text.Overlong String
  | .noSegments => .ok "nothing to search: program has no input reads"
  | .noWorkers => .ok "max_workers must be greater than 0"
  | .exhausted length evaluations =>
    .ok s!"no {length}-digit input is accepted (after {evaluations} segment runs)"
  | .crashed fault => fault.message
  | .interrupted => .ok "generator raised StopIteration"
  | .predicateExhausted text => .ok text
  | .predicate reason => .ok (describe reason)

end SearchError

structure Candidate where
  digit : Int
  registers : Registers
  accepted : Bool
  deriving DecidableEq, Repr

structure Answer where
  digits : List Int
  registers : Registers
  deriving DecidableEq, Repr

structure Found where
  answer : Answer
  evaluations : Nat
  deriving DecidableEq, Repr

def Answer.numeral (a : Answer) : Except Text.Overlong String := do
  return String.join (← a.digits.mapM Text.Numeral.render)

namespace Search
variable {ε : Type}

def attempt (accept : Predicate ε) (position : Nat) (before : Registers) (segment : Segment)
    (digit : Int) : Progress (SearchError ε) Candidate :=
  match execute segment.instructions [digit] before with
  | .error crash => .stopped (.crashed crash.fault)
  | .ok after =>
    match accept position after with
    | .error reason => .stopped (.ofPredicate reason)
    | .ok accepted => ⟨[⟨position, after, accepted⟩], .ok ⟨digit, after, accepted⟩⟩

def explore (accept : Predicate ε) (order : DigitOrder) (schedule : Schedule) :
    Nat → Registers → List Segment → Progress (SearchError ε) (Option Answer)
  | _, registers, [] => pure (some ⟨[], registers⟩)
  | position, registers, segment :: rest =>
    let enter (c : Candidate) : Progress (SearchError ε) (Option Answer) :=
      if c.accepted then do
        let below ← explore accept order schedule (position + 1) c.registers rest
        return below.map (fun a => { a with digits := c.digit :: a.digits })
      else pure none
    match schedule with
    | .sequential =>
      order.digits.findSomeM? (fun d => attempt accept position registers segment d >>= enter)
    | .parallel _ => do
      let candidates ← order.digits.mapM (attempt accept position registers segment)
      candidates.findSomeM? enter

end Search

def Schedule.isRunnable : Schedule → Bool
  | .sequential => true
  | .parallel none => true
  | .parallel (some workers) => 0 < workers

/-- The first accepted digit sequence in the planned order; each digit tried is one evaluation.
Without a predicate of its own the search takes the one for the planned target. -/
def search {ε : Type} (plan : SearchPlan) (custom : Option (Predicate ε))
    (segments : List Segment) : Progress (SearchError ε) Found :=
  if segments.isEmpty then .stopped .noSegments
  else if !plan.schedule.isRunnable then .stopped .noWorkers
  else
    let accept := custom.getD (fun position registers =>
      .ok (plan.reaches segments position registers))
    let searched := Search.explore accept plan.order plan.schedule 0 Registers.zero segments
    let evaluations := searched.trials.length
    match searched.result with
    | .error e => ⟨searched.trials, .error e⟩
    | .ok none => ⟨searched.trials, .error (.exhausted segments.length evaluations)⟩
    | .ok (some answer) => ⟨searched.trials, .ok ⟨answer, evaluations⟩⟩

end StraightLine
