import StraightLine.Proofs.Fixpoint.Convergence
import StraightLine.Proofs.Search.Report
import StraightLine.Proofs.Solve.Checked
import StraightLine.Proofs.Solve.Stages
import StraightLine.Proofs.Text.Numeral

/-! How solving fails. The checks in front decide whether a program is malformed and whether its
reads match the digits asked for; with three rounds or more and workers to run on, all that can
still go wrong after them is that no digits lead to the target or that a run divides by zero. An
error whose message would show too long a number is an invalid value instead. -/
namespace StraightLine

def IntervalFault.kind : IntervalFault → ErrorKind
  | .empty _ => .invalidValue
  | .noValues => .invalidValue
  | .corner fault => fault.kind

def SolveFailure.kind : SolveFailure → ErrorKind
  | .stage e => e.kind IntervalFault.kind
  | .analysis fault => fault.kind

def Raises (outcome : Except SolveFailure Solution) (kind : ErrorKind) : Prop :=
  ∃ e, outcome = .error e ∧ e.kind = kind

theorem raisesOnce {outcome : Except SolveFailure Solution} {kind other : ErrorKind}
    (raises : Raises outcome kind) (raisesToo : Raises outcome other) : kind = other := by
  obtain ⟨e, rfl, rfl⟩ := raises
  obtain ⟨_, same, rfl⟩ := raisesToo
  cases same
  rfl

theorem raisesUnless {outcome : Except SolveFailure Solution} {kind other : ErrorKind}
    {written : Bool} (raises : Raises outcome (if written then kind else .invalidValue))
    (raisesToo : Raises outcome other) (valid : other ≠ .invalidValue) :
    written = true ∧ kind = other := by
  have same := raisesOnce raises raisesToo
  cases written with
  | true => exact ⟨rfl, same⟩
  | false => exact absurd same.symm valid

namespace Search
variable {ε : Type} {plan : SearchPlan} {segments : List Segment}

theorem standardFails {e : SearchError ε} (slices : ∀ s ∈ segments, Slice s.instructions)
    (failed : (explored plan (none : Option (Predicate ε)) segments).result = .error e) :
    ∃ registers i fault, e = .crashed fault ∧ Machine.DividesByZero registers i fault := by
  refine exploreErrors (P := fun e => ∃ registers i fault, e = .crashed fault ∧
    Machine.DividesByZero registers i fault) ?_ failed
  intro s mem position before d raised attempted
  rcases attemptError attempted with ⟨crash, crashed, rfl⟩ | ⟨after, reason, _, asked, _⟩
  · obtain ⟨i, _, divides⟩ := sliceFault (slices s mem) crashed
    exact ⟨crash.registers, i, crash.fault, rfl, divides⟩
  · cases asked

inductive Ends (length : Nat) : Except (SearchError ε) Found → Prop
  | found {found : Found} (count : found.answer.digits.length = length)
      (digits : ∀ d ∈ found.answer.digits, d ∈ Interval.digit) : Ends length (.ok found)
  | exhausted (evaluations) : Ends length (.error (.exhausted length evaluations))
  | crashed {registers i fault} (divides : Machine.DividesByZero registers i fault) :
      Ends length (.error (.crashed fault))

theorem searchEnds (nonempty : segments ≠ []) (slices : ∀ s ∈ segments, Slice s.instructions)
    (runnable : plan.schedule.isRunnable = true) :
    Ends segments.length (search plan (none : Option (Predicate ε)) segments).result := by
  rw [searchReports nonempty runnable]
  cases done : (explored plan (none : Option (Predicate ε)) segments).result with
  | error e =>
    obtain ⟨registers, i, fault, rfl, divides⟩ := standardFails slices done
    exact .crashed divides
  | ok choice =>
    cases choice with
    | none => exact .exhausted _
    | some answer =>
      have passes := explorePasses done
      exact .found (passesLength passes) (passesDigits passes)

end Search

namespace Program
variable {order : DigitOrder} {plan : SearchPlan} {digitCount : Int} {p : Program}

theorem refusedKind {e : OpeningError} (invalid : p.validate = .error e) :
    e.kind = (if isWritable (p.take 1) then .malformedProgram else .invalidValue) ∧
      Tells e.kind e.message := by
  cases p with
  | nil =>
    cases invalid
    exact ⟨rfl, _, rfl, nofun⟩
  | cons i rest =>
    have alone : isWritable ((i :: rest).take 1) = i.isWritable := Bool.and_true _
    rw [alone]
    cases i with
    | read dst => cases invalid
    | update op dst src =>
      cases invalid
      refine ⟨?_, raisedTells OpeningError.kind nofun rfl⟩
      rw [OpeningError.notReadRaised]
      split <;> rfl

theorem miscountedKind (reads : Nat) (requested : Int) :
    let e := (CountError.differs reads requested).raised
    e.kind = (if Text.Numeral.isWritable requested then .exhaustedInput else .invalidValue) ∧
      Tells e.kind e.message := by
  refine ⟨?_, raisedTells CountError.kind nofun rfl⟩
  rw [CountError.differsRaised]
  split <;> rfl

/- A solution as it must be: a digit for each read, a segment for each digit, and no more
instructions than were submitted. -/
structure Answered (digitCount : Int) (solution : Solution) : Prop where
  length : (solution.answer.digits.length : Int) = digitCount
  digits : ∀ d ∈ solution.answer.digits, 1 ≤ d ∧ d ≤ 9
  segments : solution.statistics.segmentCount = digitCount
  shorter : solution.statistics.optimizedCount ≤ solution.statistics.rawCount

inductive Concludes {ε : Type} (p : Program) (digitCount : Int) :
    Except (SolveError ε) Solution → Prop
  | unopened {e} (invalid : p.validate = .error e) :
      Concludes p digitCount (.error (.opening e))
  | miscounted (valid : p.validate = .ok ()) (differs : (p.inputCount : Int) ≠ digitCount) :
      Concludes p digitCount
        (.error (.digitCount (CountError.differs p.inputCount digitCount).raised))
  | answered {solution} (valid : p.validate = .ok ()) (count : (p.inputCount : Int) = digitCount)
      (answered : Answered digitCount solution) : Concludes p digitCount (.ok solution)
  | exhausted (valid : p.validate = .ok ()) (count : (p.inputCount : Int) = digitCount)
      (length evaluations) :
      Concludes p digitCount (.error (.search (.exhausted length evaluations)))
  | crashed {registers i fault} (valid : p.validate = .ok ())
      (count : (p.inputCount : Int) = digitCount)
      (divides : Machine.DividesByZero registers i fault) :
      Concludes p digitCount (.error (.search (.crashed fault)))

theorem solveConcludes (order : DigitOrder) (digitCount : Int) (p : Program)
    (enough : 3 ≤ plan.maxRounds) (runnable : plan.schedule.isRunnable = true) :
    Concludes p digitCount
      (p.solve order plan (none : Option (Predicate IntervalFault)) digitCount) := by
  cases valid : p.validate with
  | error e =>
    rw [solveUnopened valid]
    exact .unopened valid
  | ok checked =>
    by_cases count : (p.inputCount : Int) = digitCount
    · subst count
      obtain ⟨s, stable, _⟩ := stabilizeWithinThree plan.output p enough
      obtain ⟨segments, cut, _, count, nonempty, slices⟩ := stableSegments valid stable
      have ends : Search.Ends (ε := IntervalFault) segments.length
          (search { plan with order } none segments).result :=
        Search.searchEnds nonempty slices runnable
      rw [solveStages order valid stable cut]
      generalize (search { plan with order } none segments).result = result at ends
      cases ends with
      | found length digits =>
        refine .answered valid rfl ?_
        exact
          { length := congrArg Int.ofNat (length.trans count)
            digits := digits
            segments := congrArg Int.ofNat count
            shorter := Int.ofNat_le.mpr (stableShorter stable) }
      | exhausted evaluations => exact .exhausted valid rfl _ evaluations
      | crashed divides => exact .crashed valid rfl divides
    · rw [solveMiscounted valid count]
      exact .miscounted valid count

section
variable {result : Except (SolveError IntervalFault) Solution}
  (concludes : Concludes p digitCount result)
include concludes

theorem concludesUnopened (invalid : p.validate ≠ .ok ()) :
    Raises (result.mapError .stage)
      (if isWritable (p.take 1) then .malformedProgram else .invalidValue) := by
  cases concludes with
  | unopened refused => exact ⟨_, rfl, (refusedKind refused).1⟩
  | miscounted valid _ => exact absurd valid invalid
  | answered valid _ _ => exact absurd valid invalid
  | exhausted valid _ _ _ => exact absurd valid invalid
  | crashed valid _ _ => exact absurd valid invalid

theorem concludesMiscounted (valid : p.validate = .ok ())
    (differs : (p.inputCount : Int) ≠ digitCount) :
    Raises (result.mapError .stage)
      (if Text.Numeral.isWritable digitCount then .exhaustedInput else .invalidValue) := by
  cases concludes with
  | unopened refused => cases valid.symm.trans refused
  | miscounted _ _ => exact ⟨_, rfl, (miscountedKind _ _).1⟩
  | answered _ count _ => exact absurd count differs
  | exhausted _ count _ _ => exact absurd count differs
  | crashed _ count _ => exact absurd count differs

theorem concludesSearched (valid : p.validate = .ok ())
    (count : (p.inputCount : Int) = digitCount) :
    (∃ solution, result.mapError SolveFailure.stage = .ok solution ∧
      Answered digitCount solution) ∨
    Raises (result.mapError .stage) .searchExhausted ∨
    ∃ registers i fault, result.mapError SolveFailure.stage =
        .error (SolveFailure.stage (.search (.crashed fault))) ∧
      Machine.DividesByZero registers i fault ∧ Raises (result.mapError .stage)
        (if Text.Numeral.isWritable (registers.get i.dst) then .arithmetic
          else .invalidValue) := by
  cases concludes with
  | unopened refused => cases valid.symm.trans refused
  | miscounted _ differs => exact absurd count differs
  | answered _ _ answered => exact .inl ⟨_, rfl, answered⟩
  | exhausted _ _ length evaluations => exact .inr (.inl ⟨_, rfl, rfl⟩)
  | @crashed registers i fault _ _ divides =>
    exact .inr (.inr ⟨registers, i, fault, rfl, divides, _, rfl, Machine.dividesKind divides⟩)

theorem concludesKind (valid : p.validate = .ok ()) (count : (p.inputCount : Int) = digitCount)
    {kind : ErrorKind} (raises : Raises (result.mapError .stage) kind) :
    kind = .searchExhausted ∨ kind = .arithmetic ∨ kind = .invalidValue := by
  rcases concludesSearched concludes valid count with
    ⟨_, done, _⟩ | exhausted | ⟨_, _, _, _, _, divides⟩
  · obtain ⟨_, failed, _⟩ := raises
    cases done.symm.trans failed
  · exact .inl (raisesOnce raises exhausted)
  · have same := raisesOnce raises divides
    split at same
    · exact .inr (.inl same)
    · exact .inr (.inr same)

theorem concludesMalformed :
    Raises (result.mapError .stage) .malformedProgram ↔
      p.validate ≠ .ok () ∧ isWritable (p.take 1) = true := by
  constructor
  · intro raises
    by_cases valid : p.validate = .ok ()
    · by_cases count : (p.inputCount : Int) = digitCount
      · rcases concludesKind concludes valid count raises with same | same | same <;> cases same
      · cases (raisesUnless (concludesMiscounted concludes valid count) raises nofun).2
    · exact ⟨valid, (raisesUnless (concludesUnopened concludes valid) raises nofun).1⟩
  · intro refused
    have raises := concludesUnopened concludes refused.1
    rwa [if_pos refused.2] at raises

theorem concludesExhausted (valid : p.validate = .ok ()) :
    Raises (result.mapError .stage) .exhaustedInput ↔
      (p.inputCount : Int) ≠ digitCount ∧ Text.Numeral.isWritable digitCount = true := by
  constructor
  · intro raises
    by_cases count : (p.inputCount : Int) = digitCount
    · rcases concludesKind concludes valid count raises with same | same | same <;> cases same
    · exact ⟨count, (raisesUnless (concludesMiscounted concludes valid count) raises nofun).1⟩
  · intro refused
    have raises := concludesMiscounted concludes valid refused.1
    rwa [if_pos refused.2] at raises

theorem concludesTells {e : SolveError IntervalFault} (failed : result = .error e)
    (describe : IntervalFault → String) :
    Tells (e.kind IntervalFault.kind) (e.message describe) := by
  cases concludes with
  | unopened refused =>
    cases failed
    exact (refusedKind refused).2
  | miscounted _ _ =>
    cases failed
    exact (miscountedKind _ _).2
  | answered _ _ _ => cases failed
  | exhausted _ _ length evaluations =>
    cases failed
    exact ⟨_, rfl, nofun⟩
  | crashed _ _ divides =>
    cases failed
    exact Machine.dividesTells divides

end

end Program
end StraightLine
