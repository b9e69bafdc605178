import StraightLine.Proofs.Fixpoint.Thinning
import StraightLine.Proofs.Segment.Partition
import StraightLine.Solve

/-! Solving, stage by stage. A stage ends it with an error of its own or hands its result on to the
next one; an answer has gone through all of them, and the sizes on the way make up its
statistics. -/
namespace StraightLine.Program
variable {ε : Type} {order : DigitOrder} {plan : SearchPlan} {custom : Option (Predicate ε)}
  {digitCount : Int} {p : Program} {s : Stable} {segments : List Segment}

def statistics (p : Program) (order : DigitOrder) (s : Stable) (segments : List Segment)
    (found : Found) : Statistics where
  digitCount := p.inputCount
  order := order.name
  rawCount := p.length
  optimizedCount := s.program.length
  rounds := s.rounds
  segmentCount := segments.length
  evaluations := found.evaluations

theorem solveUnopened {e : OpeningError} (invalid : p.validate = .error e) :
    p.solve order plan custom digitCount = .error (.opening e) := by
  unfold solve
  rw [invalid]
  rfl

theorem solveMiscounted (valid : p.validate = .ok ())
    (differs : (p.inputCount : Int) ≠ digitCount) :
    p.solve order plan custom digitCount =
      .error (.digitCount (CountError.differs p.inputCount digitCount).raised) := by
  unfold solve
  rw [valid, if_pos differs]
  rfl

theorem solveUnstable {e : Unstable} (valid : p.validate = .ok ())
    (diverged : p.stabilize plan.output plan.maxRounds = .error e) :
    p.solve order plan custom p.inputCount = .error (.unstable e) := by
  unfold solve
  rw [valid, diverged, if_neg (fun differs => differs rfl)]
  rfl

theorem solveStages (order : DigitOrder) (valid : p.validate = .ok ())
    (stable : p.stabilize plan.output plan.maxRounds = .ok s)
    (cut : s.program.segments = .ok segments) :
    p.solve order plan custom p.inputCount =
      ((search { plan with order } custom segments).result.mapError .search).map
        fun found => ⟨found.answer, p.statistics order s segments found⟩ := by
  unfold solve
  rw [valid, stable, if_neg (fun differs => differs rfl)]
  change s.program.segments.mapError SolveError.segments >>= _ = _
  rw [cut]
  change (search { plan with order } custom segments).result.mapError SolveError.search >>= _ = _
  cases (search { plan with order } custom segments).result <;> rfl

theorem stableSegments (valid : p.validate = .ok ()) {output : Register} {maxRounds : Int}
    (stable : p.stabilize output maxRounds = .ok s) :
    ∃ segments, s.program.segments = .ok segments ∧
      segments.flatMap Segment.instructions = s.program ∧ segments.length = p.inputCount ∧
      segments ≠ [] ∧ ∀ slice ∈ segments, Slice slice.instructions := by
  obtain ⟨dst, rest, opening⟩ := validated.mp valid
  have opens : p.head? = some (.read dst) := opening ▸ rfl
  obtain ⟨segments, cut, _⟩ := segmentsPartition (stableOpens opens stable)
  obtain ⟨joined, count, nonempty, slices⟩ := segmentsCut cut
  exact ⟨segments, cut, joined, count.trans (stableInputCount stable), nonempty, slices⟩

structure Solved (p : Program) (order : DigitOrder) (plan : SearchPlan)
    (custom : Option (Predicate ε)) (digitCount : Int) (s : Stable) (segments : List Segment)
    (found : Found) : Prop where
  valid : p.validate = .ok ()
  count : (p.inputCount : Int) = digitCount
  stable : p.stabilize plan.output plan.maxRounds = .ok s
  cut : s.program.segments = .ok segments
  searched : (search { plan with order } custom segments).result = .ok found

theorem solved {solution : Solution} (done : p.solve order plan custom digitCount = .ok solution) :
    ∃ s segments found, p.Solved order plan custom digitCount s segments found ∧
      solution = ⟨found.answer, p.statistics order s segments found⟩ := by
  cases valid : p.validate with
  | error e =>
    rw [solveUnopened valid] at done
    cases done
  | ok checked =>
    by_cases count : (p.inputCount : Int) = digitCount
    · subst count
      cases stable : p.stabilize plan.output plan.maxRounds with
      | error e =>
        rw [solveUnstable valid stable] at done
        cases done
      | ok s =>
        obtain ⟨segments, cut, _⟩ := stableSegments valid stable
        rw [solveStages order valid stable cut] at done
        cases searched : (search { plan with order } custom segments).result with
        | error e =>
          rw [searched] at done
          cases done
        | ok found =>
          rw [searched] at done
          cases done
          exact ⟨s, segments, found, ⟨valid, rfl, stable, cut, searched⟩, rfl⟩
    · rw [solveMiscounted valid count] at done
      cases done

end StraightLine.Program
