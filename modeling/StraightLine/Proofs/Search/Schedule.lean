import StraightLine.Proofs.Search.Expansion
import StraightLine.Proofs.Search.Report

/-! The two schedules against each other. A parallel search runs candidates that a sequential one
may never reach: it fails wherever the sequential one does, and wherever it completes, the
sequential one completes alike with no more trials, or with as many when nothing is found. A failure
of the predicate can look like an exhausted search, and then only one of the two may meet it. -/
namespace StraightLine.Search
variable {ε : Type} {accept : Predicate ε} {order : DigitOrder} {position : Nat}
  {before : Registers} {rest segments : List Segment}

theorem sequentialSpares (accept : Predicate ε) (order : DigitOrder) (workers : Option Int)
    (position : Nat) (before : Registers) (segments : List Segment) :
    Progress.Spares Eq (explore accept order .sequential position before segments)
      (explore accept order (.parallel workers) position before segments) := by
  induction segments generalizing position before with
  | nil =>
    rw [explore, explore]
    exact Progress.sparesFinished rfl
  | cons segment rest ih =>
    rw [exploreSequential, exploreParallel]
    exact Progress.sparesEager (fun c => enterSpares (ih (position + 1) c.registers)) order.digits

theorem enterExhausts {workers : Option Int} {c : Candidate}
    (below : Progress.Exhausts
      (explore accept order .sequential (position + 1) c.registers rest)
      (explore accept order (.parallel workers) (position + 1) c.registers rest)) :
    Progress.Exhausts (enter accept order .sequential position rest c)
      (enter accept order (.parallel workers) position rest c) := by
  unfold enter
  split
  · intro done
    obtain ⟨found, deeper, last⟩ := Progress.thenOk.mp done
    cases found with
    | some a => cases last
    | none =>
      obtain ⟨gone, same⟩ := below deeper
      refine ⟨(Progress.thenOfOk gone _).trans rfl, ?_⟩
      rw [Progress.trialsThen gone, Progress.trialsThen deeper, List.length_append,
        List.length_append, same]
  · exact fun done => ⟨done, rfl⟩

theorem sequentialExhausts (accept : Predicate ε) (order : DigitOrder) (workers : Option Int)
    (position : Nat) (before : Registers) (segments : List Segment) :
    Progress.Exhausts (explore accept order .sequential position before segments)
      (explore accept order (.parallel workers) position before segments) := by
  induction segments generalizing position before with
  | nil =>
    rw [explore, explore]
    exact fun done => ⟨done, rfl⟩
  | cons segment rest ih =>
    rw [exploreSequential, exploreParallel]
    exact Progress.exhaustsEager (fun c => enterExhausts (ih (position + 1) c.registers))
      order.digits

section
variable {plan : SearchPlan} {custom : Option (Predicate ε)} {workers : Option Int}

theorem foundAlike (nonempty : segments ≠ []) {found : Found}
    (done : (search { plan with schedule := .parallel workers } custom segments).result =
      .ok found) :
    ∃ n ≤ found.evaluations,
      (search { plan with schedule := .sequential } custom segments).result =
        .ok ⟨found.answer, n⟩ := by
  have spares : Progress.Spares Eq (explored { plan with schedule := .sequential } custom segments)
      (explored { plan with schedule := .parallel workers } custom segments) :=
    sequentialSpares _ _ _ _ _ _
  exact (searchSpares nonempty (fun _ => rfl) spares).1 found done

theorem foundExpansions (nonempty : segments ≠ [])
    (runnable : (Schedule.parallel workers).isRunnable = true) {found : Found}
    (done : (search { plan with schedule := .parallel workers } custom segments).result =
      .ok found) :
    ∃ expanded, ((exploreCounting (predicate plan segments custom) plan.order 0 Registers.zero
        segments).run 0).result = .ok (some found.answer, expanded) ∧
      found.evaluations = 9 * expanded := by
  rw [searchScheduled plan custom (.parallel workers) nonempty runnable] at done
  obtain ⟨deeper, count⟩ := reportFound.mp done
  obtain ⟨expanded, counted, total⟩ := exploreExpansions deeper
  exact ⟨expanded, counted, count.trans total⟩

theorem exhaustedAlike (nonempty : segments ≠ [])
    (runnable : (Schedule.parallel workers).isRunnable = true) (length evaluations : Nat) :
    (search { plan with schedule := .parallel workers } custom segments).result =
        .error (.exhausted length evaluations) ↔
      (search { plan with schedule := .sequential } custom segments).result =
        .error (.exhausted length evaluations) := by
  have exhausts := sequentialExhausts (predicate plan segments custom) plan.order workers 0
    Registers.zero segments
  rw [searchScheduled plan custom (.parallel workers) nonempty runnable,
    searchScheduled plan custom .sequential nonempty rfl,
    reportExhausted fun _ => exploreRaises, reportExhausted fun _ => exploreRaises]
  constructor
  · intro done
    obtain ⟨gone, rfl, rfl⟩ := done
    obtain ⟨_, same, rfl, _⟩ := sequentialSpares _ _ _ _ _ _ _ gone
    exact ⟨same, rfl, (exhausts same).2⟩
  · intro done
    obtain ⟨gone, rfl, rfl⟩ := done
    obtain ⟨same, count⟩ := exhausts gone
    exact ⟨same, rfl, count.symm⟩

theorem raisedAlike (nonempty : segments ≠ [])
    (runnable : (Schedule.parallel workers).isRunnable = true) {e : SearchError ε}
    (failed : (search { plan with schedule := .sequential } custom segments).result = .error e)
    (other : ∀ length evaluations, e ≠ .exhausted length evaluations) :
    ∃ raised, (search { plan with schedule := .parallel workers } custom segments).result =
      .error raised ∧ ∀ length evaluations, raised ≠ .exhausted length evaluations := by
  rw [searchScheduled plan custom .sequential nonempty rfl] at failed
  rw [searchScheduled plan custom (.parallel workers) nonempty runnable]
  have stopped := reportFails failed other
  cases done : (explore (predicate plan segments custom) plan.order (.parallel workers) 0
      Registers.zero segments).result with
  | ok found =>
    obtain ⟨_, same, _⟩ := sequentialSpares _ _ _ _ _ _ _ done
    rw [stopped] at same
    cases same
  | error raised =>
    refine ⟨raised, rfl, ?_⟩
    intro length evaluations same
    have own := exploreRaises done
    rw [same] at own
    cases own

theorem quietAlike (nonempty : segments ≠ [])
    (runnable : (Schedule.parallel workers).isRunnable = true)
    (quiet : Quiet (predicate plan segments custom) 0 Registers.zero segments) {found : Found}
    (done : (search { plan with schedule := .sequential } custom segments).result = .ok found) :
    ∃ n, (search { plan with schedule := .parallel workers } custom segments).result =
      .ok ⟨found.answer, n⟩ := by
  rw [searchScheduled plan custom .sequential nonempty rfl] at done
  rw [searchScheduled plan custom (.parallel workers) nonempty runnable]
  obtain ⟨deeper, _⟩ := reportFound.mp done
  obtain ⟨choice, same, _⟩ := exploreFirst plan.order (.parallel workers) quiet
  obtain ⟨_, again, rfl, _⟩ := sequentialSpares _ _ _ _ _ _ _ same
  rw [deeper] at again
  cases again
  exact ⟨_, reportAnswer same⟩

end

theorem searchSchedulesApart :
    let segments : List Segment := [⟨0, [.read .w]⟩]
    let accept : Predicate Empty := fun _ registers =>
      if registers.w = 9 then .ok true else .error (.exhausted "no more")
    (search SearchPlan.standard (some accept) segments).result = .ok ⟨⟨[9], ⟨9, 0, 0, 0⟩⟩, 1⟩ ∧
      ∃ e, (search { SearchPlan.standard with schedule := .parallel none } (some accept)
        segments).result = .error e ∧ e.kind Empty.elim = .searchExhausted :=
  ⟨rfl, .predicateExhausted "no more", rfl, rfl⟩

/- The last part asks that nothing raises at the digits tried after accepted ones, which is less
than at any digits at all. -/
theorem searchSchedules (plan : SearchPlan) (custom : Option (Predicate ε)) {workers : Option Int}
    {segments : List Segment} (nonempty : segments ≠ [])
    (runnable : (Schedule.parallel workers).isRunnable = true) :
    let accept := predicate plan segments custom
    let parallel := (search { plan with schedule := .parallel workers } custom segments).result
    let sequential := (search { plan with schedule := .sequential } custom segments).result
    (∀ found, parallel = .ok found →
      (∃ n ≤ found.evaluations, sequential = .ok ⟨found.answer, n⟩) ∧
      ∃ expanded, ((exploreCounting accept plan.order 0 Registers.zero segments).run 0).result =
        .ok (some found.answer, expanded) ∧ found.evaluations = 9 * expanded) ∧
    (∀ length evaluations, parallel = .error (.exhausted length evaluations) ↔
      sequential = .error (.exhausted length evaluations)) ∧
    (∀ e, sequential = .error e → (∀ length evaluations, e ≠ .exhausted length evaluations) →
      ∃ raised, parallel = .error raised ∧
        ∀ length evaluations, raised ≠ .exhausted length evaluations) ∧
    (Quiet accept 0 Registers.zero segments → ∀ found, sequential = .ok found →
      ∃ n, parallel = .ok ⟨found.answer, n⟩) :=
  ⟨fun _ done => ⟨foundAlike nonempty done, foundExpansions nonempty runnable done⟩,
    exhaustedAlike nonempty runnable, fun _ => raisedAlike nonempty runnable,
    fun quiet _ => quietAlike nonempty runnable quiet⟩

theorem searchSchedulesSigned :
    let segments : List Segment :=
      [⟨0, [.read .w, .update .add .z (.reg .w), .update .mul .z (.const (-1))]⟩,
        ⟨1, [.read .x, .update .add .z (.reg .x)]⟩]
    let plan : SearchPlan :=
      { SearchPlan.standard with order := .ascending, target := -1, prune := false }
    let accept : Predicate Empty := predicate plan segments none
    let answer : Answer := ⟨[2, 1], ⟨2, 1, 0, -1⟩⟩
    (search (ε := Empty) { plan with schedule := .parallel (some 2) } none segments).result =
        .ok ⟨answer, 27⟩ ∧
      (∃ n ≤ 27, (search (ε := Empty) { plan with schedule := .sequential } none segments).result =
        .ok ⟨answer, n⟩) ∧
      (∃ expanded, ((exploreCounting accept .ascending 0 Registers.zero segments).run 0).result =
        .ok (some answer, expanded) ∧ 27 = 9 * expanded) ∧
      Quiet accept 0 Registers.zero segments ∧
      ∃ n, (search (ε := Empty) { plan with schedule := .parallel (some 2) } none
        segments).result = .ok ⟨answer, n⟩ := by
  intro segments plan accept answer
  have done : (search (ε := Empty) { plan with schedule := .parallel (some 2) } none
      segments).result = .ok ⟨answer, 27⟩ := rfl
  have nonempty : segments ≠ [] := by simp [segments]
  have runnable : (Schedule.parallel (some 2)).isRunnable = true := rfl
  obtain ⟨found, _, _, quietly⟩ := searchSchedules (ε := Empty) plan none nonempty runnable
  obtain ⟨⟨n, atMost, same⟩, counted⟩ := found _ done
  have quiet : Quiet accept 0 Registers.zero segments := by
    apply quietOfTotal
    · simp [segments, Slice, Instruction.isRead]
    · intro ds length digits
      obtain ⟨a, b, rfl⟩ := List.length_eq_two.mp length
      exact ⟨_, rfl⟩
  exact ⟨done, ⟨n, atMost, same⟩, counted, quiet, quietly quiet _ same⟩

end StraightLine.Search
