import StraightLine.Proofs.Fixpoint.Residue
import StraightLine.Proofs.Solve.Optimum

/-! An answer, run on the program that was submitted. The search has run the optimized program,
which may have lost instructions that fail; what an answer promises of the submitted program is the
target in the output register, or else an arithmetic fault at an instruction that is gone. -/
namespace StraightLine.Program
variable {ε : Type} {order : DigitOrder} {plan : SearchPlan} {digitCount : Int} {p : Program}
  {s : Stable} {segments : List Segment} {found : Found}

theorem stableSolves
    (stages : p.Solved order plan (none : Option (Predicate ε)) digitCount s segments found) :
    execute s.program found.answer.digits Registers.zero = .ok found.answer.registers ∧
      s.program.Solves plan.output plan.target found.answer.digits := by
  obtain ⟨joined, count, nonempty, slices⟩ := segmentsCut stages.cut
  have searched := stages.searched
  have runnable := Search.searchStarts nonempty (by rw [searched]; exact nofun)
  rw [Search.searchReports nonempty runnable] at searched
  obtain ⟨explored, _⟩ := Search.reportFound.mp searched
  have passes := Search.explorePasses explored
  exact (passesSolves joined count nonempty slices found.answer).mp passes

theorem solveAnswerFaults :
    let p : Program := [.read .w, .update .add .x (.reg .w), .update .eql .x (.const 5),
      .update .add .y (.const 1), .update .div .y (.reg .x)]
    p.validate = .ok () ∧
      (∃ solution, p.solve .descending SearchPlan.standard (none : Option (Predicate Empty)) 1 =
        .ok solution ∧ solution.answer.digits = [9]) ∧
      execute p [9] Registers.zero = .error ⟨.divisionByZero 1, ⟨9, 0, 1, 0⟩⟩ := by
  intro p
  have stable : p.stabilize .z 100 = .ok ⟨[.read .w], 2⟩ := stabilized.mpr (by decide +kernel)
  have outcome : p.solve .descending SearchPlan.standard (none : Option (Predicate Empty)) 1 = _ :=
    solveStages .descending rfl stable rfl
  exact ⟨rfl, ⟨_, outcome, rfl⟩, rfl⟩

theorem solveAnswers {solution : Solution}
    (done : p.solve order plan (none : Option (Predicate ε)) digitCount = .ok solution) :
    p.Solves plan.output plan.target solution.answer.digits ∨
      ∃ crash s k i, execute p solution.answer.digits Registers.zero = .error crash ∧
        p[k]? = some i ∧ Machine.DividesByZero crash.registers i crash.fault ∧
        crash.fault.kind = (if Text.Numeral.isWritable (crash.registers.get i.dst) then .arithmetic
          else .invalidValue) ∧
        p.stabilize plan.output plan.maxRounds = .ok s ∧
        (Machine.start solution.answer.digits).FailsAt p k ∧
        (p.residue plan.output s.rounds).code = s.program ∧
        (p.residue plan.output s.rounds)[k]? = some none := by
  obtain ⟨s, segments, found, stages, rfl⟩ := solved done
  obtain ⟨ran, ⟨length, digits⟩, final, ranToo, hit⟩ := stableSolves stages
  rw [ran] at ranToo
  cases ranToo
  have refines := stabilizeRefines stages.stable
  have submitted := stableInputCount stages.stable
  cases outcome : execute p found.answer.digits Registers.zero with
  | ok last =>
    obtain ⟨other, follows, same⟩ := refinedFinal refines digits outcome
    rw [ran] at follows
    cases follows
    exact .inl ⟨⟨length.trans submitted, digits⟩, last, outcome, same.symm.trans hit⟩
  | error crash =>
    obtain ⟨k, i, before, fails, placed, same, failed⟩ :=
      Machine.crashPlace (executeCrashed.mp outcome)
    obtain ⟨left, completed⟩ := executed.mp ran
    obtain ⟨within, _⟩ := List.getElem?_eq_some_iff.mp placed
    have gone := stableFault stages.stable digits fails within completed
    have divides : Machine.DividesByZero crash.registers i crash.fault := by
      rcases arithmeticOrExhausted crash.fault with arithmetic | ⟨dst, exhausted⟩
      · exact same ▸ Machine.stepDivides failed arithmetic
      · obtain ⟨fault, registers⟩ := crash
        subst exhausted
        obtain ⟨_, failed⟩ := refinedExhausted refines digits outcome
        rw [ran] at failed
        cases failed
    exact .inr ⟨crash, s, k, i, rfl, placed, divides, Machine.dividesKind divides, stages.stable,
      fails, stableResidue stages.stable, gone⟩

theorem solveAnswersRemainder :
    let p : Program := [.read .w, .update .add .x (.const (-9)), .update .mod .x (.reg .w),
      .update .add .y (.reg .w), .update .add .y (.const (-9)), .update .mod .x (.reg .y),
      .update .add .z (.reg .w), .update .mul .z (.const (-1))]
    let plan : SearchPlan := { SearchPlan.standard with target := -9 }
    (∃ solution, p.solve .ascending plan (none : Option (Predicate Empty)) 1 = .ok solution ∧
      solution.answer.digits = [9]) ∧
    ∃ crash s k i, execute p [9] Registers.zero = .error crash ∧ p[k]? = some i ∧
      Machine.DividesByZero crash.registers i crash.fault ∧
      crash.fault.kind = (if Text.Numeral.isWritable (crash.registers.get i.dst) then .arithmetic
        else .invalidValue) ∧ p.stabilize .z 100 = .ok s ∧
      (Machine.start [9]).FailsAt p k ∧ (p.residue .z s.rounds).code = s.program ∧
      (p.residue .z s.rounds)[k]? = some none := by
  intro p plan
  have stable : p.stabilize .z 100 =
      .ok ⟨[.read .w, .update .set .z (.reg .w), .update .mul .z (.const (-1))], 2⟩ :=
    stabilized.mpr (by decide +kernel)
  have outcome : p.solve .ascending plan (none : Option (Predicate Empty)) 1 = _ :=
    solveStages .ascending rfl stable rfl
  refine ⟨⟨_, outcome, rfl⟩, ?_⟩
  rcases solveAnswers outcome with ⟨_, final, ran, _⟩ | crashes
  · cases ran
  · exact crashes

end StraightLine.Program
