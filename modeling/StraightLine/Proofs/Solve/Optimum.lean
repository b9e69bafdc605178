import StraightLine.Proofs.Fixpoint.Convergence
import StraightLine.Proofs.Fixpoint.Refinement
import StraightLine.Proofs.Search.Numeral
import StraightLine.Proofs.Search.Report
import StraightLine.Proofs.Solve.Stages

/-! Solving against brute force. Where a program runs through on every digit sequence of its length,
solving it gives the greatest or the least of the sequences that leave the target in the output
register, as numerals, and reports exhaustion when there is none. -/
namespace StraightLine

namespace Program

def IsInput (p : Program) (ds : List Int) : Prop :=
  ds.length = p.inputCount ∧ ∀ d ∈ ds, 1 ≤ d ∧ d ≤ 9

def Total (p : Program) : Prop :=
  ∀ ds, p.IsInput ds → ∃ final, execute p ds Registers.zero = .ok final

def Solves (p : Program) (output : Register) (target : Int) (ds : List Int) : Prop :=
  p.IsInput ds ∧
    ∃ final, execute p ds Registers.zero = .ok final ∧ final.get output = target

variable {output : Register} {target : Int} {p q : Program}

theorem refinedTotal (refines : p.Refines output q) (sameCount : q.inputCount = p.inputCount)
    (total : p.Total) : q.Total := by
  intro ds input
  obtain ⟨length, digits⟩ := input
  obtain ⟨final, ran⟩ := total ds ⟨length.trans sameCount, digits⟩
  obtain ⟨other, follows, _⟩ := refinedFinal refines digits ran
  exact ⟨other, follows⟩

theorem refinedSolves (target : Int) (refines : p.Refines output q)
    (sameCount : q.inputCount = p.inputCount) (total : p.Total) (ds : List Int) :
    q.Solves output target ds ↔ p.Solves output target ds := by
  constructor
  · intro solves
    obtain ⟨⟨length, digits⟩, other, follows, hit⟩ := solves
    obtain ⟨final, ran⟩ := total ds ⟨length.trans sameCount, digits⟩
    obtain ⟨same, ranToo, value⟩ := refinedFinal refines digits ran
    rw [follows] at ranToo
    cases ranToo
    exact ⟨⟨length.trans sameCount, digits⟩, final, ran, value.symm.trans hit⟩
  · intro solves
    obtain ⟨⟨length, digits⟩, final, ran, hit⟩ := solves
    obtain ⟨other, follows, value⟩ := refinedFinal refines digits ran
    exact ⟨⟨length.trans sameCount.symm, digits⟩, other, follows, value.trans hit⟩

end Program

namespace Program
variable {ε : Type} {plan : SearchPlan} {p : Program}

theorem passesSolves {segments : List Segment} (joined : Search.code segments = p)
    (count : segments.length = p.inputCount) (nonempty : segments ≠ [])
    (slices : ∀ s ∈ segments, Slice s.instructions) (a : Answer) :
    Search.Passes (ε := ε) (Search.standard plan segments) 0 Registers.zero segments a ↔
      execute p a.digits Registers.zero = .ok a.registers ∧
        p.Solves plan.output plan.target a.digits := by
  subst joined
  constructor
  · intro passes
    have ran := Search.runOfPasses slices passes
    have length := (Search.passesLength passes).trans count
    obtain ⟨segment, rest, rfl⟩ := List.exists_cons_of_ne_nil nonempty
    have hit := Search.passesTarget List.drop_zero passes
    exact ⟨ran, ⟨length, Search.passesDigits passes⟩, a.registers, ran, hit⟩
  · intro solves
    obtain ⟨ran, ⟨length, digits⟩, final, ranToo, hit⟩ := solves
    rw [ran] at ranToo
    cases ranToo
    exact Search.passesOfRun List.drop_zero slices (length.trans count.symm) digits ran hit

theorem searchFirst (plan : SearchPlan) {dst : Register}
    (opens : p.head? = some (.read dst)) (total : p.Total)
    (runnable : plan.schedule.isRunnable = true) :
    ∃ segments, p.segments = .ok segments ∧ ∃ found n,
      (search (ε := ε) plan none segments).result = Search.report p.inputCount n found ∧
        plan.order.First (fun a => execute p a.digits Registers.zero = .ok a.registers ∧
          p.Solves plan.output plan.target a.digits) found := by
  obtain ⟨segments, cut, joined, count, slices⟩ := segmentsPartition opens
  have nonempty : segments ≠ [] := by
    intro empty
    rw [← joined, empty] at opens
    cases opens
  have quiet : Search.Quiet (ε := ε) (Search.standard plan segments) 0 Registers.zero segments := by
    apply Search.quietOfTotal slices
    intro ds length digits
    obtain ⟨final, ran⟩ := total ds ⟨length.trans count, digits⟩
    exact ⟨final, by rwa [Search.code, joined]⟩
  obtain ⟨found, explored, first⟩ :=
    Search.exploreFirst plan.order plan.schedule quiet
  have reported := Search.searchScheduled plan (none : Option (Predicate ε)) plan.schedule nonempty
    runnable
  have sameResult : (Search.explore (Search.predicate plan segments none) plan.order plan.schedule 0
    Registers.zero segments).result = .ok found := explored
  rw [sameResult, count] at reported
  refine ⟨segments, cut, found, _, reported, ?_⟩
  exact DigitOrder.firstCongr (passesSolves joined count nonempty slices) first

theorem solveOptimal (order : DigitOrder) (plan : SearchPlan) (valid : p.validate = .ok ())
    (total : p.Total) (enough : 3 ≤ plan.maxRounds) (runnable : plan.schedule.isRunnable = true) :
    ((∃ ds, p.Solves plan.output plan.target ds) →
      ∃ solution, p.solve order plan (none : Option (Predicate ε)) p.inputCount = .ok solution ∧
        p.Solves plan.output plan.target solution.answer.digits ∧
        ∀ ds, p.Solves plan.output plan.target ds → ds ≠ solution.answer.digits →
          order.Earlier (decimal solution.answer.digits) (decimal ds)) ∧
    ((∀ ds, ¬p.Solves plan.output plan.target ds) →
      ∃ n, p.solve order plan (none : Option (Predicate ε)) p.inputCount =
        .error (.search (.exhausted p.inputCount n))) := by
  obtain ⟨dst, rest, opening⟩ := validated.mp valid
  have opens : p.head? = some (.read dst) := opening ▸ rfl
  obtain ⟨s, stable, _⟩ := stabilizeWithinThree plan.output p enough
  have refines := stabilizeRefines stable
  have sameCount := stableInputCount stable
  have sameSolutions := refinedSolves plan.target refines sameCount total
  obtain ⟨segments, cut, found, n, reported, first⟩ := searchFirst (ε := ε) { plan with order }
    (stableOpens opens stable) (refinedTotal refines sameCount total) runnable
  have outcome : p.solve order plan (none : Option (Predicate ε)) p.inputCount = _ :=
    solveStages order valid stable cut
  rw [reported, sameCount] at outcome
  cases found with
  | none =>
    refine ⟨?_, fun _ => ⟨n, outcome⟩⟩
    intro solvable
    obtain ⟨ds, solves⟩ := solvable
    obtain ⟨input, final, ran, hit⟩ := (sameSolutions ds).mpr solves
    exact absurd ⟨ran, input, final, ran, hit⟩ (first ⟨ds, final⟩)
  | some answer =>
    obtain ⟨⟨_, solves⟩, least⟩ := first
    have best := (sameSolutions answer.digits).mp solves
    refine ⟨fun _ => ⟨_, outcome, best, ?_⟩, fun never => absurd best (never answer.digits)⟩
    intro ds other different
    obtain ⟨input, final, ran, hit⟩ := (sameSolutions ds).mpr other
    rcases least ⟨ds, final⟩ ⟨ran, input, final, ran, hit⟩ with rfl | earlier
    · exact absurd rfl different
    · exact DigitOrder.decimalEarlier earlier (best.1.1.trans other.1.1.symm) best.1.2 other.1.2

theorem solveOptimalSigned :
    let p : Program := [.read .w, .update .add .z (.reg .w), .read .x,
      .update .mul .x (.const (-1)), .update .add .z (.reg .x)]
    let plan : SearchPlan := { SearchPlan.standard with target := -3 }
    p.Solves .z (-3) [6, 9] ∧
      ∃ solution, p.solve .descending plan (none : Option (Predicate Empty)) 2 = .ok solution ∧
        p.Solves .z (-3) solution.answer.digits ∧
        ∀ ds, p.Solves .z (-3) ds → ds ≠ solution.answer.digits →
          decimal ds < decimal solution.answer.digits := by
  intro p plan
  have total : p.Total := by
    intro ds input
    match ds, input.1 with
    | [a, b], _ => exact ⟨_, rfl⟩
  have solves : p.Solves .z (-3) [6, 9] := ⟨⟨rfl, by decide⟩, ⟨6, -9, 0, -3⟩, rfl, rfl⟩
  obtain ⟨found, _⟩ := solveOptimal (ε := Empty) .descending plan rfl total (by decide) rfl
  exact ⟨solves, found ⟨_, solves⟩⟩

end Program
end StraightLine
