import StraightLine.Proofs.Fixpoint.Convergence
import StraightLine.Proofs.Fixpoint.Refinement
import StraightLine.Proofs.Liveness.Current
import StraightLine.Proofs.Search.Mirror
import StraightLine.Proofs.Solve.Optimum

/-! Predicates of a caller's own, asked about the optimized program. It has the contents of the
submitted one in every current register, and so a predicate that heeds no others finds the same
digits, after as many trials. A register that is not current may hold something else. -/
namespace StraightLine.Program
variable {ε : Type} {order : DigitOrder} {plan : SearchPlan} {p : Program} {s : Stable}
  {judge : Nat → Registers → Bool} {ds : List Int} {k : Nat} {m : Machine}

/- The registers that are current at a position, in front of the read after it. -/
def current (output : Register) (p : Program) (position : Nat) : Live :=
  (Live.observing output).current (position + 1) (PerRegister.uniform true) p.simplify

/- At each position of the program the verdict rests on current registers alone. -/
def Heeds (output : Register) (judge : Nat → Registers → Bool) (p : Program) : Prop :=
  ∀ position t u, position < p.inputCount → (p.current output position).Agree t u →
    judge position t = judge position u

theorem simplifyBefore (digits : ∀ d ∈ ds, d ∈ Interval.digit)
    (ran : (Machine.start ds).run (Segment.beforeRead k p) = .ok m) :
    (Machine.start ds).run (Segment.beforeRead k p.simplify) = .ok m := by
  have described : Ranges.zero.Describes (Machine.start ds) := ⟨Ranges.zeroContains, digits⟩
  rw [simplify, Segment.beforeScan]
  rcases Ranges.scanRun described (Segment.beforeRead k p) with ⟨registers, hidden⟩ | same
  · rw [ran] at hidden
    cases hidden
  · exact same.trans ran

theorem stableBefore {output : Register} {maxRounds : Int}
    (stable : p.stabilize output maxRounds = .ok s) (digits : ∀ d ∈ ds, d ∈ Interval.digit)
    (ran : (Machine.start ds).run (Segment.beforeRead (k + 1) p) = .ok m) :
    ∃ n, (Machine.start ds).run (Segment.beforeRead (k + 1) s.program) = .ok n ∧
      (p.current output k).Agree m.registers n.registers := by
  obtain ⟨n, follows, agree⟩ := Live.currentRun (Live.alikeSelf _ _) (Live.agreeSelf _ _)
    (simplifyBefore digits ran)
  refine ⟨n, ?_, agree⟩
  rw [stableForm stable]
  exact simplifyBefore digits follows

theorem stableFollows {segments twins : List Segment} {maxRounds : Int}
    (stable : p.stabilize plan.output maxRounds = .ok s) (heeds : p.Heeds plan.output judge)
    (joined : segments.flatMap Segment.instructions = p) (count : segments.length = p.inputCount)
    (slices : ∀ s ∈ segments, Slice s.instructions)
    (joinedToo : twins.flatMap Segment.instructions = s.program)
    (slicesToo : ∀ s ∈ twins, Slice s.instructions) :
    Search.Follows judge 0 Registers.zero segments Registers.zero twins := by
  intro k ds after within digits ran
  have front : Search.code (segments.take (k + 1)) = Segment.beforeRead (k + 1) p :=
    joined ▸ (Segment.beforeSlices slices (k + 1)).symm
  have frontToo : Search.code (twins.take (k + 1)) = Segment.beforeRead (k + 1) s.program :=
    joinedToo ▸ (Segment.beforeSlices slicesToo (k + 1)).symm
  rw [front] at ran
  obtain ⟨_, completed⟩ := executed.mp ran
  obtain ⟨n, follows, agree⟩ := stableBefore stable digits completed
  refine ⟨n.registers, ?_, ?_⟩
  · rw [frontToo]
    exact executed.mpr ⟨n.inputs, follows⟩
  · rw [Nat.zero_add]
    exact heeds k _ _ (count ▸ within) agree

theorem solveObserves (order : DigitOrder) (plan : SearchPlan) (valid : p.validate = .ok ())
    (total : p.Total) (stable : p.stabilize plan.output plan.maxRounds = .ok s)
    (heeds : p.Heeds plan.output judge) :
    ∃ segments, p.segments = .ok segments ∧
      (p.solve order plan (some (Search.certain (ε := ε) judge)) p.inputCount).map
          (fun solution => (solution.answer.digits, solution.statistics.evaluations)) =
        ((search { plan with order } (some (Search.certain judge)) segments).result.mapError
          .search).map fun found => (found.answer.digits, (found.evaluations : Int)) := by
  obtain ⟨dst, rest, opening⟩ := validated.mp valid
  have opens : p.head? = some (.read dst) := opening ▸ rfl
  obtain ⟨segments, cut, joined, count, slices⟩ := segmentsPartition opens
  have nonempty := (segmentsCut cut).2.2.1
  obtain ⟨twins, cutToo, joinedToo, countToo, nonemptyToo, slicesToo⟩ := stableSegments valid stable
  have sameCount := count.trans countToo.symm
  have completes : ∀ ds : List Int, ds.length = segments.length →
      (∀ d ∈ ds, d ∈ Interval.digit) →
      ∃ final, execute (Search.code segments) ds Registers.zero = .ok final := by
    intro ds length digits
    obtain ⟨final, ran⟩ := total ds ⟨length.trans count, digits⟩
    exact ⟨final, by rwa [Search.code, joined]⟩
  have follows := stableFollows stable heeds joined count slices joinedToo slicesToo
  have mirrors := Search.mirrorsOfFollows slices slicesToo sameCount completes follows
  have same : (search (ε := ε) { plan with order } (some (Search.certain judge))
      segments).result.map Search.told =
        (search { plan with order } (some (Search.certain judge)) twins).result.map Search.told :=
    Search.searchMirrors nonempty nonemptyToo sameCount mirrors
  have tells (result : Except (SearchError ε) Found) :
      ((result.mapError SolveError.search).map fun found =>
        (found.answer.digits, (found.evaluations : Int))) =
      ((result.map Search.told).mapError SolveError.search).map fun t => (t.1, (t.2 : Int)) := by
    cases result <;> rfl
  refine ⟨segments, cut, ?_⟩
  rw [solveStages order valid stable cutToo, tells, same, ← tells]
  cases (search (ε := ε) { plan with order } (some (Search.certain judge)) twins).result <;> rfl

theorem solveObservesDropped :
    let p : Program := [.read .w, .update .add .x (.reg .w)]
    let judge : Nat → Registers → Bool := fun _ registers => registers.x = 5
    p.validate = .ok () ∧ p.Total ∧
      (∃ segments, p.segments = .ok segments ∧ ∃ found,
        (search SearchPlan.standard (some (Search.certain (ε := Empty) judge)) segments).result =
          .ok found ∧ found.answer.digits = [5]) ∧
      p.solve .descending SearchPlan.standard (some (Search.certain (ε := Empty) judge)) 1 =
        .error (.search (.exhausted 1 9)) := by
  intro p judge
  have total : p.Total := by
    intro ds input
    match ds, input.1 with
    | [d], _ => exact ⟨_, rfl⟩
  have stable : p.stabilize .z 100 = .ok ⟨[.read .w], 2⟩ := stabilized.mpr (by decide +kernel)
  have outcome : p.solve .descending SearchPlan.standard
      (some (Search.certain (ε := Empty) judge)) 1 = _ :=
    solveStages .descending rfl stable rfl
  exact ⟨rfl, total, ⟨_, rfl, _, rfl, rfl⟩, outcome⟩

theorem solveObservesSigned :
    let p : Program := [.read .w, .update .add .x (.reg .w), .update .mul .x (.const (-3)),
      .update .add .y (.reg .x), .update .add .z (.reg .x)]
    let judge : Nat → Registers → Bool := fun _ registers =>
      registers.w % 4 = 0 ∧ registers.x = registers.z
    p.current .z 0 = ⟨true, true, false, true⟩ ∧ p.Heeds .z judge ∧
      (p.solve .descending SearchPlan.standard (some (Search.certain (ε := Empty) judge)) 1).map
        (fun solution => (solution.answer.digits, solution.statistics.evaluations)) =
          .ok ([8], 2) := by
  intro p judge
  have simplified : p.simplify = [.read .w, .update .set .x (.reg .w),
      .update .mul .x (.const (-3)), .update .set .y (.reg .x), .update .set .z (.reg .x)] := by
    decide +kernel
  have flags (position : Nat) : p.current .z position = ⟨true, true, false, true⟩ := by
    rw [current, simplified]
    rfl
  have heeds : p.Heeds .z judge := by
    intro position t u _ agree
    rw [flags] at agree
    have w : t.w = u.w := agree .w rfl
    have x : t.x = u.x := agree .x rfl
    have z : t.z = u.z := agree .z rfl
    simp only [judge, w, x, z]
  have total : p.Total := by
    intro ds input
    match ds, input.1 with
    | [d], _ => exact ⟨_, rfl⟩
  have stable : p.stabilize .z 100 = .ok ⟨[.read .w, .update .set .x (.reg .w),
      .update .mul .x (.const (-3)), .update .set .z (.reg .x)], 2⟩ :=
    stabilized.mpr (by decide +kernel)
  obtain ⟨segments, cut, same⟩ := solveObserves (ε := Empty) .descending SearchPlan.standard rfl
    total stable heeds
  cases cut
  exact ⟨flags 0, heeds, same⟩

end StraightLine.Program
