import StraightLine.Proofs.Search.First
import StraightLine.Proofs.Segment.Execution
import StraightLine.Proofs.Simplify.Refinement
import StraightLine.Search.Target

/-! The standard predicate against whole runs. It never rejects registers from which some digits
still lead to the target, so that the answers it lets pass are the inputs on which the code of all
segments ends with the target in the output register. -/
namespace StraightLine

theorem reachesOfCompletion {plan : SearchPlan} {segments : List Segment} {position : Nat}
    {after final : Registers} {ds : List Int} (digits : ∀ d ∈ ds, d ∈ Interval.digit)
    (ran : execute (Segment.remaining segments position) ds after = .ok final)
    (hit : final.get plan.output = plan.target) :
    plan.reaches segments position after = true := by
  unfold SearchPlan.reaches
  split
  · rename_i atEnd
    have nothing : Segment.remaining segments position = [] := by
      simp [Segment.remaining, atEnd]
    rw [nothing] at ran
    cases ran
    exact decide_eq_true hit
  split
  · obtain ⟨left, last⟩ := executed.mp ran
    have described : (Ranges.exactly after).Describes ⟨after, ds⟩ :=
      ⟨Ranges.containsExactly after, digits⟩
    have inside := (Ranges.scanDescribes described last).registers plan.output
    exact decide_eq_true (hit ▸ inside)
  · rfl

namespace Search
variable {ε : Type}

def code (segments : List Segment) : List Instruction := segments.flatMap Segment.instructions

theorem executeCode {segment : Segment} (slice : Slice segment.instructions) (rest : List Segment)
    (d : Int) (ds : List Int) (before : Registers) :
    execute (code (segment :: rest)) (d :: ds) before =
      execute segment.instructions [d] before >>= fun after => execute (code rest) ds after :=
  executeSlice slice (code rest) d ds before

theorem executedCode {segment : Segment} (slice : Slice segment.instructions)
    {rest : List Segment} {d : Int} {ds : List Int} {before final : Registers} :
    execute (code (segment :: rest)) (d :: ds) before = .ok final ↔
      ∃ after, execute segment.instructions [d] before = .ok after ∧
        execute (code rest) ds after = .ok final := by
  rw [executeCode slice]
  cases execute segment.instructions [d] before with
  | error crash => simp [bind, Except.bind]
  | ok after => simp [bind, Except.bind]

def standard (plan : SearchPlan) (segments : List Segment) : Predicate ε :=
  fun position registers => .ok (plan.reaches segments position registers)

variable {plan : SearchPlan} {all segments : List Segment} {position : Nat} {before : Registers}

theorem remainingOfSuffix {segment : Segment} {rest : List Segment}
    (suffix : all.drop position = segment :: rest) :
    all.drop (position + 1) = rest ∧ Segment.remaining all position = code rest := by
  have dropped : all.drop (position + 1) = rest := by
    rw [← List.drop_drop, suffix, List.drop_one, List.tail_cons]
  exact ⟨dropped, by rw [Segment.remaining, dropped, code]⟩

theorem lastOfSuffix {segment : Segment} (suffix : all.drop position = [segment]) :
    position + 1 = all.length := by
  have length := congrArg List.length suffix
  rw [List.length_drop, List.length_singleton] at length
  omega

theorem passesOfRun (suffix : all.drop position = segments)
    (slices : ∀ s ∈ segments, Slice s.instructions) {ds : List Int} {final : Registers}
    (length : ds.length = segments.length) (digits : ∀ d ∈ ds, d ∈ Interval.digit)
    (ran : execute (code segments) ds before = .ok final)
    (hit : final.get plan.output = plan.target) :
    Passes (ε := ε) (standard plan all) position before segments ⟨ds, final⟩ := by
  induction segments generalizing position before ds with
  | nil =>
    cases List.length_eq_zero_iff.mp length
    cases ran
    exact .done position before
  | cons segment rest ih =>
    cases ds with
    | nil => cases length
    | cons d ds =>
      obtain ⟨after, first, others⟩ := (executedCode (slices segment (by simp))).mp ran
      obtain ⟨dropped, remaining⟩ := remainingOfSuffix suffix
      have digitsLater : ∀ e ∈ ds, e ∈ Interval.digit :=
        fun e mem => digits e (List.mem_cons_of_mem d mem)
      have accepted : plan.reaches all position after = true :=
        reachesOfCompletion digitsLater (remaining ▸ others) hit
      have below := ih dropped (fun s mem => slices s (List.mem_cons_of_mem segment mem))
        (Nat.succ.inj length) digitsLater others
      exact .next (digits d (by simp)) first (congrArg Except.ok accepted) below

theorem runOfPasses {accept : Predicate ε} (slices : ∀ s ∈ segments, Slice s.instructions)
    {a : Answer} (passes : Passes accept position before segments a) :
    execute (code segments) a.digits before = .ok a.registers := by
  induction passes with
  | done => rfl
  | @next position before segment rest digit after a choice ran accepted below ih =>
    refine (executedCode (slices segment (by simp))).mpr ⟨after, ran, ?_⟩
    exact ih (fun s mem => slices s (List.mem_cons_of_mem segment mem))

theorem passesTarget {segment : Segment} {rest : List Segment}
    (suffix : all.drop position = segment :: rest) {a : Answer}
    (passes : Passes (ε := ε) (standard plan all) position before (segment :: rest) a) :
    a.registers.get plan.output = plan.target := by
  induction rest generalizing segment position before a with
  | nil =>
    cases passes with
    | next choice ran accepted below =>
      cases below
      have last := lastOfSuffix suffix
      simpa [standard, SearchPlan.reaches, last, Answer.prepend] using accepted
  | cons second rest ih =>
    cases passes with
    | next choice ran accepted below =>
      have hit := ih (remainingOfSuffix suffix).1 below
      exact hit

theorem totalFirst {segment : Segment} {rest : List Segment} (slice : Slice segment.instructions)
    (total : ∀ ds : List Int, ds.length = (segment :: rest).length →
      (∀ d ∈ ds, d ∈ Interval.digit) →
      ∃ final, execute (code (segment :: rest)) ds before = .ok final)
    {d : Int} (choice : d ∈ Interval.digit) :
    ∃ after, execute segment.instructions [d] before = .ok after ∧
      ∀ ds : List Int, ds.length = rest.length → (∀ e ∈ ds, e ∈ Interval.digit) →
        ∃ final, execute (code rest) ds after = .ok final := by
  have ones : ∀ e ∈ List.replicate rest.length (1 : Int), e ∈ Interval.digit := by
    intro e mem
    rw [List.eq_of_mem_replicate mem]
    decide
  -- any digits complete the run, so the segment itself does not crash
  obtain ⟨_, whole⟩ := total (d :: List.replicate rest.length 1) (by simp)
    (List.forall_mem_cons.mpr ⟨choice, ones⟩)
  obtain ⟨after, ran, _⟩ := (executedCode slice).mp whole
  refine ⟨after, ran, ?_⟩
  intro ds length digits
  obtain ⟨final, run⟩ := total (d :: ds) (by simp [length])
    (List.forall_mem_cons.mpr ⟨choice, digits⟩)
  obtain ⟨other, first, others⟩ := (executedCode slice).mp run
  rw [ran] at first
  cases first
  exact ⟨final, others⟩

theorem quietOfTotal {accept : Nat → Registers → Bool}
    (slices : ∀ s ∈ segments, Slice s.instructions)
    (total : ∀ ds : List Int, ds.length = segments.length → (∀ d ∈ ds, d ∈ Interval.digit) →
      ∃ final, execute (code segments) ds before = .ok final) :
    Quiet (ε := ε) (fun place registers => .ok (accept place registers)) position before
      segments := by
  induction segments generalizing position before with
  | nil => trivial
  | cons segment rest ih =>
    obtain ⟨slice, others⟩ := List.forall_mem_cons.mp slices
    intro d choice
    obtain ⟨after, ran, totalRest⟩ := totalFirst slice total choice
    exact ⟨after, accept position after, ran, rfl, fun _ => ih others totalRest⟩

end Search
end StraightLine
