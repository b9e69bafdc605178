import StraightLine.Proofs.Search.Exploration
import StraightLine.Proofs.Search.Target

/-! What a search reports. A search that starts explores the segments from the first position; it
passes on the error of a run or of the predicate, and reports what was found, or that nothing was,
with the count of trials. -/
namespace StraightLine.Search
variable {ε : Type} {plan : SearchPlan} {custom : Option (Predicate ε)} {segments : List Segment}

def predicate (plan : SearchPlan) (segments : List Segment) (custom : Option (Predicate ε)) :
    Predicate ε :=
  custom.getD (standard plan segments)

def explored (plan : SearchPlan) (custom : Option (Predicate ε)) (segments : List Segment) :
    Progress (SearchError ε) (Option Answer) :=
  explore (predicate plan segments custom) plan.order plan.schedule 0 Registers.zero segments

def report (length evaluations : Nat) : Option Answer → Except (SearchError ε) Found
  | none => .error (.exhausted length evaluations)
  | some answer => .ok ⟨answer, evaluations⟩

theorem searchReports (nonempty : segments ≠ []) (runnable : plan.schedule.isRunnable = true) :
    (search plan custom segments).result =
      (explored plan custom segments).result >>=
        report segments.length (explored plan custom segments).trials.length := by
  unfold search explored predicate standard
  rw [if_neg (by simpa using nonempty), if_neg (by simp [runnable])]
  dsimp only
  generalize explore _ plan.order plan.schedule 0 Registers.zero segments = searched
  cases searched with
  | mk trials result =>
    cases result with
    | error e => rfl
    | ok found => cases found <;> rfl

theorem searchScheduled (plan : SearchPlan) (custom : Option (Predicate ε)) (schedule : Schedule)
    (nonempty : segments ≠ []) (runnable : schedule.isRunnable = true) :
    (search { plan with schedule } custom segments).result =
      (explore (predicate plan segments custom) plan.order schedule 0 Registers.zero
        segments).result >>= report segments.length
          (explore (predicate plan segments custom) plan.order schedule 0 Registers.zero
            segments).trials.length :=
  searchReports nonempty runnable

theorem searchIdle (nonempty : segments ≠ []) (idle : plan.schedule.isRunnable = false) :
    (search plan custom segments).result = .error .noWorkers := by
  unfold search
  rw [if_neg (by simpa using nonempty), if_pos (by simp [idle])]
  rfl

theorem searchStarts (nonempty : segments ≠ [])
    (started : (search plan custom segments).result ≠ .error .noWorkers) :
    plan.schedule.isRunnable = true := by
  cases runnable : plan.schedule.isRunnable with
  | true => rfl
  | false => exact absurd (searchIdle nonempty runnable) started

variable {result : Except (SearchError ε) (Option Answer)} {length n : Nat}

theorem reportFound {found : Found} :
    result >>= report length n = .ok found ↔
      result = .ok (some found.answer) ∧ found.evaluations = n := by
  cases result with
  | error e => simp [bind, Except.bind]
  | ok choice =>
    cases choice with
    | none => simp [bind, Except.bind, report]
    | some answer =>
      cases found
      simp [bind, Except.bind, report, eq_comm]

theorem reportAnswer {answer : Answer} (found : result = .ok (some answer)) :
    result >>= report length n = .ok ⟨answer, n⟩ := by
  rw [found]
  rfl

theorem reportFails {e : SearchError ε} (failed : result >>= report length n = .error e)
    (other : ∀ l m, e ≠ .exhausted l m) : result = .error e := by
  cases result with
  | error raised =>
    cases failed
    rfl
  | ok choice =>
    cases choice with
    | none =>
      cases failed
      exact absurd rfl (other length n)
    | some answer => cases failed

theorem reportExhausted (raises : ∀ e, result = .error e → e.isRaised = true) {l m : Nat} :
    result >>= report length n = .error (.exhausted l m) ↔
      result = .ok none ∧ l = length ∧ m = n := by
  cases result with
  | error e =>
    constructor
    · intro same
      cases same
      cases raises _ rfl
    · intro same
      cases same.1
  | ok choice =>
    cases choice with
    | none => simp [bind, Except.bind, report, eq_comm]
    | some answer => simp [bind, Except.bind, report]

theorem searchSpares {saving costly : SearchPlan} (nonempty : segments ≠ [])
    (runnable : costly.schedule.isRunnable = true → saving.schedule.isRunnable = true)
    (spares : Progress.Spares Eq (explored saving custom segments)
      (explored costly custom segments)) :
    (∀ found, (search costly custom segments).result = .ok found →
      ∃ n ≤ found.evaluations, (search saving custom segments).result = .ok ⟨found.answer, n⟩) ∧
    (∀ length evaluations,
      (search costly custom segments).result = .error (.exhausted length evaluations) →
        ∃ n ≤ evaluations,
          (search saving custom segments).result = .error (.exhausted length n)) := by
  constructor
  · intro found done
    have starts := searchStarts nonempty (by rw [done]; exact nofun)
    rw [searchReports nonempty starts] at done
    obtain ⟨deeper, count⟩ := reportFound.mp done
    obtain ⟨_, same, rfl, fewer⟩ := spares _ deeper
    refine ⟨_, count ▸ fewer, ?_⟩
    rw [searchReports nonempty (runnable starts)]
    exact reportAnswer same
  · intro length evaluations done
    have starts := searchStarts nonempty (by rw [done]; exact nofun)
    rw [searchReports nonempty starts] at done
    obtain ⟨deeper, rfl, count⟩ := (reportExhausted fun _ => exploreRaises).mp done
    obtain ⟨_, same, rfl, fewer⟩ := spares _ deeper
    refine ⟨_, count ▸ fewer, ?_⟩
    rw [searchReports nonempty (runnable starts)]
    exact (reportExhausted fun _ => exploreRaises).mpr ⟨same, rfl, rfl⟩

end StraightLine.Search
