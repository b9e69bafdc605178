import StraightLine.Proofs.Search.Effort
import StraightLine.Proofs.Search.First

/-! What an exploration comes to in each case. An attempt at a digit runs the segment and asks the
predicate; whatever an exploration finds or fails with comes from one attempt and what lies below
it. Its findings pass, and its errors are those of runs and of the predicate. -/
namespace StraightLine

def SearchError.isRaised {ε : Type} : SearchError ε → Bool
  | .crashed _ => true
  | .interrupted => true
  | .predicateExhausted _ => true
  | .predicate _ => true
  | .noSegments => false
  | .noWorkers => false
  | .exhausted _ _ => false

theorem SearchError.predicateRaised {ε : Type} (reason : PredicateError ε) :
    (SearchError.ofPredicate reason).isRaised = true := by
  cases reason <;> rfl

namespace Search
variable {ε : Type} {accept : Predicate ε} {order : DigitOrder} {schedule : Schedule}
  {position : Nat} {before : Registers} {segment : Segment} {rest segments : List Segment}

theorem attemptCrashed {d : Int} {crash : Crash}
    (failed : execute segment.instructions [d] before = .error crash) :
    (attempt accept position before segment d).result = .error (.crashed crash.fault) := by
  simp only [attempt, failed]
  rfl

theorem attemptRaised {d : Int} {after : Registers} {reason : PredicateError ε}
    (ran : execute segment.instructions [d] before = .ok after)
    (raised : accept position after = .error reason) :
    (attempt accept position before segment d).result = .error (.ofPredicate reason) := by
  simp only [attempt, ran, raised]
  rfl

theorem attempted {d : Int} {c : Candidate}
    (made : (attempt accept position before segment d).result = .ok c) :
    c.digit = d ∧ execute segment.instructions [d] before = .ok c.registers ∧
      accept position c.registers = .ok c.accepted := by
  cases ran : execute segment.instructions [d] before with
  | error crash =>
    rw [attemptCrashed ran] at made
    cases made
  | ok after =>
    cases tried : accept position after with
    | error reason =>
      rw [attemptRaised ran tried] at made
      cases made
    | ok accepted =>
      rw [attemptAccepted ran tried] at made
      cases made
      exact ⟨rfl, rfl, tried⟩

theorem attemptTrials {d : Int} {c : Candidate}
    (made : (attempt accept position before segment d).result = .ok c) :
    (attempt accept position before segment d).trials = [⟨position, c.registers, c.accepted⟩] := by
  obtain ⟨_, ran, tried⟩ := attempted made
  simp only [attempt, ran, tried]

theorem attemptError {d : Int} {e : SearchError ε}
    (failed : (attempt accept position before segment d).result = .error e) :
    (∃ crash, execute segment.instructions [d] before = .error crash ∧ e = .crashed crash.fault) ∨
      ∃ after reason, execute segment.instructions [d] before = .ok after ∧
        accept position after = .error reason ∧ e = .ofPredicate reason := by
  cases ran : execute segment.instructions [d] before with
  | error crash =>
    rw [attemptCrashed ran] at failed
    cases failed
    exact .inl ⟨crash, rfl, rfl⟩
  | ok after =>
    cases tried : accept position after with
    | error reason =>
      rw [attemptRaised ran tried] at failed
      cases failed
      exact .inr ⟨after, reason, rfl, tried, rfl⟩
    | ok accepted =>
      rw [attemptAccepted ran tried] at failed
      cases failed

theorem attemptFails {d : Int} {e : SearchError ε}
    (failed : (attempt accept position before segment d).result = .error e) :
    e.isRaised = true := by
  rcases attemptError failed with ⟨crash, _, rfl⟩ | ⟨_, reason, _, _, rfl⟩
  · rfl
  · exact SearchError.predicateRaised reason

theorem entered {c : Candidate} {a : Answer}
    (found : (enter accept order schedule position rest c).result = .ok (some a)) :
    c.accepted = true ∧ ∃ below,
      (explore accept order schedule (position + 1) c.registers rest).result = .ok (some below) ∧
        a = below.prepend c.digit := by
  unfold enter at found
  split at found
  · rename_i accepted
    obtain ⟨below, done, last⟩ := Progress.thenOk.mp found
    cases below with
    | none => cases last
    | some below =>
      cases last
      exact ⟨accepted, below, done, rfl⟩
  · cases found

theorem enterFails {c : Candidate} {e : SearchError ε}
    (failed : (enter accept order schedule position rest c).result = .error e) :
    (explore accept order schedule (position + 1) c.registers rest).result = .error e := by
  unfold enter at failed
  split at failed
  · rcases Progress.thenFails.mp failed with below | ⟨_, _, last⟩
    · exact below
    · cases last
  · cases failed

theorem enterSpares {saving costly : Predicate ε} {savingSchedule costlySchedule : Schedule}
    {c : Candidate}
    (below : Progress.Spares Eq
      (explore saving order savingSchedule (position + 1) c.registers rest)
      (explore costly order costlySchedule (position + 1) c.registers rest)) :
    Progress.Spares Eq (enter saving order savingSchedule position rest c)
      (enter costly order costlySchedule position rest c) := by
  unfold enter
  split
  · refine Progress.sparesThen below fun a b same => ?_
    subst same
    exact Progress.sparesFinished rfl
  · exact Progress.sparesFinished rfl

theorem exploreFound {a : Answer}
    (found : (explore accept order schedule position before (segment :: rest)).result =
      .ok (some a)) :
    ∃ d ∈ order.digits, ∃ c, (attempt accept position before segment d).result = .ok c ∧
      (enter accept order schedule position rest c).result = .ok (some a) := by
  cases schedule with
  | sequential =>
    rw [exploreSequential] at found
    obtain ⟨d, mem, below⟩ := Progress.findMember found
    obtain ⟨c, made, deeper⟩ := Progress.thenOk.mp below
    exact ⟨d, mem, c, made, deeper⟩
  | parallel workers =>
    rw [exploreParallel] at found
    obtain ⟨candidates, all, below⟩ := Progress.thenOk.mp found
    obtain ⟨c, listed, deeper⟩ := Progress.findMember below
    obtain ⟨d, mem, made⟩ := Progress.mapMember all c listed
    exact ⟨d, mem, c, made, deeper⟩

theorem exploreFails {e : SearchError ε}
    (failed : (explore accept order schedule position before (segment :: rest)).result =
      .error e) :
    ∃ d ∈ order.digits, (attempt accept position before segment d).result = .error e ∨
      ∃ c, (enter accept order schedule position rest c).result = .error e := by
  cases schedule with
  | sequential =>
    rw [exploreSequential] at failed
    obtain ⟨d, mem, first⟩ := Progress.findFails failed
    rcases Progress.thenFails.mp first with attempt | ⟨c, _, below⟩
    · exact ⟨d, mem, .inl attempt⟩
    · exact ⟨d, mem, .inr ⟨c, below⟩⟩
  | parallel workers =>
    rw [exploreParallel] at failed
    rcases Progress.thenFails.mp failed with first | ⟨candidates, all, later⟩
    · obtain ⟨d, mem, attempt⟩ := Progress.mapFails first
      exact ⟨d, mem, .inl attempt⟩
    · obtain ⟨c, listed, below⟩ := Progress.findFails later
      obtain ⟨d, mem, _⟩ := Progress.mapMember all c listed
      exact ⟨d, mem, .inr ⟨c, below⟩⟩

theorem explorePasses {a : Answer}
    (found : (explore accept order schedule position before segments).result = .ok (some a)) :
    Passes accept position before segments a := by
  induction segments generalizing position before a with
  | nil =>
    rw [explore] at found
    cases found
    exact .done position before
  | cons segment rest ih =>
    obtain ⟨d, mem, c, made, deeper⟩ := exploreFound found
    obtain ⟨accepted, below, done, rfl⟩ := entered deeper
    obtain ⟨rfl, ran, tried⟩ := attempted made
    exact .next ((order.digitRange _).mp mem) ran (accepted ▸ tried) (ih done)

theorem exploreErrors {P : SearchError ε → Prop} {e : SearchError ε}
    (attempts : ∀ s ∈ segments, ∀ position before d raised,
      (attempt accept position before s d).result = .error raised → P raised)
    (failed : (explore accept order schedule position before segments).result = .error e) :
    P e := by
  induction segments generalizing position before with
  | nil =>
    rw [explore] at failed
    cases failed
  | cons segment rest ih =>
    obtain ⟨d, _, attempt | ⟨c, below⟩⟩ := exploreFails failed
    · exact attempts segment (by simp) position before d e attempt
    · exact ih (fun s mem => attempts s (List.mem_cons_of_mem segment mem)) (enterFails below)

theorem exploreRaises {e : SearchError ε}
    (failed : (explore accept order schedule position before segments).result = .error e) :
    e.isRaised = true :=
  exploreErrors (fun _ _ _ _ _ _ => attemptFails) failed

end Search
end StraightLine
