import StraightLine.Proofs.Fixpoint.Rounds
import StraightLine.Proofs.Liveness.Agreement
import StraightLine.Proofs.Simplify.Normal

/-! Rounds settle. A second round sees the ranges of the first one wherever a register is live, so
that all it can do is drop an assignment of a constant which the destination holds now that a dead
write before it is gone. The code is then normal and without dead instructions, and the third
round changes nothing. -/
namespace StraightLine
namespace Live

/- How normal code under the ranges s behaves under ranges t that agree with s where a register is
live: it stays, or it is an assignment of what t has in the destination already. -/
theorem againUnder {after : Live} {s t : Ranges} {i : Instruction} (needed : after.needs i = true)
    (kept : verdict s i = .keep) (agree : (after.transfer i).Agree s t) :
    (verdict t i = .keep ∧ after.Agree (s.transfer i) (t.transfer i)) ∨
      (verdict t i = .drop ∧ after.Agree (s.transfer i) t ∧ (after.transfer i).Le after) := by
  have others : ∀ r, r ≠ i.dst → after.get r = true → s.get r = t.get r :=
    fun r other alive => agree r (transferOther other alive)
  cases i with
  | read dst => exact .inl ⟨rfl, agreeBothSet others _⟩
  | update op dst src =>
    have operand := operandRangeAgree agree
    by_cases overwrites : op = .set
    · subst op
      rcases assignmentUnder kept operand with stays | ⟨goes, ⟨n, rfl⟩, stored⟩
      · refine .inl ⟨stays, ?_⟩
        simp only [Ranges.transfer, operand]
        exact agreeBothSet others _
      · refine .inr ⟨goes, ?_, clearedLe after dst⟩
        simp only [Ranges.transfer, operand, stored]
        have same := agreeBothSet others (t.get dst)
        rwa [Instruction.dst, PerRegister.setGet] at same
    · have old := agree dst (transferDestination overwrites (neededUpdate needed))
      refine .inl ⟨(verdictLocal old operand).symm.trans kept, ?_⟩
      simp only [Ranges.transfer, old, operand]
      exact agreeBothSet others _

theorem rescanned (atEnd : Live) {s t : Ranges} {is : List Instruction} (normal : Normal s is)
    (agree : (atEnd.entering is).Agree s t) :
    atEnd.retained (t.scan (atEnd.retained is)).1 = (t.scan (atEnd.retained is)).1 ∧
      (atEnd.entering is).Le (atEnd.entering (t.scan (atEnd.retained is)).1) := by
  induction normal generalizing t with
  | nil s => exact ⟨rfl, fun _ alive => alive⟩
  | @cons s i rest kept tail ih =>
    cases needed : (atEnd.entering rest).needs i with
    | true =>
      rw [enteringKept needed] at agree ⊢
      rw [retainedKept needed]
      rcases againUnder needed kept agree with ⟨stays, still⟩ | ⟨goes, still, fewer⟩
      · obtain ⟨same, le⟩ := ih still
        rw [Ranges.scanRetained (simplifyKept stays)]
        have wanted := needsLe le needed
        refine ⟨?_, ?_⟩
        · rw [retainedKept wanted, same]
        · rw [enteringKept wanted]
          exact transferLe le i
      · obtain ⟨same, le⟩ := ih still
        rw [Ranges.scanRemoved (simplifyDropped goes)]
        exact ⟨same, fun r alive => le r (fewer r alive)⟩
    | false =>
      rw [enteringDropped needed] at agree ⊢
      rw [retainedDropped needed]
      obtain ⟨⟨op, dst, src, rfl⟩, unread⟩ := deadUpdate needed
      exact ih (agreeDeadSet unread agree _)

end Live

namespace Program

theorem roundTwice (output : Register) (p : Program) :
    (p.round output).round output = (p.round output).simplify :=
  (Live.rescanned (Live.observing output) (scanNormal Ranges.zero p)
    (Live.agreeSelf _ Ranges.zero)).1

theorem roundThrice (output : Register) (p : Program) :
    ((p.round output).round output).round output = (p.round output).round output := by
  have second := roundTwice output p
  have third : (p.round output).simplify.simplify = (p.round output).simplify :=
    normalScan (scanNormal Ranges.zero (p.round output))
  calc ((p.round output).round output).round output
      = (p.round output).simplify.simplify.dropDead output := by rw [second]; rfl
    _ = (p.round output).simplify.dropDead output := by rw [third]
    _ = (p.round output).round output := rfl

theorem stableForm {output : Register} {maxRounds : Int} {p : Program} {s : Stable}
    (stable : p.stabilize output maxRounds = .ok s) :
    s.program = (p.round output).simplify := by
  have settled : s.program.round output = s.program := settledStable (stabilized.mp stable)
  rw [← roundTwice]
  have reached : s.program = p ∨ s.program = p.round output ∨
      s.program = (p.round output).round output := by
    refine stabilizeKeeps (P := fun q => q = p ∨ q = p.round output ∨
      q = (p.round output).round output) ?_ (.inl rfl) stable
    rintro q (rfl | rfl | rfl)
    · exact .inr (.inl rfl)
    · exact .inr (.inr rfl)
    · exact .inr (.inr (roundThrice output p))
  rcases reached with same | same | same
  · rw [same] at settled ⊢
    rw [settled, settled]
  · rw [same] at settled ⊢
    exact settled.symm
  · exact same

theorem settleWithinThree (output : Register) (p : Program) {left : Nat} (enough : 3 ≤ left) :
    ∃ s, settle output left 0 p = some s ∧ s.rounds ≤ 3 := by
  obtain ⟨more, rfl⟩ := Nat.exists_eq_add_of_le' enough
  rw [settleStep]
  split
  · exact ⟨_, rfl, by simp⟩
  · rw [settleStep]
    split
    · exact ⟨_, rfl, by simp⟩
    · rw [settleStep, if_pos (roundThrice output p)]
      exact ⟨_, rfl, by simp⟩

theorem stabilizeWithinThree (output : Register) (p : Program) {maxRounds : Int}
    (enough : 3 ≤ maxRounds) : ∃ s, p.stabilize output maxRounds = .ok s ∧ s.rounds ≤ 3 := by
  have enoughLeft : 3 ≤ maxRounds.toNat := by omega
  obtain ⟨s, settled, few⟩ := settleWithinThree output p enoughLeft
  exact ⟨s, stabilized.mpr settled, few⟩

theorem stabilizeConverges (output : Register) (p : Program) :
    (∀ maxRounds, 3 ≤ maxRounds → ∃ s, p.stabilize output maxRounds = .ok s ∧ s.rounds ≤ 3) ∧
      ∀ e, p.stabilize output defaultMaxRounds ≠ .error e := by
  refine ⟨fun maxRounds enough => stabilizeWithinThree output p enough, ?_⟩
  intro e diverged
  have enough : 3 ≤ defaultMaxRounds := by decide
  obtain ⟨s, stable, _⟩ := stabilizeWithinThree output p enough
  rw [stable] at diverged
  cases diverged

theorem stabilizeConvergesThird :
    let p : Program := [.read .w, .update .add .z (.reg .w), .update .mul .z (.const 0)]
    p.stabilize .z 3 = .ok ⟨[.read .w], 3⟩ ∧
      ∃ s, p.stabilize .z 3 = .ok s ∧ s.rounds ≤ 3 := by
  intro p
  have third : p.stabilize .z 3 = .ok ⟨[.read .w], 3⟩ := stabilized.mpr (by decide +kernel)
  exact ⟨third, (stabilizeConverges .z p).1 3 (by decide)⟩

end Program
end StraightLine
