import StraightLine.Proofs.Liveness.Refinement
import StraightLine.Proofs.Segment.Prefix

/-! Current registers. Where the code stops before a read, a register is current when the last
instruction that has written it is one that stays; without the dead instructions, the code
leaves the same contents in every current register. -/
namespace StraightLine.Live

/- The current registers before the k-th read, from those that are current on entry. A write makes
its register current when the register is live after it. -/
def current (atEnd : Live) : Nat → Live → List Instruction → Live
  | _, flags, [] => flags
  | 0, flags, .read _ :: _ => flags
  | k + 1, flags, .read dst :: rest => current atEnd k (flags.set dst true) rest
  | k, flags, .update _ dst _ :: rest =>
    current atEnd k (flags.set dst ((atEnd.entering rest).get dst)) rest

theorem agreeWritten {flags : Live} {t u : Registers} (agree : flags.Agree t u) {dst : Register}
    {flag : Bool} {a b : Int} (same : flag = true → a = b) :
    Agree (flags.set dst flag) (t.set dst a) (u.set dst b) := by
  intro r isCurrent
  rw [PerRegister.getSet] at isCurrent
  rw [PerRegister.getSet, PerRegister.getSet]
  split
  · rename_i written
    rw [if_pos written] at isCurrent
    exact same isCurrent
  · rename_i other
    rw [if_neg other] at isCurrent
    exact agree r isCurrent

section
variable {after flags : Live} {m n next : Machine} {op : Operation} {dst : Register} {src : Operand}
  (agree : flags.Agree m.registers n.registers)
include agree

theorem readCurrent (alike : (after.transfer (.read dst)).Alike m n)
    (ran : m.step (.read dst) = .ok next) :
    ∃ other, n.step (.read dst) = .ok other ∧ after.Alike next other ∧
      Agree (flags.set dst true) next.registers other.registers := by
  obtain ⟨other, follows, still⟩ := (keptStep rfl alike).2 next ran
  obtain ⟨d, _, inputs, rfl⟩ := Machine.stepRead ran
  obtain ⟨e, _, inputsToo, rfl⟩ := Machine.stepRead follows
  rw [alike.inputs, inputsToo] at inputs
  cases inputs
  exact ⟨_, follows, still, agreeWritten agree fun _ => rfl⟩

theorem keptCurrent (needed : after.needs (.update op dst src) = true)
    (alike : (after.transfer (.update op dst src)).Alike m n)
    (ran : m.step (.update op dst src) = .ok next) :
    ∃ other, n.step (.update op dst src) = .ok other ∧ after.Alike next other ∧
      Agree (flags.set dst (after.get dst)) next.registers other.registers := by
  obtain ⟨other, follows, still⟩ := (keptStep needed alike).2 next ran
  obtain ⟨d, _, rfl⟩ := Machine.stepUpdate ran
  obtain ⟨e, _, rfl⟩ := Machine.stepUpdate follows
  have same : after.get dst = true → d = e := by
    intro alive
    simpa using still.registers dst alive
  exact ⟨_, follows, still, agreeWritten agree same⟩

theorem droppedCurrent (dead : after.needs (.update op dst src) = false)
    (ran : m.step (.update op dst src) = .ok next) :
    Agree (flags.set dst (after.get dst)) next.registers n.registers := by
  obtain ⟨d, _, rfl⟩ := Machine.stepUpdate ran
  have unread : after.get dst = false := (deadUpdate dead).2
  have agreeAfter : Agree (flags.set dst (after.get dst)) (m.registers.set dst d)
      (n.registers.set dst (n.registers.get dst)) := by
    refine agreeWritten agree fun alive => ?_
    cases unread.symm.trans alive
  rwa [PerRegister.setGet] at agreeAfter

end

theorem currentRun {atEnd : Live} {is : List Instruction} {k : Nat} {flags : Live}
    {m n last : Machine} (alike : (atEnd.entering is).Alike m n)
    (agree : flags.Agree m.registers n.registers)
    (ran : m.run (Segment.beforeRead k is) = .ok last) :
    ∃ other, n.run (Segment.beforeRead k (atEnd.retained is)) = .ok other ∧
      (atEnd.current k flags is).Agree last.registers other.registers := by
  -- in lock step through what is kept, on machines alike where registers are live
  induction is generalizing k flags m n with
  | nil =>
    simp only [Segment.beforeRead] at ran
    cases ran
    exact ⟨n, by simp [retained, Segment.beforeRead, Machine.run], by simpa [current] using agree⟩
  | cons i rest ih =>
    cases i with
    | read dst =>
      have kept : (atEnd.entering rest).needs (.read dst) = true := rfl
      rw [enteringKept kept] at alike
      rw [retainedKept kept]
      cases k with
      | zero =>
        cases ran
        exact ⟨n, rfl, agree⟩
      | succ k =>
        obtain ⟨next, first, later⟩ := Machine.runFirst ran
        obtain ⟨other, follows, still, currently⟩ := readCurrent agree alike first
        rw [Segment.beforeRead, Machine.runStep follows]
        exact ih still currently later
    | update op dst src =>
      rw [Segment.beforeQuiet rfl] at ran
      obtain ⟨next, first, later⟩ := Machine.runFirst ran
      cases needed : (atEnd.entering rest).needs (.update op dst src) with
      | true =>
        rw [enteringKept needed] at alike
        obtain ⟨other, follows, still, currently⟩ := keptCurrent agree needed alike first
        rw [retainedKept needed, Segment.beforeQuiet rfl, Machine.runStep follows]
        exact ih still currently later
      | false =>
        rw [enteringDropped needed] at alike
        rw [retainedDropped needed]
        exact ih (droppedStep needed alike first) (droppedCurrent agree needed first) later

end StraightLine.Live
