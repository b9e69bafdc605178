import StraightLine.Liveness
import StraightLine.Ranges

/-! Agreement on live registers. Two tables agree under liveness when they have the same entries for
every live register. Agreement before a kept instruction covers what the instruction reads, and a
write keeps agreement when both tables take the same entry or the register is dead. -/
namespace StraightLine
namespace Instruction

def Overwrites : Instruction → Register → Prop
  | .read dst, r => dst = r
  | .update op dst _, r => op = .set ∧ dst = r

theorem overwritesDestination {i : Instruction} {r : Register} (overwrites : i.Overwrites r) :
    i.dst = r := by
  cases i with
  | read dst => exact overwrites
  | update op dst src => exact overwrites.2

end Instruction

namespace Live
variable {α : Type}

def Agree (live : Live) (t u : PerRegister α) : Prop :=
  ∀ r, live.get r = true → t.get r = u.get r

def Le (small large : Live) : Prop := ∀ r, small.get r = true → large.get r = true

theorem agreeSelf (live : Live) (t : PerRegister α) : live.Agree t t := fun _ _ => rfl

theorem agreeThrough {live : Live} {t u v : PerRegister α} (first : live.Agree t u)
    (second : live.Agree u v) : live.Agree t v :=
  fun r alive => (first r alive).trans (second r alive)

theorem agreeBothSet {live : Live} {t u : PerRegister α} {dst : Register}
    (agree : ∀ r, r ≠ dst → live.get r = true → t.get r = u.get r) (a : α) :
    live.Agree (t.set dst a) (u.set dst a) := by
  intro r alive
  rw [PerRegister.getSet, PerRegister.getSet]
  split
  · rfl
  · exact agree r (by assumption) alive

theorem agreeDeadSet {live : Live} {t u : PerRegister α} {dst : Register}
    (dead : live.get dst = false) (agree : live.Agree t u) (a : α) :
    live.Agree (t.set dst a) u := by
  intro r alive
  have other : r ≠ dst := by
    intro same
    rw [same, dead] at alive
    cases alive
  rw [PerRegister.getSetOther t a other]
  exact agree r alive

theorem observingOutput (output : Register) : (observing output).get output = true :=
  PerRegister.getSetSame _ _ _

theorem clearedGet {live : Live} {dst r : Register} :
    (live.set dst false).get r = true ↔ dst ≠ r ∧ live.get r = true := by
  rw [PerRegister.getSet]
  split
  · rename_i same
    simp [same]
  · rename_i other
    simp [Ne.symm other]

theorem transferGet {after : Live} {i : Instruction} {r : Register} :
    (after.transfer i).get r = true ↔
      i.operand? = some (.reg r) ∨ ¬ i.Overwrites r ∧ after.get r = true := by
  cases i with
  | read dst =>
    rw [transfer, clearedGet]
    simp [Instruction.operand?, Instruction.Overwrites]
  | update op dst src =>
    have old : (if op = .set then after.set dst false else after).get r = true ↔
        ¬ (Instruction.update op dst src).Overwrites r ∧ after.get r = true := by
      split
      · rename_i overwrites
        rw [clearedGet]
        simp [Instruction.Overwrites, overwrites]
      · rename_i modifies
        simp [Instruction.Overwrites, modifies]
    cases src with
    | const n => simpa [transfer, Instruction.operand?] using old
    | reg source =>
      simp only [transfer, Instruction.operand?, PerRegister.getSet]
      split
      · rename_i same
        simp [same]
      · rename_i other
        simpa [Ne.symm other] using old

theorem transferOther {after : Live} {i : Instruction} {r : Register} (other : r ≠ i.dst)
    (alive : after.get r = true) : (after.transfer i).get r = true :=
  transferGet.mpr (.inr ⟨fun overwrites => other (i.overwritesDestination overwrites).symm, alive⟩)

theorem transferDestination {after : Live} {op : Operation} {dst : Register} {src : Operand}
    (reads : op ≠ .set) (alive : after.get dst = true) :
    (after.transfer (.update op dst src)).get dst = true :=
  transferGet.mpr (.inr ⟨fun overwrites => reads overwrites.1, alive⟩)

theorem transferSource (after : Live) (op : Operation) (dst r : Register) :
    (after.transfer (.update op dst (.reg r))).get r = true :=
  transferGet.mpr (.inl rfl)

theorem clearedLe (live : Live) (dst : Register) : Le (live.set dst false) live :=
  fun _ alive => (clearedGet.mp alive).2

theorem transferLe {small large : Live} (le : small.Le large) (i : Instruction) :
    (small.transfer i).Le (large.transfer i) := by
  intro r alive
  exact transferGet.mpr ((transferGet.mp alive).imp_right (And.imp_right (le r)))

theorem needsLe {small large : Live} (le : small.Le large) {i : Instruction}
    (needed : small.needs i = true) : large.needs i = true := by
  simp only [needs, Bool.or_eq_true] at needed ⊢
  exact needed.imp_right (le i.dst)

theorem operandAgree {after : Live} {op : Operation} {dst : Register} {src : Operand}
    {registers others : Registers}
    (agree : (after.transfer (.update op dst src)).Agree registers others) :
    src.eval registers = src.eval others := by
  cases src with
  | const n => rfl
  | reg r => exact agree r (transferSource after op dst r)

theorem operandRangeAgree {after : Live} {op : Operation} {dst : Register} {src : Operand}
    {s t : Ranges} (agree : (after.transfer (.update op dst src)).Agree s t) :
    s.ofOperand src = t.ofOperand src := by
  cases src with
  | const n => rfl
  | reg r => exact agree r (transferSource after op dst r)

/- The sweep from the last instruction to the first, seen from the front: the liveness on entry and
the instructions that stay. -/
def entering (atEnd : Live) (is : List Instruction) : Live := atEnd.before (sweep atEnd is)

def retained (atEnd : Live) (is : List Instruction) : List Instruction :=
  ((is.zip ((sweep atEnd is).map Visit.kept)).filter Prod.snd).map Prod.fst

variable {atEnd : Live} {i : Instruction} {rest : List Instruction}

theorem sweepKept (atEnd : Live) (i : Instruction) (rest : List Instruction) :
    (sweep atEnd (i :: rest)).map Visit.kept =
      (atEnd.entering rest).needs i :: (sweep atEnd rest).map Visit.kept := by
  simp only [sweep]
  split
  · rename_i needed
    exact congrArg (· :: _) needed.symm
  · rename_i dead
    exact congrArg (· :: _) (Bool.eq_false_iff.mpr dead).symm

theorem enteringKept (needed : (atEnd.entering rest).needs i = true) :
    atEnd.entering (i :: rest) = (atEnd.entering rest).transfer i := by
  simp only [entering, sweep] at needed ⊢
  rw [if_pos needed]
  rfl

theorem enteringDropped (dead : (atEnd.entering rest).needs i = false) :
    atEnd.entering (i :: rest) = atEnd.entering rest := by
  simp only [entering, sweep] at dead ⊢
  rw [if_neg (by simp [dead])]
  rfl

theorem retainedKept (needed : (atEnd.entering rest).needs i = true) :
    atEnd.retained (i :: rest) = i :: atEnd.retained rest := by
  rw [retained, sweepKept, needed]
  rfl

theorem retainedDropped (dead : (atEnd.entering rest).needs i = false) :
    atEnd.retained (i :: rest) = atEnd.retained rest := by
  rw [retained, sweepKept, dead]
  rfl

theorem retainedProgram (output : Register) (p : Program) :
    p.dropDead output = (observing output).retained p := rfl

theorem deadUpdate {live : Live} (dead : live.needs i = false) :
    (∃ op dst src, i = .update op dst src) ∧ live.get i.dst = false := by
  simp only [needs, Bool.or_eq_false_iff] at dead
  refine ⟨?_, dead.2⟩
  cases i with
  | read dst => cases dead.1
  | update op dst src => exact ⟨op, dst, src, rfl⟩

theorem neededUpdate {live : Live} {op : Operation} {dst : Register} {src : Operand}
    (needed : live.needs (.update op dst src) = true) : live.get dst = true := by
  simpa [needs, Instruction.isRead, Instruction.dst] using needed

end Live
end StraightLine
