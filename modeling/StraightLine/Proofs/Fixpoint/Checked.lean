import StraightLine.Fixpoint
import StraightLine.Proofs.Ranges.Checked

/-! Rounds with every check of the interval arithmetic made. They never fail and are the rounds
themselves, so that optimization ends with a stable program or with too few rounds, and with nothing
else. -/
namespace StraightLine.Program

def checkedSimplify (p : Program) : Except IntervalFault Program :=
  (Ranges.zero.checkedScan p).map Prod.fst

def checkedRound (output : Register) (p : Program) : Except IntervalFault Program :=
  p.checkedSimplify.map (dropDead output)

def checkedSettle (output : Register) :
    Nat → Nat → Program → Except IntervalFault (Option Stable)
  | 0, _, _ => .ok none
  | left + 1, passed, p => do
    let next ← p.checkedRound output
    if next = p then return some ⟨p, passed + 1⟩ else checkedSettle output left (passed + 1) next

def checkedStabilize (output : Register) (maxRounds : Int) (p : Program) :
    Except IntervalFault (Except Unstable Stable) :=
  (checkedSettle output maxRounds.toNat 0 p).map fun settled =>
    match settled with
    | none => .error (Unstable.within maxRounds).raised
    | some stable => .ok stable

theorem roundChecked (output : Register) (p : Program) :
    p.checkedRound output = .ok (p.round output) := by
  rw [checkedRound, checkedSimplify, Ranges.scanChecked]
  rfl

theorem settleChecked (output : Register) (left passed : Nat) (p : Program) :
    checkedSettle output left passed p = .ok (settle output left passed p) := by
  induction left generalizing passed p with
  | zero => rfl
  | succ left ih =>
    rw [checkedSettle, roundChecked, settle]
    change (if p.round output = p then _ else checkedSettle output left (passed + 1) _) = _
    rw [ih]
    split <;> rfl

theorem stabilizeChecked (output : Register) (maxRounds : Int) (p : Program) :
    p.checkedStabilize output maxRounds = .ok (p.stabilize output maxRounds) := by
  rw [checkedStabilize, settleChecked]
  rfl

end StraightLine.Program
