import Mathlib.Logic.Function.Iterate
import StraightLine.Fixpoint

/-! What all rounds keep. They end with the first one that changes nothing, and a property of
programs that one round keeps holds of the stable program. -/
namespace StraightLine.Program

theorem settleStep (output : Register) (left passed : Nat) (p : Program) :
    settle output (left + 1) passed p =
      if p.round output = p then some ⟨p, passed + 1⟩
      else settle output left (passed + 1) (p.round output) := rfl

theorem settledFirst {output : Register} {left passed : Nat} {p : Program} {s : Stable} :
    settle output left passed p = some s ↔
      ∃ k < left, s = ⟨(round output)^[k] p, passed + k + 1⟩ ∧
        (round output)^[k + 1] p = (round output)^[k] p ∧
        ∀ j < k, (round output)^[j + 1] p ≠ (round output)^[j] p := by
  induction left generalizing passed p with
  | zero => simp [settle]
  | succ left ih =>
    rw [settleStep]
    split
    · rename_i same
      constructor
      · intro found
        cases found
        exact ⟨0, Nat.succ_pos left, rfl, same, nofun⟩
      · rintro ⟨k, _, rfl, _, changed⟩
        cases k with
        | zero => rfl
        | succ k => exact absurd same (changed 0 (Nat.succ_pos k))
    · rename_i changes
      rw [ih]
      constructor
      · rintro ⟨k, within, rfl, still, changed⟩
        refine ⟨k + 1, Nat.succ_lt_succ within, congrArg (Stable.mk _) (by omega), still, ?_⟩
        intro j before
        cases j with
        | zero => exact changes
        | succ j => exact changed j (Nat.lt_of_succ_lt_succ before)
      · rintro ⟨k, within, rfl, still, changed⟩
        cases k with
        | zero => exact absurd still changes
        | succ k =>
          exact ⟨k, Nat.lt_of_succ_lt_succ within, congrArg (Stable.mk _) (by omega), still,
            fun j before => changed (j + 1) (Nat.succ_lt_succ before)⟩

theorem stabilized {output : Register} {maxRounds : Int} {p : Program} {s : Stable} :
    p.stabilize output maxRounds = .ok s ↔ settle output maxRounds.toNat 0 p = some s := by
  unfold stabilize
  cases settle output maxRounds.toNat 0 p <;> simp

theorem stabilizeKeeps {output : Register} {P : Program → Prop}
    (round : ∀ p, P p → P (p.round output)) {maxRounds : Int} {p : Program} {s : Stable}
    (start : P p) (stable : p.stabilize output maxRounds = .ok s) : P s.program := by
  obtain ⟨k, _, rfl, _⟩ := settledFirst.mp (stabilized.mp stable)
  exact Function.Iterate.rec P start round k

end StraightLine.Program
