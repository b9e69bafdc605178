import Mathlib.Data.Nat.Find
import Mathlib.Order.Bounds.Basic
import StraightLine.Proofs.Fixpoint.Convergence
import StraightLine.Proofs.Text.Numeral

/-! The round that ends optimization. It is the first one that changes nothing, the cap permitting,
and what is stable then is the program before it. A cap that comes too early is reported, unless it
is too long a number to be shown. A stable program is left alone by each of the two passes by
itself, so that no cap and no further optimization makes a difference to it. -/
namespace StraightLine

structure Unstable.Tells (maxRounds : Int) (e : Unstable) : Prop where
  written : Text.Numeral.isWritable maxRounds = true → e.kind = .nonTermination ∧
    e.message = .ok ("optimizer did not reach a fixpoint within " ++
      String.ofList (Text.Numeral.text maxRounds) ++ " rounds")
  unwritten : Text.Numeral.isWritable maxRounds = false → e.kind = .invalidValue ∧
    e.message = .ok (Text.Overlong.message {})

namespace Program
variable {output : Register} {maxRounds : Int} {p : Program} {s : Stable}

/- The rounds that change nothing, counted from one. -/
def quietRounds (output : Register) (p : Program) : Set Nat :=
  {n | 1 ≤ n ∧ (round output)^[n] p = (round output)^[n - 1] p}

theorem firstQuiet {k : Nat} :
    IsLeast (p.quietRounds output) (k + 1) ↔
      (round output)^[k + 1] p = (round output)^[k] p ∧
        ∀ j < k, (round output)^[j + 1] p ≠ (round output)^[j] p := by
  constructor
  · rintro ⟨⟨_, still⟩, least⟩
    refine ⟨still, fun j before same => ?_⟩
    have earlier : k + 1 ≤ j + 1 := least ⟨Nat.succ_pos j, same⟩
    omega
  · rintro ⟨still, changed⟩
    refine ⟨⟨Nat.succ_pos k, still⟩, ?_⟩
    rintro n ⟨positive, same⟩
    obtain ⟨j, rfl⟩ := Nat.exists_eq_succ_of_ne_zero (Nat.ne_of_gt positive)
    by_contra before
    exact changed j (by omega) same

theorem leastQuiet {n : Nat} (quiet : n ∈ p.quietRounds output) :
    ∃ m ≤ n, IsLeast (p.quietRounds output) m := by
  classical
  have inhabited : ∃ m, m ∈ p.quietRounds output := ⟨n, quiet⟩
  exact ⟨Nat.find inhabited, Nat.find_min' inhabited quiet, Nat.find_spec inhabited,
    fun _ => Nat.find_min' inhabited⟩

theorem stabilizedFirst :
    p.stabilize output maxRounds = .ok s ↔
      IsLeast (p.quietRounds output) s.rounds ∧ (s.rounds : Int) ≤ maxRounds ∧
        s.program = (round output)^[s.rounds - 1] p := by
  rw [stabilized, settledFirst]
  constructor
  · rintro ⟨k, within, rfl, first⟩
    simp only [Nat.zero_add]
    exact ⟨firstQuiet.mpr first, by omega, rfl⟩
  · rintro ⟨first, within, program⟩
    obtain ⟨k, count⟩ := Nat.exists_eq_succ_of_ne_zero (Nat.ne_of_gt first.1.1)
    have same : s = ⟨(round output)^[k] p, 0 + k + 1⟩ := by
      calc s = ⟨s.program, s.rounds⟩ := rfl
        _ = ⟨(round output)^[k] p, 0 + k + 1⟩ := by rw [program, count, Nat.zero_add]; rfl
    rw [count] at first
    exact ⟨k, by omega, same, firstQuiet.mp first⟩

theorem unstableCap {e : Unstable} (failed : p.stabilize output maxRounds = .error e) :
    e = (Unstable.within maxRounds).raised := by
  unfold stabilize at failed
  split at failed <;> cases failed
  rfl

theorem unstableLate {e : Unstable} :
    p.stabilize output maxRounds = .error e ↔
      e = (Unstable.within maxRounds).raised ∧
        ∀ n ∈ p.quietRounds output, maxRounds < (n : Int) := by
  constructor
  · intro failed
    refine ⟨unstableCap failed, fun n quiet => ?_⟩
    obtain ⟨m, before, least⟩ := leastQuiet quiet
    by_contra within
    have stable : p.stabilize output maxRounds = .ok ⟨(round output)^[m - 1] p, m⟩ :=
      stabilizedFirst.mpr ⟨least, by dsimp only; omega, rfl⟩
    rw [stable] at failed
    cases failed
  · rintro ⟨rfl, late⟩
    cases ended : p.stabilize output maxRounds with
    | error e => rw [unstableCap ended]
    | ok s =>
      obtain ⟨first, within, _⟩ := stabilizedFirst.mp ended
      have beyond := late s.rounds first.1
      omega

theorem unstableTells {e : Unstable} (failed : p.stabilize output maxRounds = .error e) :
    e.Tells maxRounds := by
  rw [unstableCap failed, Unstable.withinRaised]
  cases writable : Text.Numeral.isWritable maxRounds with
  | true =>
    refine ⟨fun _ => ⟨rfl, ?_⟩, fun unwritable => nomatch writable.symm.trans unwritable⟩
    rw [if_pos rfl, Unstable.message, Text.Numeral.renderWritable writable]
    rfl
  | false => exact ⟨fun written => (nomatch writable.symm.trans written), fun _ => ⟨rfl, rfl⟩⟩

theorem stablePasses (stable : p.stabilize output maxRounds = .ok s) :
    s.program.simplify = s.program ∧ s.program.dropDead output = s.program := by
  have settled : s.program.round output = s.program := settledStable (stabilized.mp stable)
  have scanned : s.program.simplify = s.program := by
    have twice := roundTwice output s.program
    rw [settled, settled] at twice
    exact twice.symm
  refine ⟨scanned, ?_⟩
  rwa [round, scanned] at settled

theorem stableAgain (stable : p.stabilize output maxRounds = .ok s) {cap : Int}
    (positive : 1 ≤ cap) : s.program.stabilize output cap = .ok ⟨s.program, 1⟩ := by
  have settled : s.program.round output = s.program := settledStable (stabilized.mp stable)
  exact stabilizedFirst.mpr ⟨firstQuiet.mpr ⟨settled, nofun⟩, positive, rfl⟩

theorem stableUnique {cap : Int} {t : Stable} (stable : p.stabilize output maxRounds = .ok s)
    (other : p.stabilize output cap = .ok t) : t = s := by
  obtain ⟨first, _, program⟩ := stabilizedFirst.mp stable
  obtain ⟨firstToo, _, programToo⟩ := stabilizedFirst.mp other
  calc t = ⟨t.program, t.rounds⟩ := rfl
    _ = ⟨s.program, s.rounds⟩ := by rw [programToo, program, firstToo.unique first]
    _ = s := rfl

end Program
end StraightLine
