import Mathlib.Data.Finset.Range
import StraightLine.Proofs.Liveness.Refinement

/-! Dropped instructions put back. Whichever of the dropped instructions stand in their places
again, a run of that code that ends normally leaves in the output register what the code without
any of them leaves there, and that code ends normally too. With all of them back, the code is the
original program. -/
namespace StraightLine

theorem Live.chosenBetween {atEnd : Live} {chosen : Nat → Bool} {is : List Instruction} {k : Nat}
    (covers : ∀ n, ((sweep atEnd is).map Visit.kept)[n]? = some true → chosen (k + n) = true) :
    Between atEnd is (((is.zipIdx k).filter fun entry => chosen entry.2).map Prod.fst) := by
  induction is generalizing k with
  | nil => exact .nil
  | cons i rest ih =>
    rw [sweepKept] at covers
    have later : ∀ n, ((sweep atEnd rest).map Visit.kept)[n]? = some true →
        chosen (k + 1 + n) = true := by
      intro n kept
      rw [Nat.add_assoc, Nat.add_comm 1 n]
      exact covers (n + 1) kept
    rw [List.zipIdx_cons, List.filter_cons]
    split
    · exact .stays (ih later)
    · rename_i left
      have dead : (atEnd.entering rest).needs i = false := by
        cases needed : (atEnd.entering rest).needs i with
        | false => rfl
        | true => exact absurd (covers 0 (congrArg some needed)) left
      exact .goes dead (ih later)

namespace Program

/- A position has its instruction when the mask keeps it or when it is one of those put back. -/
def present (output : Register) (back : Finset Nat) (p : Program) (k : Nat) : Bool :=
  (p.liveMask output)[k]? = some true ∨ k ∈ back

def restored (output : Register) (back : Finset Nat) (p : Program) : Program :=
  (p.zipIdx.filter fun entry => p.present output back entry.2).map Prod.fst

theorem restoredAll (output : Register) (p : Program) :
    p.restored output (Finset.range p.length) = p := by
  have everything : (p.zipIdx.filter fun entry =>
      p.present output (Finset.range p.length) entry.2) = p.zipIdx := by
    refine List.filter_eq_self.mpr fun entry listed => ?_
    have within : entry.2 < 0 + p.length := List.snd_lt_add_of_mem_zipIdx listed
    rw [Nat.zero_add] at within
    exact decide_eq_true (.inr (Finset.mem_range.mpr within))
  rw [restored, everything, List.zipIdx_map_fst]

theorem restoredRefines (output : Register) (back : Finset Nat) (p : Program) (m : Machine) :
    (Live.observing output).Refines (m.run (p.restored output back))
      (m.run (p.dropDead output)) := by
  have covers : ∀ n, (p.liveMask output)[n]? = some true →
      p.present output back (0 + n) = true := by
    intro n kept
    rw [Nat.zero_add]
    exact decide_eq_true (.inl kept)
  exact Live.betweenRun (Live.chosenBetween covers) (Live.alikeSelf _ m)

theorem restoredOutput (output : Register) (p : Program) (registers : Registers)
    (inputs : List Int) :
    (∀ back final, execute (p.restored output back) inputs registers = .ok final →
      ∃ other, execute (p.dropDead output) inputs registers = .ok other ∧
        other.get output = final.get output) ∧
    (∀ final, execute p inputs registers = .ok final →
      ∃ other, execute (p.dropDead output) inputs registers = .ok other ∧
        other.get output = final.get output) := by
  have kept : ∀ back final, execute (p.restored output back) inputs registers = .ok final →
      ∃ other, execute (p.dropDead output) inputs registers = .ok other ∧
        other.get output = final.get output :=
    fun back final ran => Live.refinedOutput (restoredRefines output back p _) ran
  refine ⟨kept, ?_⟩
  intro final ran
  rw [← restoredAll output p] at ran
  exact kept (Finset.range p.length) final ran

theorem restoredOutputAliased :
    let p : Program := [.read .w, .update .add .x (.const 13), .update .div .y (.reg .w),
      .update .set .x (.reg .w), .update .add .z (.reg .x), .update .set .y (.reg .y), .read .x]
    let q : Program := [.read .w, .update .add .x (.const 13), .update .div .y (.reg .w),
      .update .set .x (.reg .w), .update .add .z (.reg .x), .read .x]
    p.restored .z {1, 2} = q ∧ execute q [-5, 8] ⟨3, -4, 7, 2⟩ = .ok ⟨-5, 8, -1, -3⟩ ∧
      ∃ other, execute (p.dropDead .z) [-5, 8] ⟨3, -4, 7, 2⟩ = .ok other ∧ other.z = -3 := by
  intro p q
  have back : p.restored .z {1, 2} = q := by decide +kernel
  have ran : execute q [-5, 8] ⟨3, -4, 7, 2⟩ = .ok ⟨-5, 8, -1, -3⟩ := rfl
  have kept := (restoredOutput .z p ⟨3, -4, 7, 2⟩ [-5, 8]).1 {1, 2} ⟨-5, 8, -1, -3⟩
  rw [back] at kept
  exact ⟨back, ran, kept ran⟩

end Program
end StraightLine
