import Mathlib.Data.List.Forall2
import Mathlib.Order.Fin.Basic
import StraightLine.Proofs.Fixpoint.Thinning
import StraightLine.Proofs.Segment.Partition

/-! Where optimized instructions come from. Every instruction of thinned code has a place of its own
in the code before, in the same order, and every read keeps its place. So the reads cut both codes
into as many slices, and each slice of the thinned code is no longer than the one it comes from. -/
namespace StraightLine

/- The places that instructions have in the code they come from. -/
structure Placed (is js : List Instruction) (place : Fin js.length → Fin is.length) : Prop where
  increasing : StrictMono place
  recasts : ∀ k, Recasts (is.get (place k)) (js.get k)
  reads : ∀ n, (is.get n).isRead = true → ∃ k, place k = n

theorem thinsPlaced {is js : List Instruction} (thins : Thins is js) :
    ∃ place, Placed is js place := by
  induction thins with
  | nil => exact ⟨Fin.elim0, nofun, nofun, nofun⟩
  | @stays i j rest more recasts tail ih =>
    obtain ⟨place, increasing, each, reads⟩ := ih
    refine ⟨Fin.cases 0 fun k => (place k).succ, ?_, ?_, ?_⟩
    · intro a b before
      cases a using Fin.cases with
      | zero =>
        cases b using Fin.cases with
        | zero => exact absurd before (lt_irrefl _)
        | succ b => exact Fin.succ_pos _
      | succ a =>
        cases b using Fin.cases with
        | zero => exact absurd before (Fin.not_lt_zero _)
        | succ b => exact Fin.succ_lt_succ_iff.mpr (increasing (Fin.succ_lt_succ_iff.mp before))
    · intro k
      cases k using Fin.cases with
      | zero => exact recasts
      | succ k => exact each k
    · intro n readsHere
      cases n using Fin.cases with
      | zero => exact ⟨0, rfl⟩
      | succ n =>
        obtain ⟨k, same⟩ := reads n readsHere
        exact ⟨k.succ, congrArg Fin.succ same⟩
  | @goes i rest more quiet tail ih =>
    obtain ⟨place, increasing, each, reads⟩ := ih
    refine ⟨fun k => (place k).succ, ?_, each, ?_⟩
    · intro a b before
      exact Fin.succ_lt_succ_iff.mpr (increasing before)
    · intro n readsHere
      cases n using Fin.cases with
      | zero => exact absurd readsHere (by simp [quiet])
      | succ n =>
        obtain ⟨k, same⟩ := reads n readsHere
        exact ⟨k, congrArg Fin.succ same⟩

namespace Segment

theorem cutThins {is js : List Instruction} (thins : Thins is js) :
    (cut js).1.length ≤ (cut is).1.length ∧
      List.Forall₂ (fun less more => less.length ≤ more.length) (cut js).2 (cut is).2 := by
  induction thins with
  | nil => exact ⟨Nat.le_refl 0, .nil⟩
  | @stays i j rest more recasts tail ih =>
    obtain ⟨lead, slices⟩ := ih
    simp only [cut, recasts.read]
    split
    · exact ⟨Nat.le_refl 0, .cons (Nat.succ_le_succ lead) slices⟩
    · exact ⟨Nat.succ_le_succ lead, slices⟩
  | @goes i rest more quiet tail ih =>
    obtain ⟨lead, slices⟩ := ih
    simp only [cut, quiet]
    exact ⟨Nat.le_succ_of_le lead, slices⟩

end Segment

namespace Program
variable {output : Register} {maxRounds : Int} {p q : Program} {s : Stable} {dst : Register}

theorem segmentsThin (thins : Thins p q) (opens : p.head? = some (.read dst)) :
    ∃ before after, p.segments = .ok before ∧ q.segments = .ok after ∧
      List.Forall₂ (fun less more => less.instructions.length ≤ more.instructions.length)
        after before := by
  refine ⟨_, _, segmentsOpened opens, segmentsOpened (thinsOpens thins opens), ?_⟩
  have slices := (Segment.cutThins thins).2
  rw [← Segment.numberedSlices (Segment.cut q).2, ← Segment.numberedSlices (Segment.cut p).2,
    List.forall₂_map_left_iff, List.forall₂_map_right_iff] at slices
  exact slices

theorem stabilizePlaces (stable : p.stabilize output maxRounds = .ok s) :
    (∃ place, Placed p s.program place) ∧
    s.program.filter Instruction.isRead = p.filter Instruction.isRead ∧
    ∀ dst, p.head? = some (.read dst) →
      s.program.head? = some (.read dst) ∧
      ∃ before after, p.segments = .ok before ∧ s.program.segments = .ok after ∧
        after.length = before.length ∧
        List.Forall₂ (fun less more => less.instructions.length ≤ more.instructions.length)
          after before := by
  have thins := stableThins stable
  refine ⟨thinsPlaced thins, thinsReads thins, fun dst opens => ⟨thinsOpens thins opens, ?_⟩⟩
  obtain ⟨before, after, cut, cutToo, shorter⟩ := segmentsThin thins opens
  exact ⟨before, after, cut, cutToo, shorter.length_eq, shorter⟩

theorem stabilizePlacesSigned :
    let p : Program := [.read .w, .update .mul .x (.const 0), .update .add .z (.reg .w), .read .x,
      .update .mul .x (.const (-2)), .update .add .y (.reg .x), .update .add .z (.reg .x)]
    let q : Program := [.read .w, .update .set .z (.reg .w), .read .x,
      .update .mul .x (.const (-2)), .update .add .z (.reg .x)]
    p.stabilize .z 100 = .ok ⟨q, 2⟩ ∧ (∃ place, Placed p q place) ∧
      q.filter Instruction.isRead = [.read .w, .read .x] ∧
      ∃ before after, p.segments = .ok before ∧ q.segments = .ok after ∧
        after.length = before.length ∧
        List.Forall₂ (fun less more => less.instructions.length ≤ more.instructions.length)
          after before := by
  intro p q
  have stable : p.stabilize .z 100 = .ok ⟨q, 2⟩ := stabilized.mpr (by decide +kernel)
  obtain ⟨places, reads, opened⟩ := stabilizePlaces stable
  exact ⟨stable, places, reads, (opened .w rfl).2⟩

end Program
end StraightLine
