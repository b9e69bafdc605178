import StraightLine.Segment

/-! The partition into segments. A slice is a read and the instructions up to the next one. A
program that starts with a read falls into slices, one for each read, and is their
concatenation. -/
namespace StraightLine

def Slice (is : List Instruction) : Prop :=
  ∃ dst body, is = .read dst :: body ∧ ∀ i ∈ body, i.isRead = false

namespace Segment

theorem cutLead (is : List Instruction) : ∀ i ∈ (cut is).1, i.isRead = false := by
  induction is with
  | nil => simp [cut]
  | cons i rest ih =>
    simp only [cut]
    split
    · simp
    · rename_i quiet
      intro j mem
      rcases List.mem_cons.mp mem with rfl | later
      · simpa using quiet
      · exact ih j later

theorem cutSlices (is : List Instruction) : ∀ slice ∈ (cut is).2, Slice slice := by
  induction is with
  | nil => simp [cut]
  | cons i rest ih =>
    simp only [cut]
    split
    · intro slice mem
      rcases List.mem_cons.mp mem with rfl | later
      · cases i with
        | read dst => exact ⟨dst, (cut rest).1, rfl, cutLead rest⟩
        | update op dst src => contradiction
      · exact ih slice later
    · exact ih

theorem cutCount (is : List Instruction) : (cut is).2.length = Program.inputCount is := by
  induction is with
  | nil => rfl
  | cons i rest ih =>
    simp only [Program.inputCount] at ih
    simp only [cut, Program.inputCount, List.countP_cons]
    split <;> simp [*]

theorem numberedSlices (slices : List (List Instruction)) :
    (slices.mapIdx Segment.mk).map Segment.instructions = slices := by
  apply List.ext_getElem?
  intro n
  rw [List.getElem?_map, List.getElem?_mapIdx, Option.map_map]
  exact congrFun Option.map_id slices[n]?

theorem numberedIndices (slices : List (List Instruction)) :
    (slices.mapIdx Segment.mk).map Segment.index = List.range slices.length := by
  apply List.ext_getElem
  · simp
  · intro n _ _
    simp

end Segment

namespace Program

theorem segmentsOpened {p : Program} {dst : Register} (opens : p.head? = some (.read dst)) :
    p.segments = .ok ((Segment.cut p).2.mapIdx Segment.mk) := by
  cases p with
  | nil => cases opens
  | cons i rest => cases opens; rfl

theorem segmentsPartition {p : Program} {dst : Register} (opens : p.head? = some (.read dst)) :
    ∃ segments, p.segments = .ok segments ∧ segments.flatMap Segment.instructions = p ∧
      segments.length = p.inputCount ∧ ∀ s ∈ segments, Slice s.instructions := by
  cases p with
  | nil => cases opens
  | cons i rest =>
    cases opens
    have bodies := Segment.numberedSlices (Segment.cut (.read dst :: rest)).2
    refine ⟨_, rfl, ?_, ?_, ?_⟩
    · rw [List.flatMap_def, bodies]
      exact Segment.cutFlatten (.read dst :: rest)
    · rw [List.length_mapIdx]
      exact Segment.cutCount (.read dst :: rest)
    · intro s mem
      apply Segment.cutSlices (.read dst :: rest)
      rw [← bodies]
      exact List.mem_map_of_mem mem

theorem segmentsCut {p : Program} {segments : List Segment} (cut : p.segments = .ok segments) :
    segments.flatMap Segment.instructions = p ∧ segments.length = p.inputCount ∧
      segments ≠ [] ∧ ∀ s ∈ segments, Slice s.instructions := by
  have opens : ∃ dst, p.head? = some (.read dst) := by
    unfold Program.segments at cut
    split at cut
    · exact ⟨_, rfl⟩
    · cases cut
  obtain ⟨dst, first⟩ := opens
  obtain ⟨others, same, joined, count, slices⟩ := segmentsPartition first
  rw [cut] at same
  cases same
  refine ⟨joined, count, ?_, slices⟩
  intro empty
  rw [← joined, empty] at first
  cases first

end Program
end StraightLine
