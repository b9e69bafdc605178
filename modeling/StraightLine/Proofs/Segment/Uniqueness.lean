import StraightLine.Proofs.Segment.Partition

/-! The one way to cut a program. Where a slice begins and where it ends is settled by the reads, and
so any list of slices that joins up to a program is the list of its segments. -/
namespace StraightLine
namespace Segment

theorem cutQuiet {body : List Instruction} (quiet : ∀ i ∈ body, i.isRead = false)
    (rest : List Instruction) : cut (body ++ rest) = (body ++ (cut rest).1, (cut rest).2) := by
  induction body with
  | nil => rfl
  | cons i more ih =>
    obtain ⟨first, others⟩ := List.forall_mem_cons.mp quiet
    simp only [List.cons_append, cut, ih others, first, Bool.false_eq_true, if_false]

theorem cutJoined {slices : List (List Instruction)} (each : ∀ slice ∈ slices, Slice slice) :
    cut slices.flatten = ([], slices) := by
  induction slices with
  | nil => rfl
  | cons slice rest ih =>
    obtain ⟨first, others⟩ := List.forall_mem_cons.mp each
    obtain ⟨dst, body, rfl, quiet⟩ := first
    have tail : cut (body ++ rest.flatten) = (body, rest) := by
      rw [cutQuiet quiet, ih others, List.append_nil]
    simp only [List.flatten_cons, List.cons_append, cut, tail, Instruction.isRead, if_true]

end Segment

namespace Program

structure Divides (slices : List (List Instruction)) (p : Program) : Prop where
  joined : slices.flatten = p
  each : ∀ slice ∈ slices, Slice slice

theorem dividesUnique {slices others : List (List Instruction)} {p : Program}
    (left : Divides slices p) (right : Divides others p) : slices = others := by
  have cutLeft := Segment.cutJoined left.each
  have cutRight := Segment.cutJoined right.each
  rw [left.joined] at cutLeft
  rw [right.joined, cutLeft] at cutRight
  exact congrArg Prod.snd cutRight

theorem segmentsDivide {p : Program} {segments : List Segment} (cut : p.segments = .ok segments) :
    Divides (segments.map Segment.instructions) p := by
  obtain ⟨joined, _, _, slices⟩ := segmentsCut cut
  exact ⟨joined, List.forall_mem_map.mpr slices⟩

theorem segmentsNumbered {p : Program} {segments : List Segment}
    (cut : p.segments = .ok segments) :
    segments.map Segment.index = List.range segments.length := by
  unfold Program.segments at cut
  split at cut
  · cases cut
    rw [Segment.numberedIndices, List.length_mapIdx]
  · cases cut

theorem segmentsRefused {p : Program} :
    p.segments = .error {} ↔ p = [] ∨ ∃ i rest, p = i :: rest ∧ i.isRead = false := by
  cases p with
  | nil => simp [Program.segments]
  | cons i rest => cases i <;> simp [Program.segments, Instruction.isRead]

theorem segmentsUnique (p : Program) :
    (p.segments = .error {} ↔ p = [] ∨ ∃ i rest, p = i :: rest ∧ i.isRead = false) ∧
    (p.segments = .error {} ∨
      ∃ segments, p.segments = .ok segments ∧
        Divides (segments.map Segment.instructions) p ∧
        (∀ slices, Divides slices p → slices = segments.map Segment.instructions) ∧
        segments.map Segment.index = List.range p.inputCount ∧
        segments.length = p.inputCount) := by
  refine ⟨segmentsRefused, ?_⟩
  cases outcome : p.segments with
  | error e => exact .inl rfl
  | ok segments =>
    have divides := segmentsDivide outcome
    have count : segments.length = p.inputCount := (segmentsCut outcome).2.1
    have numbered := segmentsNumbered outcome
    rw [count] at numbered
    exact .inr ⟨segments, rfl, divides, fun _ other => dividesUnique other divides, numbered, count⟩

end Program
end StraightLine
