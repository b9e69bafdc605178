import StraightLine.Proofs.Fixpoint.Thinning
import StraightLine.Proofs.Segment.Partition

/-! What comes before a read. The first slices of a program are what comes before the read that
opens the next one, and a scan leaves of them what it makes of them alone. -/
namespace StraightLine.Segment

def beforeRead : Nat → List Instruction → List Instruction
  | _, [] => []
  | 0, .read _ :: _ => []
  | k + 1, .read dst :: rest => .read dst :: beforeRead k rest
  | k, .update op dst src :: rest => .update op dst src :: beforeRead k rest

theorem beforeQuiet {i : Instruction} (quiet : i.isRead = false) (k : Nat)
    (rest : List Instruction) : beforeRead k (i :: rest) = i :: beforeRead k rest := by
  cases i with
  | read dst => cases quiet
  | update op dst src => simp [beforeRead]

theorem beforeScan (s : Ranges) (k : Nat) (is : List Instruction) :
    beforeRead k (s.scan is).1 = (s.scan (beforeRead k is)).1 := by
  induction is generalizing s k with
  | nil => simp [Ranges.scan, beforeRead]
  | cons i rest ih =>
    cases i with
    | read dst =>
      rw [Ranges.scanRetained (simplifyOfRead s dst)]
      cases k with
      | zero => rfl
      | succ k =>
        rw [beforeRead, beforeRead, Ranges.scanRetained (simplifyOfRead s dst), ih]
    | update op dst src =>
      rw [beforeQuiet rfl]
      cases left : simplify? s (.update op dst src) with
      | none =>
        rw [Ranges.scanRemoved left, Ranges.scanRemoved left]
        exact ih s k
      | some j =>
        rw [Ranges.scanRetained left, Ranges.scanRetained left,
          beforeQuiet (simplifiedRecasts left).read, ih]

theorem beforeBody {body : List Instruction} (quiet : ∀ i ∈ body, i.isRead = false) (k : Nat)
    (rest : List Instruction) : beforeRead k (body ++ rest) = body ++ beforeRead k rest := by
  induction body with
  | nil => rfl
  | cons i more ih =>
    obtain ⟨first, others⟩ := List.forall_mem_cons.mp quiet
    rw [List.cons_append, beforeQuiet first, ih others]
    rfl

theorem beforeSlices {segments : List Segment} (slices : ∀ s ∈ segments, Slice s.instructions)
    (k : Nat) :
    beforeRead k (segments.flatMap Segment.instructions) =
      (segments.take k).flatMap Segment.instructions := by
  induction segments generalizing k with
  | nil => simp [beforeRead]
  | cons segment rest ih =>
    obtain ⟨first, others⟩ := List.forall_mem_cons.mp slices
    obtain ⟨dst, body, shape, quiet⟩ := first
    rw [List.flatMap_cons, shape]
    cases k with
    | zero => rfl
    | succ k =>
      rw [List.take_succ_cons, List.flatMap_cons, shape, List.cons_append, beforeRead,
        beforeBody quiet, ih others]
      rfl

end StraightLine.Segment
