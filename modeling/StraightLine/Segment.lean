import StraightLine.Program

/-! Segments. A program that starts with an input read falls into one segment for each read: the
read and everything up to the next one. -/
namespace StraightLine

structure Segment where
  index : Nat
  instructions : List Instruction
  deriving DecidableEq, Repr

structure NoOpeningRead where
  deriving DecidableEq, Repr

def NoOpeningRead.kind (_ : NoOpeningRead) : ErrorKind := .malformedProgram

def NoOpeningRead.message (_ : NoOpeningRead) : String := "program must start with an input read"

namespace Segment

def render (s : Segment) : Except Text.Overlong String := do
  return s!"[segment {s.index}]\n" ++ (← Program.renderListing s.instructions)

/-- What comes before the first read, and one slice from each read up to the next. -/
def cut : List Instruction → List Instruction × List (List Instruction)
  | [] => ([], [])
  | i :: rest =>
    let (lead, slices) := cut rest
    if i.isRead then ([], (i :: lead) :: slices) else (i :: lead, slices)

theorem cutFlatten (is : List Instruction) : (cut is).1 ++ (cut is).2.flatten = is := by
  induction is with
  | nil => rfl
  | cons i rest ih =>
    simp only [cut]
    split <;> simp [ih]

end Segment

namespace Program

def segments (p : Program) : Except NoOpeningRead (List Segment) :=
  match p with
  | .read _ :: _ => .ok ((Segment.cut p).2.mapIdx Segment.mk)
  | _ => .error {}

end Program
end StraightLine
