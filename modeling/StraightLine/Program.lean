import StraightLine.Instruction
import StraightLine.Raise
import StraightLine.Text.Line

/-! Programs: lists of instructions, with their text forms and their first checks. -/
namespace StraightLine

abbrev Program := List Instruction

namespace Program
open Text (unlines)

def inputCount (p : Program) : Nat := p.countP Instruction.isRead

def text (p : Program) : List Char := unlines (p.map Instruction.text)

def listing (p : Program) : List Char := unlines (p.map (fun i => ' ' :: ' ' :: i.text))

def isWritable (p : Program) : Bool := p.all Instruction.isWritable

def render (p : Program) : Except Text.Overlong String :=
  if p.isWritable then .ok (String.ofList p.text) else .error {}

def renderListing (p : Program) : Except Text.Overlong String :=
  if p.isWritable then .ok (String.ofList p.listing) else .error {}

def opcodeCounts (p : Program) : List (Opcode × Nat) :=
  (Opcode.all.map (fun code => (code, p.countP (·.opcode = code)))).filter (·.2 ≠ 0)

def at? (p : Program) (position : Int) : Option Instruction :=
  if position < 0 then
    let back := position + p.length
    if back < 0 then none else p[back.toNat]?
  else p[position.toNat]?

inductive OpeningError
  | empty
  | notRead (first : Instruction)
  | overlong
  deriving DecidableEq, Repr

namespace OpeningError

def kind : OpeningError → ErrorKind
  | .empty => .malformedProgram
  | .notRead _ => .malformedProgram
  | .overlong => .invalidValue

def message : OpeningError → Except Text.Overlong String
  | .empty => .ok "program is empty"
  | .notRead first => do
    return "program must start with an input read, found '" ++ (← first.render) ++ "'"
  | .overlong => .ok (Text.Overlong.message {})

def raised (e : OpeningError) : OpeningError := StraightLine.raised message .overlong e

theorem notReadRaised (first : Instruction) :
    (notRead first).raised = if first.isWritable then .notRead first else .overlong :=
  raisedIf rfl

end OpeningError

def validate : Program → Except OpeningError Unit
  | [] => .error .empty
  | i :: _ => if i.isRead then .ok () else .error (OpeningError.notRead i).raised

theorem inputCountAppend (p q : Program) :
    inputCount (p ++ q) = inputCount p + inputCount q := by
  simp [inputCount]

theorem validated {p : Program} :
    p.validate = .ok () ↔ ∃ dst rest, p = .read dst :: rest := by
  cases p with
  | nil => simp [validate]
  | cons i rest => cases i <;> simp [validate, Instruction.isRead]

end Program
end StraightLine
