import StraightLine.Program
import StraightLine.Text.Quoted

/-! Reading programs from source text: one instruction a line, blank lines allowed. The first bad
line is reported with its number, and on that line the first check that fails. -/
namespace StraightLine

inductive Complaint
  | empty
  | reserved
  | unknownOpcode (word : List Char)
  | argumentCount (code : Opcode) (found : Nat)
  | unknownRegister (word : List Char)
  | badOperand (word : List Char)
  deriving DecidableEq, Repr

structure SourceError where
  line : Int
  complaint : Complaint
  deriving DecidableEq, Repr

namespace Complaint
open Text (Quoted.render)

def message : Complaint → String
  | .empty => "empty instruction"
  | .reserved => "'set' is reserved for optimizer output"
  | .unknownOpcode word => "unknown instruction " ++ Quoted.render word
  | .argumentCount code found =>
    s!"'{code.name}' takes {code.arity} argument(s), got {found}"
  | .unknownRegister word => "unknown register " ++ Quoted.render word
  | .badOperand word => Quoted.render word ++ " is neither a register nor an integer"

end Complaint

def SourceError.message (e : SourceError) : Except Text.Overlong String := do
  return "line " ++ (← Text.Numeral.render e.line) ++ ": " ++ e.complaint.message

namespace Operand

def ofWord? (word : List Char) : Option Operand :=
  match Register.ofWord? word with
  | some r => some (.reg r)
  | none => (Text.Numeral.read? word).map .const

end Operand

namespace Instruction

def ofWords : List (List Char) → Except Complaint Instruction
  | [] => .error .empty
  | mnemonic :: arguments =>
    match Opcode.ofWord? mnemonic with
    | none => .error (.unknownOpcode mnemonic)
    | some (.update .set) => .error .reserved
    | some .inp =>
      match arguments with
      | [target] =>
        match Register.ofWord? target with
        | none => .error (.unknownRegister target)
        | some dst => .ok (.read dst)
      | _ => .error (.argumentCount .inp arguments.length)
    | some (.update op) =>
      match arguments with
      | [target, operand] =>
        match Register.ofWord? target with
        | none => .error (.unknownRegister target)
        | some dst =>
          match Operand.ofWord? operand with
          | none => .error (.badOperand operand)
          | some src => .ok (.update op dst src)
      | _ => .error (.argumentCount (.update op) arguments.length)

def parse (number : Int) (line : String) : Except SourceError Instruction :=
  (ofWords (Text.words line.toList)).mapError (SourceError.mk number)

end Instruction

namespace Program

def ofLines : Int → List (List Char) → Except SourceError Program
  | _, [] => .ok []
  | number, line :: rest =>
    match Text.words line with
    | [] => ofLines (number + 1) rest
    | word :: more => do
      let i ← (Instruction.ofWords (word :: more)).mapError (SourceError.mk number)
      let is ← ofLines (number + 1) rest
      return i :: is

def ofText (source : List Char) : Except SourceError Program := ofLines 1 (Text.lines source)

def parse (source : String) : Except SourceError Program := ofText source.toList

end Program
end StraightLine
