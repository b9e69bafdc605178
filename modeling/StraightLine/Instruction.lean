import StraightLine.Register
import StraightLine.Text.Numeral
import StraightLine.Text.Word

/-! Instructions. One kind reads the next input into a register; every other kind combines a
register with an operand and stores the result in that register. `set` ignores the old
contents; it comes from simplification and cannot be written in a source text. -/
namespace StraightLine
open Text (unwords)

inductive Operation
  | add | mul | div | mod | eql | set
  deriving DecidableEq, Repr

inductive Opcode
  | inp
  | update (op : Operation)
  deriving DecidableEq, Repr

inductive Operand
  | reg (r : Register)
  | const (n : Int)
  deriving DecidableEq, Repr

inductive Instruction
  | read (dst : Register)
  | update (op : Operation) (dst : Register) (src : Operand)
  deriving DecidableEq, Repr

namespace Operation

def word : Operation → List Char
  | .add => ['a', 'd', 'd']
  | .mul => ['m', 'u', 'l']
  | .div => ['d', 'i', 'v']
  | .mod => ['m', 'o', 'd']
  | .eql => ['e', 'q', 'l']
  | .set => ['s', 'e', 't']

end Operation

namespace Opcode

def all : List Opcode :=
  [.inp, .update .add, .update .mul, .update .div, .update .mod, .update .eql, .update .set]

def word : Opcode → List Char
  | .inp => ['i', 'n', 'p']
  | .update op => op.word

def name (code : Opcode) : String := String.ofList code.word

def ofWord? : List Char → Option Opcode
  | ['i', 'n', 'p'] => some .inp
  | ['a', 'd', 'd'] => some (.update .add)
  | ['m', 'u', 'l'] => some (.update .mul)
  | ['d', 'i', 'v'] => some (.update .div)
  | ['m', 'o', 'd'] => some (.update .mod)
  | ['e', 'q', 'l'] => some (.update .eql)
  | ['s', 'e', 't'] => some (.update .set)
  | _ => none

def arity : Opcode → Nat
  | .inp => 1
  | .update _ => 2

theorem wordRead (code : Opcode) : ofWord? code.word = some code := by
  cases code with
  | inp => rfl
  | update op => cases op <;> rfl

theorem wordSource {s : List Char} {code : Opcode} (read : ofWord? s = some code) :
    s = code.word := by
  unfold ofWord? at read
  split at read <;> cases read <;> rfl

end Opcode

namespace Operand

def register? : Operand → Option Register
  | .reg r => some r
  | .const _ => none

def isRegister (o : Operand) : Bool := o.register?.isSome

def word : Operand → List Char
  | .reg r => r.word
  | .const n => Text.Numeral.text n

def isWritable : Operand → Bool
  | .reg _ => true
  | .const n => Text.Numeral.isWritable n

end Operand

inductive ShapeError
  | unexpectedOperand
  | missingOperand (op : Operation)
  deriving DecidableEq, Repr

def ShapeError.message : ShapeError → String
  | .unexpectedOperand => "inp takes no operand"
  | .missingOperand op => String.ofList op.word ++ " requires an operand"

namespace Instruction

def ofParts : Opcode → Register → Option Operand → Except ShapeError Instruction
  | .inp, dst, none => .ok (.read dst)
  | .inp, _, some _ => .error .unexpectedOperand
  | .update op, dst, some src => .ok (.update op dst src)
  | .update op, _, none => .error (.missingOperand op)

def opcode : Instruction → Opcode
  | .read _ => .inp
  | .update op _ _ => .update op

def dst : Instruction → Register
  | .read dst => dst
  | .update _ dst _ => dst

def operand? : Instruction → Option Operand
  | .read _ => none
  | .update _ _ src => some src

def isRead : Instruction → Bool
  | .read _ => true
  | .update _ _ _ => false

def hasRegisterOperand (i : Instruction) : Bool := (i.operand?.map Operand.isRegister).getD false

def withOperand (i : Instruction) (src : Option Operand) : Except ShapeError Instruction :=
  ofParts i.opcode i.dst src

def words (i : Instruction) : List (List Char) :=
  i.opcode.word :: i.dst.word :: (i.operand?.map Operand.word).toList

def text (i : Instruction) : List Char := unwords i.words

def isWritable (i : Instruction) : Bool := i.operand?.all Operand.isWritable

def render (i : Instruction) : Except Text.Overlong String :=
  if i.isWritable then .ok (String.ofList i.text) else .error {}

theorem partsRebuild (i : Instruction) : ofParts i.opcode i.dst i.operand? = .ok i := by
  cases i <;> rfl

theorem wordCount (i : Instruction) : i.words.length = i.opcode.arity + 1 := by
  cases i <;> rfl

end Instruction
end StraightLine
