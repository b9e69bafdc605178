import StraightLine.Arithmetic
import StraightLine.Program

/-! Execution. A machine is its registers and the inputs not yet read. Instructions run in order,
and a crash keeps the registers as the completed instructions left them. -/
namespace StraightLine

abbrev Registers := PerRegister Int

def Registers.zero : Registers := PerRegister.uniform 0

structure Machine where
  registers : Registers
  inputs : List Int
  deriving DecidableEq, Repr

structure Crash where
  fault : Fault
  registers : Registers
  deriving DecidableEq, Repr

def Crash.message (c : Crash) : Except Text.Overlong String := c.fault.message

def Operand.eval (registers : Registers) : Operand → Int
  | .reg r => registers.get r
  | .const n => n

@[simp] theorem Operand.evalRegister (registers : Registers) (r : Register) :
    (Operand.reg r).eval registers = registers.get r := rfl

@[simp] theorem Operand.evalConst (registers : Registers) (n : Int) :
    (Operand.const n).eval registers = n := rfl

namespace Machine

def start (inputs : List Int) : Machine := ⟨Registers.zero, inputs⟩

def step (m : Machine) : Instruction → Except Fault Machine
  | .read dst =>
    match m.inputs with
    | [] => .error (.inputExhausted dst)
    | n :: rest => .ok ⟨m.registers.set dst n, rest⟩
  | .update op dst src => do
    let n ← op.eval (m.registers.get dst) (src.eval m.registers)
    return { m with registers := m.registers.set dst n }

def run (m : Machine) : List Instruction → Except Crash Machine
  | [] => .ok m
  | i :: rest =>
    match m.step i with
    | .error fault => .error ⟨fault, m.registers⟩
    | .ok next => next.run rest

def history (m : Machine) : List Instruction → List Registers
  | [] => []
  | i :: rest =>
    match m.step i with
    | .error _ => []
    | .ok next => next.registers :: next.history rest

theorem runCons (m : Machine) (i : Instruction) (rest : List Instruction) :
    m.run (i :: rest) = match m.step i with
      | .error fault => .error ⟨fault, m.registers⟩
      | .ok next => next.run rest := rfl

theorem runAppend (m : Machine) (p q : List Instruction) :
    m.run (p ++ q) = m.run p >>= fun next => next.run q := by
  induction p generalizing m with
  | nil => rfl
  | cons i rest ih =>
    rw [List.cons_append, runCons, runCons]
    cases m.step i with
    | error fault => rfl
    | ok next => exact ih next

end Machine

def execute (is : List Instruction) (inputs : List Int) (registers : Registers) :
    Except Crash Registers :=
  (Machine.run ⟨registers, inputs⟩ is).map Machine.registers

end StraightLine
