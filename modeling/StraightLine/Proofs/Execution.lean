import StraightLine.Machine

/-! Execution, one step at a time. What a completed or a failed instruction says about the machine
before it, and how a run is put together from its first step and the rest. -/
namespace StraightLine

/- A fault of dividing by zero, also where the dividend is too long for it to be told. -/
def Fault.isArithmetic : Fault → Bool
  | .inputExhausted _ => false
  | .divisionByZero _ => true
  | .moduloByZero _ => true
  | .overlong => true

namespace Machine

theorem stepRead {m next : Machine} {dst : Register} (ran : m.step (.read dst) = .ok next) :
    ∃ n rest, m.inputs = n :: rest ∧ next = ⟨m.registers.set dst n, rest⟩ := by
  unfold step at ran
  cases inputs : m.inputs with
  | nil => simp [inputs] at ran
  | cons n rest =>
    simp only [inputs] at ran
    cases ran
    exact ⟨n, rest, rfl, rfl⟩

theorem stepUpdate {m next : Machine} {op : Operation} {dst : Register} {src : Operand}
    (ran : m.step (.update op dst src) = .ok next) :
    ∃ n, op.eval (m.registers.get dst) (src.eval m.registers) = .ok n ∧
      next = ⟨m.registers.set dst n, m.inputs⟩ := by
  unfold step at ran
  cases value : op.eval (m.registers.get dst) (src.eval m.registers) with
  | error fault => simp [value, bind, Except.bind] at ran
  | ok n =>
    simp only [value] at ran
    cases ran
    exact ⟨n, rfl, rfl⟩

theorem stepOfValue {m : Machine} {op : Operation} {dst : Register} {src : Operand} {n : Int}
    (value : op.eval (m.registers.get dst) (src.eval m.registers) = .ok n) :
    m.step (.update op dst src) = .ok ⟨m.registers.set dst n, m.inputs⟩ := by
  simp only [step, value]
  rfl

theorem stepOfFault {m : Machine} {op : Operation} {dst : Register} {src : Operand} {fault : Fault}
    (failed : op.eval (m.registers.get dst) (src.eval m.registers) = .error fault) :
    m.step (.update op dst src) = .error fault := by
  simp only [step, failed]
  rfl

inductive DividesByZero (registers : Registers) : Instruction → Fault → Prop
  | quotient {dst src} (divisor : src.eval registers = 0) :
      DividesByZero registers (.update .div dst src)
        (Fault.divisionByZero (registers.get dst)).raised
  | remainder {dst src} (divisor : src.eval registers = 0) :
      DividesByZero registers (.update .mod dst src)
        (Fault.moduloByZero (registers.get dst)).raised

section
variable {registers : Registers} {i : Instruction} {fault : Fault}
  (divides : DividesByZero registers i fault)
include divides

theorem dividesArithmetic : fault.isArithmetic = true := by
  cases divides with
  | quotient divisor =>
    rw [Fault.divisionRaised]
    split <;> rfl
  | remainder divisor =>
    rw [Fault.moduloRaised]
    split <;> rfl

theorem dividesKind :
    fault.kind = if Text.Numeral.isWritable (registers.get i.dst) then .arithmetic
      else .invalidValue := by
  cases divides with
  | quotient divisor =>
    rw [Fault.divisionRaised, Instruction.dst]
    split <;> rfl
  | remainder divisor =>
    rw [Fault.moduloRaised, Instruction.dst]
    split <;> rfl

theorem dividesTells : Tells fault.kind fault.message := by
  cases divides with
  | quotient divisor => exact raisedTells Fault.kind nofun rfl
  | remainder divisor => exact raisedTells Fault.kind nofun rfl

end

theorem updateDivides {m : Machine} {op : Operation} {dst : Register} {src : Operand}
    {fault : Fault} (failed : m.step (.update op dst src) = .error fault) :
    DividesByZero m.registers (.update op dst src) fault := by
  cases value : op.eval (m.registers.get dst) (src.eval m.registers) with
  | ok n =>
    rw [stepOfValue value] at failed
    cases failed
  | error raised =>
    rw [stepOfFault value] at failed
    cases failed
    obtain ⟨divisor, ⟨rfl, rfl⟩ | ⟨rfl, rfl⟩⟩ := Operation.evalFails.mp value
    · exact .quotient divisor
    · exact .remainder divisor

theorem stepDivides {m : Machine} {i : Instruction} {fault : Fault}
    (failed : m.step i = .error fault) (arithmetic : fault.isArithmetic = true) :
    DividesByZero m.registers i fault := by
  cases i with
  | update op dst src => exact updateDivides failed
  | read dst =>
    cases inputs : m.inputs with
    | nil =>
      simp only [step, inputs] at failed
      cases failed
      cases arithmetic
    | cons n rest =>
      simp only [step, inputs] at failed
      cases failed

theorem runStep {m next : Machine} {i : Instruction} (ran : m.step i = .ok next)
    (rest : List Instruction) : m.run (i :: rest) = next.run rest := by
  rw [runCons, ran]

theorem runCrash {m : Machine} {i : Instruction} {fault : Fault} (failed : m.step i = .error fault)
    (rest : List Instruction) : m.run (i :: rest) = .error ⟨fault, m.registers⟩ := by
  rw [runCons, failed]

theorem runFirst {m last : Machine} {i : Instruction} {rest : List Instruction}
    (ran : m.run (i :: rest) = .ok last) :
    ∃ next, m.step i = .ok next ∧ next.run rest = .ok last := by
  cases first : m.step i with
  | error fault =>
    rw [runCrash first] at ran
    cases ran
  | ok next => exact ⟨next, rfl, by rwa [runStep first] at ran⟩

theorem stepInputs {m next : Machine} {i : Instruction} (ran : m.step i = .ok next) :
    next.inputs = m.inputs.drop (Program.inputCount [i]) := by
  cases i with
  | read dst =>
    obtain ⟨n, rest, inputs, rfl⟩ := stepRead ran
    rw [inputs]
    rfl
  | update op dst src =>
    obtain ⟨n, _, rfl⟩ := stepUpdate ran
    rfl

theorem runInputs {m next : Machine} {is : List Instruction} (ran : m.run is = .ok next) :
    next.inputs = m.inputs.drop (Program.inputCount is) := by
  induction is generalizing m with
  | nil =>
    cases ran
    rfl
  | cons i rest ih =>
    obtain ⟨after, first, later⟩ := runFirst ran
    rw [ih later, stepInputs first, List.drop_drop, ← Program.inputCountAppend,
      List.singleton_append]

theorem crashSplit {m : Machine} {is : List Instruction} {crash : Crash}
    (failed : m.run is = .error crash) :
    ∃ done i rest before, is = done ++ i :: rest ∧ m.run done = .ok before ∧
      before.registers = crash.registers ∧ before.step i = .error crash.fault := by
  induction is generalizing m with
  | nil => cases failed
  | cons i rest ih =>
    cases first : m.step i with
    | error fault =>
      rw [runCrash first] at failed
      cases failed
      exact ⟨[], i, rest, m, rfl, rfl, rfl, first⟩
    | ok next =>
      rw [runStep first] at failed
      obtain ⟨done, j, others, before, rfl, ran, registers, last⟩ := ih failed
      exact ⟨i :: done, j, others, before, rfl, (runStep first done).trans ran, registers, last⟩

end Machine

theorem executed {is : List Instruction} {inputs : List Int} {registers final : Registers} :
    execute is inputs registers = .ok final ↔
      ∃ left, Machine.run ⟨registers, inputs⟩ is = .ok ⟨final, left⟩ := by
  unfold execute
  cases Machine.run ⟨registers, inputs⟩ is with
  | error crash => simp [Except.map]
  | ok last =>
    constructor
    · intro same
      cases same
      exact ⟨last.inputs, rfl⟩
    · intro ended
      obtain ⟨left, same⟩ := ended
      cases same
      rfl

theorem executeCrashed {is : List Instruction} {inputs : List Int} {registers : Registers}
    {crash : Crash} :
    execute is inputs registers = .error crash ↔
      Machine.run ⟨registers, inputs⟩ is = .error crash := by
  unfold execute
  cases Machine.run ⟨registers, inputs⟩ is <;> simp [Except.map]

theorem executeAppend (first second : List Instruction) (inputs : List Int)
    (registers : Registers) :
    execute (first ++ second) inputs registers =
      execute first inputs registers >>= fun after =>
        execute second (inputs.drop (Program.inputCount first)) after := by
  rw [execute, Machine.runAppend, execute]
  cases ran : Machine.run ⟨registers, inputs⟩ first with
  | error crash => rfl
  | ok m =>
    have left : m.inputs = inputs.drop (Program.inputCount first) := Machine.runInputs ran
    rw [← left]
    rfl

theorem executeCrashSplit {is : List Instruction} {inputs : List Int} {registers : Registers}
    {crash : Crash} (failed : execute is inputs registers = .error crash) :
    ∃ done i rest, is = done ++ i :: rest ∧ execute done inputs registers = .ok crash.registers ∧
      Machine.step ⟨crash.registers, inputs.drop (Program.inputCount done)⟩ i =
        .error crash.fault := by
  obtain ⟨done, i, rest, before, joined, ran, same, last⟩ :=
    Machine.crashSplit (executeCrashed.mp failed)
  have state : before = ⟨crash.registers, inputs.drop (Program.inputCount done)⟩ := by
    rw [← same, ← Machine.runInputs ran]
  rw [state] at ran last
  exact ⟨done, i, rest, joined, executed.mpr ⟨_, ran⟩, last⟩

end StraightLine
