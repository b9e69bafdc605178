import StraightLine.Proofs.Execution
import StraightLine.Proofs.Segment.Partition

/-! Execution of slices. Code without reads leaves the inputs alone, and so a slice takes one input
and the rest of the program runs on the registers it leaves and the inputs after that one. With its
input at hand a slice fails only where it divides by zero. -/
namespace StraightLine
namespace Machine

def given (inputs : List Int) (m : Machine) : Machine := ⟨m.registers, inputs⟩

theorem quietStep {i : Instruction} (quiet : i.isRead = false) (m : Machine) (inputs : List Int) :
    (m.given inputs).step i = (m.step i).map (given inputs) := by
  cases i with
  | read dst => cases quiet
  | update op dst src =>
    cases value : op.eval (m.registers.get dst) (src.eval m.registers) with
    | error fault => rw [stepOfFault value, stepOfFault (m := m.given inputs) value]; rfl
    | ok n => rw [stepOfValue value, stepOfValue (m := m.given inputs) value]; rfl

theorem quietRun {is : List Instruction} (quiet : ∀ i ∈ is, i.isRead = false) (m : Machine)
    (inputs : List Int) : (m.given inputs).run is = (m.run is).map (given inputs) := by
  induction is generalizing m with
  | nil => rfl
  | cons i rest ih =>
    have first := quietStep (quiet i (by simp)) m inputs
    cases ran : m.step i with
    | error fault =>
      rw [ran] at first
      rw [runCrash ran, runCrash first]
      rfl
    | ok next =>
      rw [ran] at first
      rw [runStep ran, runStep first]
      exact ih (fun j later => quiet j (by simp [later])) next

theorem quietFault {is : List Instruction} (quiet : ∀ i ∈ is, i.isRead = false) {m : Machine}
    {crash : Crash} (failed : m.run is = .error crash) :
    ∃ i ∈ is, DividesByZero crash.registers i crash.fault := by
  induction is generalizing m with
  | nil => cases failed
  | cons i rest ih =>
    cases ran : m.step i with
    | error fault =>
      rw [runCrash ran] at failed
      cases failed
      cases i with
      | read dst => cases quiet (.read dst) (by simp)
      | update op dst src => exact ⟨_, List.mem_cons_self, updateDivides ran⟩
    | ok next =>
      rw [runStep ran] at failed
      obtain ⟨j, later, divides⟩ := ih (fun j later => quiet j (by simp [later])) failed
      exact ⟨j, List.mem_cons_of_mem i later, divides⟩

theorem sliceRun {is : List Instruction} (slice : Slice is) (registers : Registers) (d : Int)
    (inputs : List Int) :
    run ⟨registers, d :: inputs⟩ is = (execute is [d] registers).map (Machine.mk · inputs) := by
  obtain ⟨dst, body, rfl, quiet⟩ := slice
  have alone := quietRun quiet ⟨registers.set dst d, []⟩ inputs
  have whole : run ⟨registers, [d]⟩ (.read dst :: body) = run ⟨registers.set dst d, []⟩ body := rfl
  rw [runStep (m := ⟨registers, d :: inputs⟩) (i := .read dst) rfl]
  rw [execute, whole]
  refine alone.trans ?_
  cases run ⟨registers.set dst d, []⟩ body <;> rfl

end Machine

theorem sliceFault {is : List Instruction} (slice : Slice is) {d : Int} {registers : Registers}
    {crash : Crash} (failed : execute is [d] registers = .error crash) :
    ∃ i ∈ is, Machine.DividesByZero crash.registers i crash.fault := by
  obtain ⟨dst, body, rfl, quiet⟩ := slice
  have alone : Machine.run ⟨registers.set dst d, []⟩ body = .error crash := executeCrashed.mp failed
  obtain ⟨i, mem, divides⟩ := Machine.quietFault quiet alone
  exact ⟨i, List.mem_cons_of_mem _ mem, divides⟩

theorem executeSlice {is : List Instruction} (slice : Slice is) (rest : List Instruction) (d : Int)
    (inputs : List Int) (registers : Registers) :
    execute (is ++ rest) (d :: inputs) registers =
      execute is [d] registers >>= fun after => execute rest inputs after := by
  rw [execute, Machine.runAppend, Machine.sliceRun slice]
  cases execute is [d] registers <;> rfl

end StraightLine
