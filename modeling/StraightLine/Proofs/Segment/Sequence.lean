import StraightLine.Proofs.Segment.Execution

/-! Execution in pieces. Code runs like its first part and then the rest, on the registers and the
inputs that the first part leaves; in particular a program runs like its segments in turn, each on
one input of its own. A crash in the middle leaves what the instructions before it have done. -/
namespace StraightLine
namespace Segment

def runInTurn : List Segment → List Int → Registers → Except Crash Registers
  | segment :: rest, n :: inputs, before => do
    let after ← execute segment.instructions [n] before
    runInTurn rest inputs after
  | _, _, before => .ok before

theorem inTurnExecutes {segments : List Segment} {inputs : List Int}
    (slices : ∀ s ∈ segments, Slice s.instructions) (length : inputs.length = segments.length)
    (before : Registers) :
    runInTurn segments inputs before =
      execute (segments.flatMap Segment.instructions) inputs before := by
  induction segments generalizing inputs before with
  | nil =>
    cases List.length_eq_zero_iff.mp length
    rfl
  | cons segment rest ih =>
    cases inputs with
    | nil => cases length
    | cons n more =>
      obtain ⟨slice, others⟩ := List.forall_mem_cons.mp slices
      rw [List.flatMap_cons, executeSlice slice, runInTurn]
      exact congrArg _ (funext fun after => ih others (Nat.succ.inj length) after)

end Segment

namespace Program

theorem executionComposes :
    (∀ (first second : List Instruction) (inputs : List Int) (registers : Registers),
      (execute (first ++ second) inputs registers =
        execute first inputs registers >>= fun after =>
          execute second (inputs.drop (inputCount first)) after) ∧
      ∀ m, Machine.run ⟨registers, inputs⟩ first = .ok m →
        m.inputs = inputs.drop (inputCount first)) ∧
    (∀ (p : Program) (dst : Register), p.head? = some (.read dst) →
      ∃ segments, p.segments = .ok segments ∧
        ∀ (digits : List Int) (registers : Registers), digits.length = p.inputCount →
          Segment.runInTurn segments digits registers = execute p digits registers) ∧
    (∀ (is : List Instruction) (inputs : List Int) (registers : Registers) (crash : Crash),
      execute is inputs registers = .error crash →
      ∃ done i rest, is = done ++ i :: rest ∧
        execute done inputs registers = .ok crash.registers ∧
        Machine.step ⟨crash.registers, inputs.drop (inputCount done)⟩ i =
          .error crash.fault) := by
  refine ⟨?_, ?_, ?_⟩
  · intro first second inputs registers
    exact ⟨executeAppend first second inputs registers, fun _ ran => Machine.runInputs ran⟩
  · intro p dst opens
    obtain ⟨segments, cut, joined, count, slices⟩ := segmentsPartition opens
    refine ⟨segments, cut, ?_⟩
    intro digits registers length
    rw [Segment.inTurnExecutes slices (length.trans count.symm), joined]
  · intro is inputs registers crash failed
    exact executeCrashSplit failed

theorem executionComposesCrash :
    let p : Program := [.read .w, .update .add .z (.reg .w), .read .x, .update .add .z (.reg .x),
      .update .div .z (.reg .y), .update .add .z (.const 1)]
    let crash : Crash := ⟨.divisionByZero (-1), ⟨3, -4, 0, -1⟩⟩
    ∃ segments, p.segments = .ok segments ∧ segments.length = 2 ∧
      Segment.runInTurn segments [3, -4] Registers.zero = .error crash ∧
      execute (p.take 2 ++ p.drop 2) [3, -4] Registers.zero =
        execute (p.drop 2) [-4] ⟨3, 0, 0, 3⟩ ∧
      ∃ done i rest, p = done ++ i :: rest ∧
        execute done [3, -4] Registers.zero = .ok crash.registers := by
  intro p crash
  obtain ⟨parts, whole, crashes⟩ := executionComposes
  obtain ⟨segments, cut, runs⟩ := whole p .w rfl
  have failed : execute p [3, -4] Registers.zero = .error crash := rfl
  have count : segments.length = 2 := (segmentsCut cut).2.1
  obtain ⟨done, i, rest, joined, completed, _⟩ := crashes p [3, -4] Registers.zero crash failed
  exact ⟨segments, cut, count, (runs [3, -4] Registers.zero rfl).trans failed,
    (parts (p.take 2) (p.drop 2) [3, -4] Registers.zero).1, done, i, rest, joined, completed⟩

end Program
end StraightLine
