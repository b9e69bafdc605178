import StraightLine.Proofs.Fixpoint.Rounds
import StraightLine.Proofs.Liveness.Refinement
import StraightLine.Proofs.Simplify.Refinement

/-! What optimization keeps for an observer of the output register. From zeroed registers and on
digits, a program that ends normally still does and leaves the same output, and one that runs out
of inputs still does at a read of the same register. Both passes and so all rounds keep this. -/
namespace StraightLine
namespace Program

def Refines (output : Register) (p q : Program) : Prop :=
  ∀ inputs : List Int, (∀ d ∈ inputs, d ∈ Interval.digit) →
    (Live.observing output).Refines ((Machine.start inputs).run p) ((Machine.start inputs).run q)

theorem refinesSelf (output : Register) (p : Program) : p.Refines output p :=
  fun inputs _ => Live.refinesSelf _ ((Machine.start inputs).run p)

theorem refinesThrough {output : Register} {p q r : Program} (first : p.Refines output q)
    (second : q.Refines output r) : p.Refines output r :=
  fun inputs digits => Live.refinesThrough (first inputs digits) (second inputs digits)

theorem simplifyRefines (output : Register) (p : Program) : p.Refines output p.simplify := by
  intro inputs digits
  have described : Ranges.zero.Describes (Machine.start inputs) := ⟨Ranges.zeroContains, digits⟩
  rcases Ranges.scanRun described p with ⟨registers, hidden⟩ | same
  · rw [hidden]
    exact .faulty rfl _
  · rw [simplify, same]
    exact Live.refinesSelf _ _

theorem dropDeadRefines (output : Register) (p : Program) :
    p.Refines output (p.dropDead output) := by
  intro inputs _
  rw [Live.retainedProgram]
  exact Live.retainedRun p (Live.alikeSelf _ (Machine.start inputs))

theorem roundRefines (output : Register) (p : Program) : p.Refines output (p.round output) :=
  refinesThrough (simplifyRefines output p) (dropDeadRefines output p.simplify)

theorem stabilizeRefines {output : Register} {maxRounds : Int} {p : Program} {s : Stable}
    (stable : p.stabilize output maxRounds = .ok s) : p.Refines output s.program :=
  stabilizeKeeps (P := p.Refines output)
    (fun q refines => refinesThrough refines (roundRefines output q)) (refinesSelf output p) stable

variable {output : Register} {p q : Program} {inputs : List Int}

theorem refinedFinal (refines : p.Refines output q) (digits : ∀ d ∈ inputs, d ∈ Interval.digit)
    {final : Registers} (ran : execute p inputs Registers.zero = .ok final) :
    ∃ other, execute q inputs Registers.zero = .ok other ∧ other.get output = final.get output :=
  Live.refinedOutput (refines inputs digits) ran

theorem refinedExhausted (refines : p.Refines output q) (digits : ∀ d ∈ inputs, d ∈ Interval.digit)
    {dst : Register} {registers : Registers}
    (failed : execute p inputs Registers.zero = .error ⟨.inputExhausted dst, registers⟩) :
    ∃ others, execute q inputs Registers.zero = .error ⟨.inputExhausted dst, others⟩ := by
  have outcome := refines inputs digits
  rw [Machine.start, executeCrashed.mp failed] at outcome
  generalize follows : Machine.run ⟨Registers.zero, inputs⟩ q = result at outcome
  cases outcome with
  | exhausted _ _ others => exact ⟨others, executeCrashed.mpr follows⟩
  | faulty arithmetic => cases arithmetic

theorem arithmeticOrExhausted (fault : Fault) :
    fault.isArithmetic = true ∨ ∃ dst, fault = .inputExhausted dst := by
  cases fault with
  | inputExhausted dst => exact .inr ⟨dst, rfl⟩
  | divisionByZero n => exact .inl rfl
  | moduloByZero n => exact .inl rfl
  | overlong => exact .inl rfl

theorem refinedFaulty (refines : p.Refines output q) (digits : ∀ d ∈ inputs, d ∈ Interval.digit)
    {other : Crash} (failed : execute q inputs Registers.zero = .error other)
    (arithmetic : other.fault.isArithmetic = true) :
    ∃ crash, execute p inputs Registers.zero = .error crash ∧
      crash.fault.isArithmetic = true := by
  cases ran : execute p inputs Registers.zero with
  | ok final =>
    obtain ⟨_, follows, _⟩ := refinedFinal refines digits ran
    rw [follows] at failed
    cases failed
  | error crash =>
    refine ⟨crash, rfl, ?_⟩
    rcases arithmeticOrExhausted crash.fault with already | ⟨dst, exhausted⟩
    · exact already
    · obtain ⟨fault, registers⟩ := crash
      subst exhausted
      obtain ⟨_, follows⟩ := refinedExhausted refines digits ran
      rw [follows] at failed
      cases failed
      cases arithmetic

theorem stabilizePreserves {maxRounds : Int} {s : Stable}
    (stable : p.stabilize output maxRounds = .ok s) (digits : ∀ d ∈ inputs, 1 ≤ d ∧ d ≤ 9) :
    (∀ final, execute p inputs Registers.zero = .ok final →
      ∃ other, execute s.program inputs Registers.zero = .ok other ∧
        other.get output = final.get output) ∧
    (∀ crash dst, execute p inputs Registers.zero = .error crash →
      crash.fault = .inputExhausted dst →
      ∃ other, execute s.program inputs Registers.zero = .error other ∧
        other.fault = .inputExhausted dst ∧ other.message = crash.message) ∧
    (∀ other, execute s.program inputs Registers.zero = .error other →
      other.fault.isArithmetic = true →
      ∃ crash, execute p inputs Registers.zero = .error crash ∧
        crash.fault.isArithmetic = true) := by
  have refines := stabilizeRefines stable
  refine ⟨fun final ran => refinedFinal refines digits ran, ?_,
    fun other failed arithmetic => refinedFaulty refines digits failed arithmetic⟩
  intro crash dst failed exhausted
  obtain ⟨fault, registers⟩ := crash
  subst exhausted
  obtain ⟨others, follows⟩ := refinedExhausted refines digits failed
  exact ⟨⟨.inputExhausted dst, others⟩, follows, rfl, rfl⟩

theorem stabilizePreservesSigned :
    let p : Program := [.read .w, .update .add .x (.const (-4)), .update .mul .w (.reg .x),
      .update .set .y (.reg .x), .update .mul .y (.const (-2)), .update .add .z (.reg .w),
      .update .add .z (.reg .z), .update .mod .z (.reg .y)]
    let q : Program := [.read .w, .update .mul .w (.const (-4)), .update .set .z (.reg .w),
      .update .add .z (.reg .z), .update .mod .z (.const 8)]
    p.stabilize .z 100 = .ok ⟨q, 2⟩ ∧
      (∃ other, execute q [7] Registers.zero = .ok other ∧ other.z = 0) ∧
      ∃ other, execute q [] Registers.zero = .error other ∧
        other.message = .ok "'inp w' executed with no input left" := by
  intro p q
  have stable : p.stabilize .z 100 = .ok ⟨q, 2⟩ := stabilized.mpr (by decide +kernel)
  have digit : ∀ d ∈ [7], (1 : Int) ≤ d ∧ d ≤ 9 := by decide
  have nothing : ∀ d ∈ [], (1 : Int) ≤ d ∧ d ≤ 9 := by decide
  obtain ⟨finished, _⟩ := stabilizePreserves stable digit
  obtain ⟨other, follows, same⟩ := finished ⟨-28, -4, 8, 0⟩ rfl
  obtain ⟨_, exhausted, _⟩ := stabilizePreserves stable nothing
  obtain ⟨crash, failed, _, message⟩ :=
    exhausted ⟨.inputExhausted .w, Registers.zero⟩ .w rfl rfl
  exact ⟨stable, ⟨other, follows, same⟩, crash, failed, message⟩

end Program
end StraightLine
