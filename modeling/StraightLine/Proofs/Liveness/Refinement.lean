import StraightLine.Proofs.Execution
import StraightLine.Proofs.Liveness.Agreement

/-! Dropping dead instructions, as a relation between two runs. The runs go in lock step through the
kept instructions, on machines that agree on live registers and have the same inputs left; a
dropped instruction moves the original run alone, and only in dead registers. The same holds when
the first run is of code in which some of the dropped instructions are missing already. -/
namespace StraightLine.Live

structure Alike (live : Live) (m n : Machine) : Prop where
  registers : live.Agree m.registers n.registers
  inputs : m.inputs = n.inputs

/- What a changed program may do where the original one ends in a given way. After an arithmetic
fault of the original nothing is promised. -/
inductive Refines (live : Live) : Except Crash Machine → Except Crash Machine → Prop
  | finished {last other} (alike : live.Alike last other) : Refines live (.ok last) (.ok other)
  | exhausted (dst registers others) : Refines live (.error ⟨.inputExhausted dst, registers⟩)
      (.error ⟨.inputExhausted dst, others⟩)
  | faulty {crash} (arithmetic : crash.fault.isArithmetic = true) (outcome) :
      Refines live (.error crash) outcome

theorem alikeSelf (live : Live) (m : Machine) : live.Alike m m := ⟨agreeSelf live _, rfl⟩

theorem refinesSameFault (live : Live) (fault : Fault) (registers others : Registers) :
    live.Refines (.error ⟨fault, registers⟩) (.error ⟨fault, others⟩) := by
  cases fault with
  | inputExhausted dst => exact .exhausted dst registers others
  | divisionByZero n => exact .faulty rfl _
  | moduloByZero n => exact .faulty rfl _
  | overlong => exact .faulty rfl _

theorem refinesSelf (live : Live) (outcome : Except Crash Machine) :
    live.Refines outcome outcome := by
  cases outcome with
  | ok last => exact .finished (alikeSelf live last)
  | error crash => exact refinesSameFault live crash.fault crash.registers crash.registers

theorem refinesThrough {live : Live} {a b c : Except Crash Machine} (first : live.Refines a b)
    (second : live.Refines b c) : live.Refines a c := by
  cases first with
  | finished alike =>
    cases second with
    | finished further =>
      exact .finished ⟨agreeThrough alike.registers further.registers,
        alike.inputs.trans further.inputs⟩
  | exhausted dst registers others =>
    cases second with
    | exhausted _ _ last => exact .exhausted dst registers last
    | faulty arithmetic => cases arithmetic
  | faulty arithmetic outcome => exact .faulty arithmetic c

theorem keptStep {after : Live} {m n : Machine} {i : Instruction} (needed : after.needs i = true)
    (alike : (after.transfer i).Alike m n) :
    (∀ fault, m.step i = .error fault → n.step i = .error fault) ∧
    (∀ next, m.step i = .ok next → ∃ other, n.step i = .ok other ∧ after.Alike next other) := by
  obtain ⟨agree, inputs⟩ := alike
  cases i with
  | read dst =>
    have others : ∀ r, r ≠ dst → after.get r = true → m.registers.get r = n.registers.get r :=
      fun r other alive => agree r (transferOther (i := .read dst) other alive)
    constructor
    · intro fault failed
      simp only [Machine.step, ← inputs] at failed ⊢
      split at failed <;> cases failed
      rfl
    · intro next ran
      obtain ⟨d, left, read, rfl⟩ := Machine.stepRead ran
      refine ⟨⟨n.registers.set dst d, left⟩, ?_, agreeBothSet others d, rfl⟩
      simp only [Machine.step, ← inputs, read]
  | update op dst src =>
    have others : ∀ r, r ≠ dst → after.get r = true → m.registers.get r = n.registers.get r :=
      fun r other alive => agree r (transferOther (i := .update op dst src) other alive)
    have same : op.eval (m.registers.get dst) (src.eval m.registers) =
        op.eval (n.registers.get dst) (src.eval n.registers) := by
      rw [operandAgree agree]
      by_cases overwrites : op = .set
      · subst op; rfl
      · rw [agree dst (transferDestination overwrites (neededUpdate needed))]
    cases value : op.eval (m.registers.get dst) (src.eval m.registers) with
    | error raised =>
      rw [Machine.stepOfFault value, Machine.stepOfFault (same ▸ value)]
      exact ⟨fun _ failed => failed, by simp⟩
    | ok d =>
      rw [Machine.stepOfValue value, Machine.stepOfValue (same ▸ value)]
      refine ⟨by simp, ?_⟩
      intro next ran
      cases ran
      exact ⟨_, rfl, agreeBothSet others d, inputs⟩

theorem droppedStep {after : Live} {m n next : Machine} {i : Instruction}
    (dead : after.needs i = false) (alike : after.Alike m n) (ran : m.step i = .ok next) :
    after.Alike next n := by
  obtain ⟨⟨op, dst, src, rfl⟩, unread⟩ := deadUpdate dead
  obtain ⟨d, _, rfl⟩ := Machine.stepUpdate ran
  exact ⟨agreeDeadSet unread alike.registers d, alike.inputs⟩

/- Code between what is retained and the whole: any of the instructions that are dropped may be
back in their places. -/
inductive Between (atEnd : Live) : List Instruction → List Instruction → Prop
  | nil : Between atEnd [] []
  | stays {i rest more} (tail : Between atEnd rest more) : Between atEnd (i :: rest) (i :: more)
  | goes {i rest more} (dead : (atEnd.entering rest).needs i = false)
      (tail : Between atEnd rest more) : Between atEnd (i :: rest) more

theorem betweenSelf (atEnd : Live) (is : List Instruction) : Between atEnd is is := by
  induction is with
  | nil => exact .nil
  | cons i rest ih => exact .stays ih

theorem betweenRun {atEnd : Live} {m n : Machine} {is more : List Instruction}
    (between : Between atEnd is more) (alike : (atEnd.entering is).Alike m n) :
    atEnd.Refines (m.run more) (n.run (atEnd.retained is)) := by
  induction between generalizing m n with
  | nil => exact .finished alike
  | @stays i rest more tail ih =>
    cases needed : (atEnd.entering rest).needs i with
    | true =>
      rw [enteringKept needed] at alike
      rw [retainedKept needed]
      obtain ⟨failing, running⟩ := keptStep needed alike
      cases ran : m.step i with
      | error fault =>
        rw [Machine.runCrash ran, Machine.runCrash (failing fault ran)]
        exact refinesSameFault atEnd fault _ _
      | ok next =>
        obtain ⟨other, follows, still⟩ := running next ran
        rw [Machine.runStep ran, Machine.runStep follows]
        exact ih still
    | false =>
      rw [enteringDropped needed] at alike
      rw [retainedDropped needed]
      cases ran : m.step i with
      | error fault =>
        obtain ⟨⟨op, dst, src, rfl⟩, _⟩ := deadUpdate needed
        rw [Machine.runCrash ran]
        exact .faulty (Machine.dividesArithmetic (Machine.updateDivides ran)) _
      | ok next =>
        rw [Machine.runStep ran]
        exact ih (droppedStep needed alike ran)
  | @goes i rest more dead tail ih =>
    rw [enteringDropped dead] at alike
    rw [retainedDropped dead]
    exact ih alike

theorem retainedRun {atEnd : Live} {m n : Machine} (is : List Instruction)
    (alike : (atEnd.entering is).Alike m n) :
    atEnd.Refines (m.run is) (n.run (atEnd.retained is)) :=
  betweenRun (betweenSelf atEnd is) alike

theorem refinedOutput {output : Register} {is js : List Instruction} {inputs : List Int}
    {registers final : Registers}
    (refines : (observing output).Refines (Machine.run ⟨registers, inputs⟩ is)
      (Machine.run ⟨registers, inputs⟩ js))
    (ran : execute is inputs registers = .ok final) :
    ∃ other, execute js inputs registers = .ok other ∧ other.get output = final.get output := by
  obtain ⟨left, last⟩ := executed.mp ran
  rw [last] at refines
  generalize follows : Machine.run ⟨registers, inputs⟩ js = result at refines
  cases refines with
  | @finished _ other alike =>
    exact ⟨other.registers, executed.mpr ⟨other.inputs, follows⟩,
      (alike.registers output (observingOutput output)).symm⟩

end StraightLine.Live
