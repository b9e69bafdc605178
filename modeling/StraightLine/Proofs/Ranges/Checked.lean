import StraightLine.Proofs.Interval.Checked
import StraightLine.Proofs.Simplify.Refinement

/-! The analysis by ranges with every check made. A scan that advances by checked interval arithmetic
never fails and is the scan itself; its exit ranges hold the registers of every run of the original
code that completes from registers within the entry ranges. -/
namespace StraightLine.Ranges

def checkedOperand (s : Ranges) : Operand → Except IntervalFault Interval
  | .reg r => .ok (s.get r)
  | .const n => Interval.build n n

def checkedTransfer (s : Ranges) : Instruction → Except IntervalFault Ranges
  | .read dst => (Interval.build 1 9).map (s.set dst)
  | .update op dst src => do
    let old := s.get dst
    let operand ← s.checkedOperand src
    let result ←
      match op with
      | .add => old.checkedAdd operand
      | .mul => old.checkedMultiply operand
      | .div => old.checkedDivide operand
      | .mod => old.checkedModulo operand
      | .eql => Interval.build 0 1
      | .set => .ok operand
    return s.set dst result

/- The rules themselves build single points only. -/
def checkedStep (s : Ranges) (i : Instruction) :
    Except IntervalFault (Option Instruction × Ranges) :=
  match simplify? s i with
  | none => .ok (none, s)
  | some j => (s.checkedTransfer j).map (some j, ·)

def checkedScan (s : Ranges) :
    List Instruction → Except IntervalFault (List Instruction × Ranges)
  | [] => .ok ([], s)
  | i :: rest => do
    let (kept, next) ← s.checkedStep i
    let (more, exit) ← next.checkedScan rest
    return (kept.toList ++ more, exit)

theorem operandChecked (s : Ranges) (src : Operand) :
    s.checkedOperand src = .ok (s.ofOperand src) := by
  cases src with
  | reg r => rfl
  | const n => exact Interval.buildOrdered (Int.le_refl n)

theorem transferChecked (s : Ranges) (i : Instruction) :
    s.checkedTransfer i = .ok (s.transfer i) := by
  cases i with
  | read dst => rfl
  | update op dst src =>
    rw [checkedTransfer, operandChecked]
    cases op with
    | add => exact congrArg (Except.map (s.set dst)) (Interval.addChecked _ _)
    | mul => exact congrArg (Except.map (s.set dst)) (Interval.multiplyChecked _ _)
    | div => exact congrArg (Except.map (s.set dst)) (Interval.divideChecked _ _)
    | mod => exact congrArg (Except.map (s.set dst)) (Interval.moduloChecked _ _)
    | eql => rfl
    | set => rfl

theorem stepChecked (s : Ranges) (i : Instruction) : s.checkedStep i = .ok (s.step i) := by
  unfold checkedStep step
  cases simplify? s i with
  | none => rfl
  | some j => exact congrArg (Except.map (some j, ·)) (transferChecked s j)

theorem scanChecked (s : Ranges) (is : List Instruction) : s.checkedScan is = .ok (s.scan is) := by
  induction is generalizing s with
  | nil => rfl
  | cons i rest ih =>
    rw [checkedScan, stepChecked]
    change (s.step i).2.checkedScan rest >>= _ = _
    rw [ih]
    rfl

def checkedExactly (registers : Registers) : Except IntervalFault Ranges := do
  let w ← Interval.build registers.w registers.w
  let x ← Interval.build registers.x registers.x
  let y ← Interval.build registers.y registers.y
  let z ← Interval.build registers.z registers.z
  return ⟨w, x, y, z⟩

theorem exactlyChecked (registers : Registers) :
    checkedExactly registers = .ok (exactly registers) := by
  have point (n : Int) : Interval.build n n = .ok (Interval.point n) :=
    Interval.buildOrdered (Int.le_refl n)
  simp only [checkedExactly, point]
  rfl

theorem scanEncloses (s : Ranges) (is : List Instruction) :
    s.checkedScan is = .ok (s.scan is) ∧
    (∀ r, ((s.scan is).2.get r).low ≤ ((s.scan is).2.get r).high) ∧
    ∀ registers inputs final, s.Contains registers → (∀ d ∈ inputs, 1 ≤ d ∧ d ≤ 9) →
      execute is inputs registers = .ok final → (s.scan is).2.Contains final := by
  refine ⟨scanChecked s is, fun r => ((s.scan is).2.get r).ordered, ?_⟩
  intro registers inputs final inside digits ran
  obtain ⟨left, last⟩ := executed.mp ran
  have described : s.Describes ⟨registers, inputs⟩ := ⟨inside, digits⟩
  exact (scanDescribes described last).registers

theorem scanEnclosesSigned :
    let s : Ranges := ⟨⟨-7, 7, by decide⟩, ⟨-2, 3, by decide⟩, Interval.zero, ⟨-9, 4, by decide⟩⟩
    let is : List Instruction := [.update .div .w (.reg .x), .read .y, .update .mod .z (.reg .x),
      .update .mul .y (.reg .w)]
    let exit : Ranges := ⟨⟨-7, 7, by decide⟩, ⟨-2, 3, by decide⟩, ⟨-63, 63, by decide⟩,
      ⟨-2, 2, by decide⟩⟩
    s.checkedScan is = .ok (is, exit) ∧ s.Contains ⟨7, -2, 0, -9⟩ ∧
      execute is [6] ⟨7, -2, 0, -9⟩ = .ok ⟨-3, -2, -18, -1⟩ ∧ exit.Contains ⟨-3, -2, -18, -1⟩ := by
  intro s is exit
  have scanned : s.scan is = (is, exit) := by decide +kernel
  obtain ⟨checked, _, encloses⟩ := scanEncloses s is
  rw [scanned] at checked encloses
  have inside : s.Contains ⟨7, -2, 0, -9⟩ := by
    intro r
    cases r <;> decide
  have digit : ∀ d ∈ [6], (1 : Int) ≤ d ∧ d ≤ 9 := by decide
  have ran : execute is [6] ⟨7, -2, 0, -9⟩ = .ok ⟨-3, -2, -18, -1⟩ := rfl
  exact ⟨checked, inside, ran, encloses _ _ _ inside digit ran⟩

end StraightLine.Ranges
