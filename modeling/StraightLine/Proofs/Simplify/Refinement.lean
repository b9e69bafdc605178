import StraightLine.Proofs.Simplify.Rule

/-! Simplified instructions run as the original ones do. What is left of an instruction takes the
same step on every described machine, so that a scan keeps registers, inputs, faults and the
registers at a fault. The one thing it can hide is a division of zero by zero. -/
namespace StraightLine

theorem simplifyRemoved {s : Ranges} {m : Machine} {i : Instruction} (described : s.Describes m)
    (gone : simplify? s i = none) : m.step i = .ok m ∨ m.step i = .error (.divisionByZero 0) := by
  fun_induction simplify? s i with
  | case1 i kept => cases gone
  | case2 i dropped => exact dropStep described (ruleOfVerdict dropped (by simp))
  | case3 i j replaced ih =>
    rw [← becomeStep described (ruleOfVerdict replaced (by simp))]
    exact ih gone

theorem simplifyRetained {s : Ranges} {m : Machine} {i j : Instruction}
    (described : s.Describes m) (left : simplify? s i = some j) : m.step j = m.step i := by
  fun_induction simplify? s i with
  | case1 i kept => cases left; rfl
  | case2 i dropped => cases left
  | case3 i k replaced ih =>
    rw [ih left]
    exact becomeStep described (ruleOfVerdict replaced (by simp))

namespace Ranges

theorem scanRemoved {s : Ranges} {i : Instruction} (gone : simplify? s i = none)
    (rest : List Instruction) : s.scan (i :: rest) = s.scan rest := by
  simp [scan, step, gone]

theorem scanRetained {s : Ranges} {i j : Instruction} (left : simplify? s i = some j)
    (rest : List Instruction) :
    s.scan (i :: rest) = (j :: ((s.transfer j).scan rest).1, ((s.transfer j).scan rest).2) := by
  simp [scan, step, left]

theorem scanRun {s : Ranges} {m : Machine} (described : s.Describes m) (is : List Instruction) :
    (∃ registers, m.run is = .error ⟨.divisionByZero 0, registers⟩) ∨
      m.run (s.scan is).1 = m.run is := by
  -- the ranges that the scan reaches describe the machine that the run reaches
  induction is generalizing s m with
  | nil => exact .inr rfl
  | cons i rest ih =>
    cases left : simplify? s i with
    | none =>
      rw [scanRemoved left]
      rcases simplifyRemoved described left with ran | failed
      · rw [Machine.runStep ran]
        exact ih described
      · exact .inl ⟨m.registers, Machine.runCrash failed rest⟩
    | some j =>
      rw [scanRetained left]
      have same := simplifyRetained described left
      cases ran : m.step j with
      | error fault =>
        rw [Machine.runCrash ran, Machine.runCrash (same ▸ ran)]
        exact .inr rfl
      | ok next =>
        rw [Machine.runStep ran, Machine.runStep (same ▸ ran)]
        exact ih (transferDescribes described ran)

theorem scanDescribes {s : Ranges} {m last : Machine} (described : s.Describes m)
    {is : List Instruction} (ran : m.run is = .ok last) : (s.scan is).2.Describes last := by
  induction is generalizing s m with
  | nil => cases ran; exact described
  | cons i rest ih =>
    obtain ⟨next, first, later⟩ := Machine.runFirst ran
    cases left : simplify? s i with
    | none =>
      rw [scanRemoved left]
      have same : m = next := by
        rcases simplifyRemoved described left with kept | failed
        · exact Except.ok.inj (kept.symm.trans first)
        · rw [failed] at first; cases first
      exact ih (same ▸ described) later
    | some j =>
      rw [scanRetained left]
      have same := simplifyRetained described left
      exact ih (transferDescribes described (same.trans first)) later

theorem scanPreserves {s : Ranges} {registers : Registers} (inside : s.Contains registers)
    (is : List Instruction) {inputs : List Int} (digits : ∀ d ∈ inputs, 1 ≤ d ∧ d ≤ 9) :
    execute (s.scan is).1 inputs registers = execute is inputs registers ∨
      ∃ crash, execute is inputs registers = .error crash ∧ crash.fault = .divisionByZero 0 ∧
        crash.message = .ok "division by zero (0 / 0)" := by
  have described : s.Describes ⟨registers, inputs⟩ := ⟨inside, digits⟩
  have message : (Fault.divisionByZero 0).message = .ok "division by zero (0 / 0)" := rfl
  rcases scanRun described is with ⟨atCrash, hidden⟩ | same
  · exact .inr ⟨⟨.divisionByZero 0, atCrash⟩, executeCrashed.mpr hidden, rfl, message⟩
  · exact .inl (congrArg (Except.map Machine.registers) same)

theorem scanPreservesSigned :
    let s : Ranges := ⟨⟨-5, 5, by decide⟩, Interval.zero, ⟨-3, 2, by decide⟩, Interval.digit⟩
    let is : List Instruction := [.update .div .x (.reg .y), .update .mod .z (.const 10),
      .update .mul .w (.reg .y), .read .x, .update .mod .x (.reg .z)]
    let left : List Instruction :=
      [.update .mul .w (.reg .y), .read .x, .update .mod .x (.reg .z)]
    (s.scan is).1 = left ∧
      (execute left [8] ⟨-4, 0, -2, 6⟩ = execute is [8] ⟨-4, 0, -2, 6⟩ ∨
        ∃ crash, execute is [8] ⟨-4, 0, -2, 6⟩ = .error crash ∧
          crash.fault = .divisionByZero 0 ∧ crash.message = .ok "division by zero (0 / 0)") := by
  intro s is left
  have inside : s.Contains ⟨-4, 0, -2, 6⟩ := by
    intro r
    cases r <;> decide
  have scanned : (s.scan is).1 = left := by decide +kernel
  have digit : ∀ d ∈ [8], (1 : Int) ≤ d ∧ d ≤ 9 := by decide
  have preserved := scanPreserves inside is digit
  rw [scanned] at preserved
  exact ⟨scanned, preserved⟩

end Ranges
end StraightLine
