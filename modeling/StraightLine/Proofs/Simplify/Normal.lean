import StraightLine.Proofs.Simplify.Refinement

/-! Normal code. No rule applies to what a scan leaves, with the ranges that the scan had on
reaching it, so that a second scan from the same ranges leaves the code as it is. -/
namespace StraightLine

theorem simplifiedKept {s : Ranges} {i j : Instruction} (left : simplify? s i = some j) :
    verdict s j = .keep := by
  fun_induction simplify? s i with
  | case1 i kept => cases left; exact kept
  | case2 i dropped => cases left
  | case3 i k replaced ih => exact ih left

inductive Normal : Ranges → List Instruction → Prop
  | nil (s) : Normal s []
  | cons {s i rest} (kept : verdict s i = .keep) (tail : Normal (s.transfer i) rest) :
      Normal s (i :: rest)

theorem scanNormal (s : Ranges) (is : List Instruction) : Normal s (s.scan is).1 := by
  induction is generalizing s with
  | nil => exact .nil s
  | cons i rest ih =>
    cases left : simplify? s i with
    | none =>
      rw [Ranges.scanRemoved left]
      exact ih s
    | some j =>
      rw [Ranges.scanRetained left]
      exact .cons (simplifiedKept left) (ih (s.transfer j))

theorem normalScan {s : Ranges} {is : List Instruction} (normal : Normal s is) :
    (s.scan is).1 = is := by
  induction normal with
  | nil s => rfl
  | cons kept tail ih =>
    rw [Ranges.scanRetained (simplifyKept kept)]
    exact congrArg _ ih

namespace Ranges

theorem scanExit (s : Ranges) (is : List Instruction) :
    (s.scan is).2 = (s.scan is).1.foldl transfer s := by
  induction is generalizing s with
  | nil => rfl
  | cons i rest ih =>
    cases left : simplify? s i with
    | none =>
      rw [scanRemoved left]
      exact ih s
    | some j =>
      rw [scanRetained left]
      exact ih (s.transfer j)

theorem stepKept {s : Ranges} {i : Instruction} (kept : verdict s i = .keep) :
    s.step i = (some i, s.transfer i) := by
  rw [step, simplifyKept kept]

theorem normalHistory {s : Ranges} {is : List Instruction} (normal : Normal s is) :
    (s.history is).map Prod.fst = is.map some := by
  induction normal with
  | nil s => rfl
  | cons kept tail ih =>
    rw [history, stepKept kept]
    exact congrArg _ ih

theorem scanIdempotent (s : Ranges) (is : List Instruction) :
    s.scan (s.scan is).1 = s.scan is ∧
      (s.history (s.scan is).1).map Prod.fst = (s.scan is).1.map some := by
  have normal := scanNormal s is
  have code : (s.scan (s.scan is).1).1 = (s.scan is).1 := normalScan normal
  have exit : (s.scan (s.scan is).1).2 = (s.scan is).2 := by
    rw [scanExit s (s.scan is).1, code, ← scanExit]
  exact ⟨Prod.ext code exit, normalHistory normal⟩

end Ranges

theorem verdictLocal {s t : Ranges} {op : Operation} {dst : Register} {src : Operand}
    (old : s.get dst = t.get dst) (operand : s.ofOperand src = t.ofOperand src) :
    verdict s (.update op dst src) = verdict t (.update op dst src) := by
  simp only [verdict, old, operand]

theorem verdictAssignment (s : Ranges) (dst : Register) (src : Operand) :
    verdict s (.update .set dst src) =
      if src.isRegister = true ∧ (s.ofOperand src).isPoint = true then
        .become (.update .set dst (.const (s.ofOperand src).low))
      else if s.ofOperand src = s.get dst ∧ (s.ofOperand src).isPoint = true then .drop
      else .keep := by
  simp [verdict, Operation.isIdentity]

/- An assignment that stays under some ranges can go under others where the operand is the same:
it then assigns a constant that the destination holds already. -/
theorem assignmentUnder {s t : Ranges} {dst : Register} {src : Operand}
    (kept : verdict s (.update .set dst src) = .keep)
    (operand : s.ofOperand src = t.ofOperand src) :
    verdict t (.update .set dst src) = .keep ∨
      verdict t (.update .set dst src) = .drop ∧ (∃ n, src = .const n) ∧
        t.ofOperand src = t.get dst := by
  rw [verdictAssignment, operand] at kept
  rw [verdictAssignment]
  split at kept
  · cases kept
  · rename_i unknown
    rw [if_neg unknown]
    split
    · rename_i stored
      refine .inr ⟨rfl, ?_, stored.1⟩
      cases src with
      | reg r => exact absurd ⟨rfl, stored.2⟩ unknown
      | const n => exact ⟨n, rfl⟩
    · exact .inl rfl

end StraightLine
