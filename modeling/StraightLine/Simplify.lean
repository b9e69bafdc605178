import StraightLine.Program
import StraightLine.Ranges

/-! Simplification by ranges. A table of rules, tried in order, drops an instruction that cannot
change anything or replaces it by a cheaper one; a replacement goes through the table again.
Each replacement turns an operation into `set` or a register operand into a constant, and so
the rules come to an end. -/
namespace StraightLine

inductive Verdict
  | keep
  | drop
  | become (i : Instruction)
  deriving DecidableEq, Repr

namespace Operation

def isIdentity : Operation → Operand → Bool
  | .add, .const n => n = 0
  | .mul, .const n => n = 1
  | .div, .const n => n = 1
  | _, _ => false

end Operation

def verdict (s : Ranges) : Instruction → Verdict
  | .read _ => .keep
  | .update op dst src =>
    let old := s.get dst
    let operand := s.ofOperand src
    if op.isIdentity src then .drop
    else if (op = .mul ∨ op = .div) ∧ old = Interval.zero then .drop
    else if op = .mul ∧ operand = Interval.zero then .become (.update .set dst (.const 0))
    else if op = .add ∧ old = Interval.zero then .become (.update .set dst src)
    else if src.isRegister ∧ operand.isPoint then .become (.update op dst (.const operand.low))
    else if op = .set ∧ operand = old ∧ operand.isPoint then .drop
    else if op = .mod ∧ ¬src.isRegister ∧ old.liesWithin 0 (operand.low - 1) then .drop
    else if op = .mod ∧ src.isRegister ∧ 0 ≤ old.low ∧ old.high < operand.low then .drop
    else if op = .eql ∧ old.isDisjoint operand then .become (.update .set dst (.const 0))
    else if op = .eql ∧ old.isPoint ∧ old = operand then .become (.update .set dst (.const 1))
    else .keep

namespace Instruction

/-- The most replacements that can follow one another from here. -/
def weight : Instruction → Nat
  | .read _ => 0
  | .update op _ src => (if op = .set then 0 else 1) + (if src.isRegister then 1 else 0)

end Instruction

theorem becomeLighter {s : Ranges} {i j : Instruction} (rule : verdict s i = .become j) :
    j.weight < i.weight := by
  cases i with
  | read dst => cases rule
  | update op dst src =>
    unfold verdict at rule
    dsimp only at rule
    split at rule
    · cases rule
    split at rule
    · cases rule
    split at rule
    · rename_i scaled
      obtain ⟨rfl, _⟩ := scaled
      cases rule
      cases src <;> exact Nat.succ_pos _
    split at rule
    · rename_i added
      obtain ⟨rfl, _⟩ := added
      cases rule
      cases src <;> exact Nat.lt_succ_self _
    split at rule
    · rename_i known
      cases rule
      cases src with
      | reg r => exact Nat.lt_succ_self _
      | const n => cases known.1
    split at rule
    · cases rule
    split at rule
    · cases rule
    split at rule
    · cases rule
    split at rule
    · rename_i apart
      obtain ⟨rfl, _⟩ := apart
      cases rule
      cases src <;> exact Nat.succ_pos _
    split at rule
    · rename_i equal
      obtain ⟨rfl, _⟩ := equal
      cases rule
      cases src <;> exact Nat.succ_pos _
    · cases rule

def simplify? (s : Ranges) (i : Instruction) : Option Instruction :=
  match _rule : verdict s i with
  | .keep => some i
  | .drop => none
  | .become j => simplify? s j
termination_by i.weight
decreasing_by exact becomeLighter _rule

theorem simplifyKept {s : Ranges} {i : Instruction} (rule : verdict s i = .keep) :
    simplify? s i = some i := by
  rw [simplify?]
  split <;> simp_all

theorem simplifyDropped {s : Ranges} {i : Instruction} (rule : verdict s i = .drop) :
    simplify? s i = none := by
  rw [simplify?]
  split <;> simp_all

theorem simplifyReplaced {s : Ranges} {i j : Instruction} (rule : verdict s i = .become j) :
    simplify? s i = simplify? s j := by
  rw [simplify?]
  split <;> simp_all

namespace Ranges

def step (s : Ranges) (i : Instruction) : Option Instruction × Ranges :=
  match simplify? s i with
  | none => (none, s)
  | some j => (some j, s.transfer j)

def scan (s : Ranges) : List Instruction → List Instruction × Ranges
  | [] => ([], s)
  | i :: rest =>
    let (kept, next) := s.step i
    let (more, exit) := next.scan rest
    (kept.toList ++ more, exit)

def history (s : Ranges) : List Instruction → List (Option Instruction × Ranges)
  | [] => []
  | i :: rest => s.step i :: (s.step i).2.history rest

end Ranges

def Program.simplify (p : Program) : Program := (Ranges.zero.scan p).1

end StraightLine
