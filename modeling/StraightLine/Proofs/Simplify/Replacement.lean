import StraightLine.Proofs.Simplify.Normal

/-! Replacements, one after another. The table is applied again to what it puts in place of an
instruction, at most twice, and what is left then is the same whenever it is simplified once more.
It is the instruction itself, an assignment to the same register, or the instruction with a
constant in place of a register that is known to hold it; and it reads no register that is known. -/
namespace StraightLine

/- The table applied until it replaces nothing: the number of replacements and what is left. -/
inductive Rewrites (s : Ranges) : Nat → Instruction → Option Instruction → Prop
  | kept {i} (rule : verdict s i = .keep) : Rewrites s 0 i (some i)
  | dropped {i} (rule : verdict s i = .drop) : Rewrites s 0 i none
  | replaced {i j n left} (rule : verdict s i = .become j) (next : Rewrites s n j left) :
      Rewrites s (n + 1) i left

inductive LeftOf (s : Ranges) (i : Instruction) : Instruction → Prop
  | same : LeftOf s i i
  | assigned (src : Operand) : LeftOf s i (.update .set i.dst src)
  | known {r n j} (register : i.operand? = some (.reg r)) (holds : s.get r = Interval.point n)
      (constant : i.withOperand (some (.const n)) = .ok j) : LeftOf s i j

variable {s : Ranges}

theorem rewritesWithin (s : Ranges) (i : Instruction) :
    ∃ n ≤ i.weight, Rewrites s n i (simplify? s i) := by
  fun_induction simplify? s i with
  | case1 i kept => exact ⟨0, Nat.zero_le _, .kept kept⟩
  | case2 i dropped => exact ⟨0, Nat.zero_le _, .dropped dropped⟩
  | case3 i j replaced ih =>
    obtain ⟨n, few, next⟩ := ih
    exact ⟨n + 1, Nat.lt_of_le_of_lt few (becomeLighter replaced), .replaced replaced next⟩

theorem rewritesLeft {n : Nat} {i : Instruction} {left : Option Instruction}
    (rewrites : Rewrites s n i left) : simplify? s i = left := by
  induction rewrites with
  | kept rule => exact simplifyKept rule
  | dropped rule => exact simplifyDropped rule
  | replaced rule next ih => exact (simplifyReplaced rule).trans ih

theorem weightAtMostTwo (i : Instruction) : i.weight ≤ 2 := by
  cases i with
  | read dst => exact Nat.zero_le 2
  | update op dst src =>
    rw [Instruction.weight]
    split <;> split <;> decide

theorem leftOfAssignment {dst : Register} {src : Operand} {j : Instruction}
    (left : LeftOf s (.update .set dst src) j) : ∃ other, j = .update .set dst other := by
  cases left with
  | same => exact ⟨src, rfl⟩
  | assigned other => exact ⟨other, rfl⟩
  | known register holds constant =>
    cases constant
    exact ⟨_, rfl⟩

theorem leftOfReplaced {i k j : Instruction} (rule : Rule s i (.become k)) (left : LeftOf s k j) :
    LeftOf s i j := by
  cases rule with
  | @knownOperand op dst r point =>
    simp only [Interval.isPoint, decide_eq_true_eq] at point
    -- no register is left as an operand, and so only the operation can change from here
    cases left with
    | same => exact .known rfl (Interval.sameBounds rfl point.symm) rfl
    | assigned src => exact .assigned src
    | known register _ _ => cases register
  | zeroFactor _ | zeroSummand _ | neverEqual _ | alwaysEqual _ _ =>
    obtain ⟨src, rfl⟩ := leftOfAssignment left
    exact .assigned src

theorem simplifiedLeft {i j : Instruction} (left : simplify? s i = some j) : LeftOf s i j := by
  fun_induction simplify? s i with
  | case1 i kept =>
    cases left
    exact .same
  | case2 i dropped => cases left
  | case3 i k replaced ih => exact leftOfReplaced (ruleOfVerdict replaced (by simp)) (ih left)

theorem leftDestination {i j : Instruction} (left : LeftOf s i j) : j.dst = i.dst := by
  cases left with
  | same => rfl
  | assigned src => rfl
  | known register holds constant =>
    cases i with
    | read dst => cases register
    | update op dst src =>
      cases constant
      rfl

theorem keptUnknown {j : Instruction} {r : Register} (kept : verdict s j = .keep)
    (register : j.operand? = some (.reg r)) : (s.get r).isPoint = false := by
  cases j with
  | read dst => cases register
  | update op dst src =>
    cases register
    exact Bool.eq_false_iff.mpr fun point => ruleChanges (.knownOperand point) kept

theorem simplifyNormal (s : Ranges) (i : Instruction) :
    (∃ n ≤ 2, Rewrites s n i (simplify? s i)) ∧
    (∀ n left, Rewrites s n i left → left = simplify? s i) ∧
    ∀ j, simplify? s i = some j →
      simplify? s j = some j ∧ j.dst = i.dst ∧ LeftOf s i j ∧
        ∀ r, j.operand? = some (.reg r) → (s.get r).isPoint = false := by
  obtain ⟨n, few, rewrites⟩ := rewritesWithin s i
  have atMost : n ≤ 2 := Nat.le_trans few (weightAtMostTwo i)
  refine ⟨⟨n, atMost, rewrites⟩, fun n left rewrites => (rewritesLeft rewrites).symm, ?_⟩
  intro j left
  have kept := simplifiedKept left
  have shape := simplifiedLeft left
  exact ⟨simplifyKept kept, leftDestination shape, shape, fun r => keptUnknown kept⟩

theorem simplifyNormalSummand :
    let s : Ranges := ⟨Interval.digit, Interval.zero, Interval.point 5, ⟨2, 4, by decide⟩⟩
    let i : Instruction := .update .add .x (.reg .y)
    let j : Instruction := .update .set .x (.const 5)
    let k : Instruction := .update .mul .z (.reg .w)
    Rewrites s 2 i (some j) ∧ simplify? s i = some j ∧ simplify? s j = some j ∧ LeftOf s i j ∧
      simplify? s k = some k ∧ (s.get .w).isPoint = false := by
  intro s i j k
  have summand : verdict s i = .become (.update .set .x (.reg .y)) := by decide
  have operand : verdict s (.update .set .x (.reg .y)) = .become j := by decide
  have last : verdict s j = .keep := by decide
  have rewrites : Rewrites s 2 i (some j) := .replaced summand (.replaced operand (.kept last))
  obtain ⟨_, unique, normal⟩ := simplifyNormal s i
  have left := (unique 2 (some j) rewrites).symm
  obtain ⟨again, _, shape, _⟩ := normal j left
  have kept : simplify? s k = some k := simplifyKept (by decide)
  have unknown := ((simplifyNormal s k).2.2 k kept).2.2.2
  exact ⟨rewrites, left, again, shape, kept, unknown .w rfl⟩

end StraightLine
