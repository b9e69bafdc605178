import StraightLine.Proofs.Interval.Exact
import StraightLine.Proofs.Simplify.Normal

/-! The range that a step leaves in the destination. Whichever rules apply, it is a function of the
operation and the ranges of destination and operand: that of the plain operation, except that a
remainder below a modulus is left alone and that a comparison with a known outcome is decided. -/
namespace StraightLine

namespace Interval

theorem neutralExact {op : Operation} {e : Int} (neutral : ∀ n, op.eval n e = .ok n)
    (a : Interval) : a.Exact (results op a (point e)) := by
  have known : e ∈ point e := memPoint.mpr rfl
  refine exactOf ⟨_, a.lowMember, e, known, neutral _⟩ ⟨_, a.highMember, e, known, neutral _⟩ ?_
  rintro v ⟨n, left, k, right, value⟩
  rw [memPoint.mp right, neutral] at value
  cases value
  exact left

theorem zeroExact {op : Operation} {a b : Interval}
    (absorbs : ∀ n ∈ a, ∀ k ∈ b, ∀ v, op.eval n k = .ok v → v = 0)
    (reached : ∃ v, v ∈ results op a b) : zero.Exact (results op a b) := by
  have inside : ∀ v ∈ results op a b, v = 0 := by
    rintro v ⟨n, left, k, right, value⟩
    exact absorbs n left k right v value
  obtain ⟨v, result⟩ := reached
  have here : (0 : Int) ∈ results op a b := inside v result ▸ result
  exact exactOf here here fun v mem => memPoint.mpr (inside v mem)

theorem zeroMember {n : Int} : n ∈ zero ↔ n = 0 := memPoint

theorem multiplyZeroLeft (b : Interval) : zero.multiply b = zero := by
  refine exactUnique (multiplyExact zero b) (zeroExact ?_ ?_)
  · intro n left k _ v value
    rw [zeroMember.mp left] at value
    simpa [Operation.eval, eq_comm] using value
  · exact ⟨_, 0, zero.lowMember, b.low, b.lowMember, rfl⟩

theorem multiplyZeroRight (a : Interval) : a.multiply zero = zero := by
  refine exactUnique (multiplyExact a zero) (zeroExact ?_ ?_)
  · intro n _ k right v value
    rw [zeroMember.mp right] at value
    simpa [Operation.eval, eq_comm] using value
  · exact ⟨_, a.low, a.lowMember, 0, zero.lowMember, rfl⟩

theorem divideByZero (a : Interval) : a.divide zero = a := rfl

theorem divideZeroLeft (b : Interval) : zero.divide b = zero := by
  by_cases other : b = zero
  · rw [other, divideByZero]
  · refine exactUnique (divideExact zero other) (zeroExact ?_ ?_)
    · intro n left k _ v value
      obtain ⟨_, same⟩ := quotientValue.mp value
      rw [zeroMember.mp left, Int.zero_tdiv] at same
      exact same.symm
    · obtain ⟨k, member, nonzero⟩ := nonzeroMember other
      exact ⟨_, 0, zero.lowMember, k, member, quotientValue.mpr ⟨nonzero, rfl⟩⟩

theorem addZeroLeft (b : Interval) : zero.add b = b := by
  exact sameBounds (Int.zero_add b.low) (Int.zero_add b.high)

end Interval

namespace Operation

def effect : Operation → Interval → Interval → Interval
  | .add, old, operand => old.add operand
  | .mul, old, operand => old.multiply operand
  | .div, old, operand => old.divide operand
  | .mod, old, operand =>
    if 0 ≤ old.low ∧ old.high < operand.low then old else old.modulo operand
  | .eql, old, operand =>
    if old.isDisjoint operand then Interval.zero
    else if old.isPoint ∧ old = operand then Interval.point 1
    else Interval.truth
  | .set, _, operand => operand

theorem effectIdentity {op : Operation} {n : Int} (neutral : op.isIdentity (.const n) = true)
    (old : Interval) : op.effect old (Interval.point n) = old := by
  have exact := Interval.neutralExact (identityNeutral neutral) old
  cases op with
  | add => exact Interval.exactUnique (Interval.addExact _ _) exact
  | mul => exact Interval.exactUnique (Interval.multiplyExact _ _) exact
  | div =>
    have other : Interval.point n ≠ Interval.zero := by
      simp only [isIdentity, decide_eq_true_eq] at neutral
      subst n
      decide
    exact Interval.exactUnique (Interval.divideExact old other) exact
  | mod => cases neutral
  | eql => cases neutral
  | set => cases neutral

theorem effectZeroLeft {op : Operation} (scaling : op = .mul ∨ op = .div) (operand : Interval) :
    op.effect Interval.zero operand = Interval.zero := by
  rcases scaling with rfl | rfl
  · exact Interval.multiplyZeroLeft operand
  · exact Interval.divideZeroLeft operand

theorem effectBelow {old operand : Interval} (nonneg : 0 ≤ old.low)
    (below : old.high < operand.low) : mod.effect old operand = old :=
  if_pos ⟨nonneg, below⟩

end Operation

variable {s : Ranges} {op : Operation} {dst : Register} {src : Operand}

theorem dropEffect (rule : Rule s (.update op dst src) .drop) :
    op.effect (s.get dst) (s.ofOperand src) = s.get dst := by
  cases rule with
  | identity neutral => exact Operation.effectIdentity neutral (s.get dst)
  | zeroScaled scaling old => rw [old]; exact Operation.effectZeroLeft scaling _
  | storedAlready same _ => exact same
  | belowModulus within =>
    simp only [Interval.liesWithin, decide_eq_true_eq] at within
    exact Operation.effectBelow within.1 (Int.lt_of_le_sub_one within.2)
  | belowModulusRange nonneg below => exact Operation.effectBelow nonneg below

theorem becomeEffect {j : Instruction} (rule : Rule s (.update op dst src) (.become j)) :
    ∃ cheaper other, j = .update cheaper dst other ∧
      cheaper.effect (s.get dst) (s.ofOperand other) =
        op.effect (s.get dst) (s.ofOperand src) := by
  cases rule with
  | zeroFactor operand =>
    refine ⟨_, _, rfl, ?_⟩
    rw [operand]
    exact (Interval.multiplyZeroRight _).symm
  | zeroSummand old =>
    refine ⟨_, _, rfl, ?_⟩
    rw [old]
    exact (Interval.addZeroLeft _).symm
  | @knownOperand _ _ r point =>
    refine ⟨_, _, rfl, congrArg (op.effect (s.get dst)) ?_⟩
    simp only [Interval.isPoint, decide_eq_true_eq] at point
    exact Interval.sameBounds rfl point
  | neverEqual apart => exact ⟨_, _, rfl, (if_pos apart).symm⟩
  | alwaysEqual point same =>
    have meets : ¬ (s.get dst).isDisjoint (s.ofOperand src) = true :=
      same ▸ Interval.selfMeets (s.get dst)
    have decided : Operation.eql.effect (s.get dst) (s.ofOperand src) = Interval.point 1 := by
      rw [Operation.effect, if_neg meets, if_pos ⟨point, same⟩]
    exact ⟨_, _, rfl, decided.symm⟩

theorem keptEffect (kept : verdict s (.update op dst src) = .keep) :
    s.transfer (.update op dst src) = s.set dst (op.effect (s.get dst) (s.ofOperand src)) := by
  cases op with
  | add => rfl
  | mul => rfl
  | div => rfl
  | mod =>
    have above : ¬ (0 ≤ (s.get dst).low ∧ (s.get dst).high < (s.ofOperand src).low) := by
      rintro ⟨nonneg, below⟩
      cases src with
      | const n =>
        have within : (s.get dst).liesWithin 0 (n - 1) = true :=
          decide_eq_true ⟨nonneg, Int.le_sub_one_of_lt below⟩
        exact ruleChanges (.belowModulus within) kept
      | reg r => exact ruleChanges (.belowModulusRange nonneg below) kept
    exact congrArg (s.set dst) (if_neg above).symm
  | eql =>
    have meets : ¬ (s.get dst).isDisjoint (s.ofOperand src) = true :=
      fun apart => ruleChanges (.neverEqual apart) kept
    have unequal : ¬ ((s.get dst).isPoint = true ∧ s.get dst = s.ofOperand src) :=
      fun equal => ruleChanges (.alwaysEqual equal.1 equal.2) kept
    refine congrArg (s.set dst) ?_
    rw [Operation.effect, if_neg meets, if_neg unequal]
  | set => rfl

namespace Ranges

theorem stepRead (s : Ranges) (dst : Register) :
    (s.step (.read dst)).2 = s.set dst Interval.digit := by
  rw [stepKept rfl]
  rfl

theorem stepEffect (s : Ranges) (op : Operation) (dst : Register) (src : Operand) :
    (s.step (.update op dst src)).2 =
      s.set dst (op.effect (s.get dst) (s.ofOperand src)) := by
  generalize shape : Instruction.update op dst src = i
  fun_induction simplify? s i generalizing op src with
  | case1 i kept =>
    subst shape
    rw [stepKept kept]
    exact keptEffect kept
  | case2 i dropped =>
    subst shape
    have rule := ruleOfVerdict dropped (by simp)
    rw [dropEffect rule, PerRegister.setGet, step, simplifyDropped dropped]
  | case3 i j replaced ih =>
    subst shape
    obtain ⟨cheaper, other, rfl, same⟩ := becomeEffect (ruleOfVerdict replaced (by simp))
    rw [step, simplifyReplaced replaced, ← same]
    exact ih cheaper other rfl

end Ranges
end StraightLine
