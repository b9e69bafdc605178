import StraightLine.Proofs.Fixpoint.Rounds
import StraightLine.Proofs.Liveness.Agreement
import StraightLine.Proofs.Simplify.Refinement

/-! Thinned code. Optimization takes instructions out, never a read, and may recast one in its place
as another operation on the same register. Both passes and so all rounds thin a program: its input
reads stay in their order, a read that opens it still does, and no instruction is added. -/
namespace StraightLine

structure Recasts (i j : Instruction) : Prop where
  dst : j.dst = i.dst
  read : j.isRead = i.isRead
  opcode : j.opcode = i.opcode ∨ j.opcode = .update .set

theorem recastsSelf (i : Instruction) : Recasts i i := ⟨rfl, rfl, .inl rfl⟩

theorem recastsThrough {i j k : Instruction} (first : Recasts i j) (second : Recasts j k) :
    Recasts i k := by
  refine ⟨second.dst.trans first.dst, second.read.trans first.read, ?_⟩
  rcases second.opcode with same | assigned
  · exact first.opcode.imp same.trans same.trans
  · exact .inr assigned

theorem recastsRead {i j : Instruction} (recasts : Recasts i j) (reads : i.isRead = true) :
    j = i := by
  have readsToo := recasts.read.trans reads
  cases i with
  | update op dst src => cases reads
  | read dst =>
    cases j with
    | update op other src => cases readsToo
    | read other => exact congrArg Instruction.read recasts.dst

inductive Thins : List Instruction → List Instruction → Prop
  | nil : Thins [] []
  | stays {i j rest more} (recasts : Recasts i j) (tail : Thins rest more) :
      Thins (i :: rest) (j :: more)
  | goes {i rest more} (quiet : i.isRead = false) (tail : Thins rest more) :
      Thins (i :: rest) more

theorem thinsSelf (is : List Instruction) : Thins is is := by
  induction is with
  | nil => exact .nil
  | cons i rest ih => exact .stays (recastsSelf i) ih

theorem thinsThrough {is js ks : List Instruction} (first : Thins is js) (second : Thins js ks) :
    Thins is ks := by
  induction first generalizing ks with
  | nil => exact second
  | stays recasts tail ih =>
    cases second with
    | stays further later => exact .stays (recastsThrough recasts further) (ih later)
    | goes quiet later => exact .goes (recasts.read.symm.trans quiet) (ih later)
  | goes quiet tail ih => exact .goes quiet (ih second)

section
variable {is js : List Instruction} (thins : Thins is js)
include thins

theorem thinsShorter : js.length ≤ is.length := by
  induction thins with
  | nil => exact Nat.le_refl 0
  | stays recasts tail ih => exact Nat.succ_le_succ ih
  | goes quiet tail ih => exact Nat.le_succ_of_le ih

theorem thinsReads : js.filter Instruction.isRead = is.filter Instruction.isRead := by
  induction thins with
  | nil => rfl
  | @stays i j rest more recasts tail ih =>
    cases reads : i.isRead with
    | true => simp [recastsRead recasts reads, reads, ih]
    | false => simp [recasts.read, reads, ih]
  | goes quiet tail ih => simp [quiet, ih]

theorem thinsOpens {dst : Register} (opens : is.head? = some (.read dst)) :
    js.head? = some (.read dst) := by
  cases thins with
  | nil => cases opens
  | stays recasts tail =>
    cases opens
    exact congrArg some (recastsRead recasts rfl)
  | goes quiet tail =>
    cases opens
    cases quiet

end

theorem becomeRecasts {s : Ranges} {i j : Instruction} (rule : Rule s i (.become j)) :
    Recasts i j := by
  cases rule with
  | knownOperand point => exact ⟨rfl, rfl, .inl rfl⟩
  | zeroFactor operand => exact ⟨rfl, rfl, .inr rfl⟩
  | zeroSummand old => exact ⟨rfl, rfl, .inr rfl⟩
  | neverEqual apart => exact ⟨rfl, rfl, .inr rfl⟩
  | alwaysEqual point same => exact ⟨rfl, rfl, .inr rfl⟩

theorem simplifiedRecasts {s : Ranges} {i j : Instruction} (left : simplify? s i = some j) :
    Recasts i j := by
  fun_induction simplify? s i with
  | case1 i kept => cases left; exact recastsSelf _
  | case2 i dropped => cases left
  | case3 i k replaced ih =>
    exact recastsThrough (becomeRecasts (ruleOfVerdict replaced (by simp))) (ih left)

theorem simplifyOfRead (s : Ranges) (dst : Register) : simplify? s (.read dst) = some (.read dst) :=
  simplifyKept rfl

theorem removedRead {s : Ranges} {i : Instruction} (gone : simplify? s i = none) :
    i.isRead = false := by
  cases i with
  | read dst => rw [simplifyOfRead] at gone; cases gone
  | update op dst src => rfl

theorem Ranges.scanThins (s : Ranges) (is : List Instruction) : Thins is (s.scan is).1 := by
  induction is generalizing s with
  | nil => exact .nil
  | cons i rest ih =>
    cases left : simplify? s i with
    | none =>
      rw [scanRemoved left]
      exact .goes (removedRead left) (ih s)
    | some j =>
      rw [scanRetained left]
      exact .stays (simplifiedRecasts left) (ih (s.transfer j))

theorem Live.retainedThins (atEnd : Live) (is : List Instruction) :
    Thins is (atEnd.retained is) := by
  induction is with
  | nil => exact .nil
  | cons i rest ih =>
    cases needed : (atEnd.entering rest).needs i with
    | true =>
      rw [retainedKept needed]
      exact .stays (recastsSelf i) ih
    | false =>
      obtain ⟨⟨op, dst, src, rfl⟩, _⟩ := deadUpdate needed
      rw [retainedDropped needed]
      exact .goes rfl ih

namespace Program
variable {output : Register} {maxRounds : Int} {p : Program} {s : Stable}

theorem roundThins (output : Register) (p : Program) : Thins p (p.round output) :=
  thinsThrough (Ranges.scanThins Ranges.zero p) (Live.retainedThins _ p.simplify)

theorem stableThins (stable : p.stabilize output maxRounds = .ok s) : Thins p s.program :=
  stabilizeKeeps (P := Thins p) (fun q thins => thinsThrough thins (roundThins output q))
    (thinsSelf p) stable

theorem stableInputCount (stable : p.stabilize output maxRounds = .ok s) :
    s.program.inputCount = p.inputCount := by
  rw [inputCount, inputCount, List.countP_eq_length_filter, List.countP_eq_length_filter,
    thinsReads (stableThins stable)]

theorem stableShorter (stable : p.stabilize output maxRounds = .ok s) :
    s.program.length ≤ p.length := thinsShorter (stableThins stable)

theorem stableOpens {dst : Register} (opens : p.head? = some (.read dst))
    (stable : p.stabilize output maxRounds = .ok s) : s.program.head? = some (.read dst) :=
  thinsOpens (stableThins stable) opens

end Program
end StraightLine
