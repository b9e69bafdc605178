import Mathlib.Logic.Relation
import StraightLine.Proofs.Liveness.Agreement

/-! Chains of definitions and uses. An instruction feeds a later one that reads its destination
before anything overwrites it, and it is observed when it writes the output register and nothing
after it overwrites that. The mask of the sweep keeps the input reads, and beyond them exactly the
instructions from which a chain leads to an observed one. -/
namespace StraightLine
namespace Instruction

def Reads : Instruction → Register → Prop
  | .read _, _ => False
  | .update op dst src, r => src = .reg r ∨ op ≠ .set ∧ dst = r

theorem readsUpdate {i : Instruction} {r : Register} (reads : i.Reads r) : i.isRead = false := by
  cases i with
  | read dst => cases reads
  | update op dst src => rfl

end Instruction

namespace Live

def Spares (is : List Instruction) (r : Register) : Prop := ∀ i ∈ is, ¬ i.Overwrites r

theorem sparesCons {i : Instruction} {is : List Instruction} {r : Register} :
    Spares (i :: is) r ↔ ¬ i.Overwrites r ∧ Spares is r := List.forall_mem_cons

/- What lies strictly between the two places is the code up to the second without that through the
first. -/
def Feeds (is : List Instruction) (a b : Nat) : Prop :=
  a < b ∧ ∃ i j, is[a]? = some i ∧ is[b]? = some j ∧ i.isRead = false ∧ j.Reads i.dst ∧
    Spares ((is.take b).drop (a + 1)) i.dst

def Observed (output : Register) (is : List Instruction) (a : Nat) : Prop :=
  ∃ i, is[a]? = some i ∧ i.isRead = false ∧ i.dst = output ∧ Spares (is.drop (a + 1)) output

def Reaches (output : Register) (is : List Instruction) (a : Nat) : Prop :=
  ∃ b, Relation.ReflTransGen (Feeds is) a b ∧ Observed output is b

def Exposed (is : List Instruction) (r : Register) (b : Nat) : Prop :=
  ∃ j, is[b]? = some j ∧ j.Reads r ∧ Spares (is.take b) r

/- What makes the content of a register on entry matter: it is the output and is left alone, or a
chain starts where it is read. -/
def Wanted (output : Register) (is : List Instruction) (r : Register) : Prop :=
  r = output ∧ Spares is output ∨ ∃ b, Exposed is r b ∧ Reaches output is b

variable {output r : Register} {i : Instruction} {rest : List Instruction} {a b : Nat}

theorem feedsTail : Feeds (i :: rest) (a + 1) (b + 1) ↔ Feeds rest a b := by
  simp [Feeds]

theorem feedsHead : Feeds (i :: rest) 0 (b + 1) ↔ i.isRead = false ∧ Exposed rest i.dst b := by
  constructor
  · rintro ⟨_, _, j, first, found, quiet, reads, spared⟩
    cases first
    exact ⟨quiet, j, found, reads, spared⟩
  · rintro ⟨quiet, j, found, reads, spared⟩
    exact ⟨Nat.succ_pos b, i, j, rfl, found, quiet, reads, spared⟩

theorem observedHead :
    Observed output (i :: rest) 0 ↔ i.isRead = false ∧ i.dst = output ∧ Spares rest output := by
  simp [Observed]

theorem chainTail {c : Nat} :
    Relation.ReflTransGen (Feeds (i :: rest)) (a + 1) c ↔
      ∃ b, c = b + 1 ∧ Relation.ReflTransGen (Feeds rest) a b := by
  constructor
  · intro chain
    induction chain with
    | refl => exact ⟨a, rfl, .refl⟩
    | @tail _ c chain fed ih =>
      obtain ⟨b, rfl, earlier⟩ := ih
      cases c with
      | zero => exact absurd fed.1 (Nat.not_lt_zero _)
      | succ c => exact ⟨c, rfl, earlier.tail (feedsTail.mp fed)⟩
  · rintro ⟨b, rfl, chain⟩
    exact chain.lift (· + 1) fun _ _ fed => feedsTail.mpr fed

theorem reachesTail : Reaches output (i :: rest) (a + 1) ↔ Reaches output rest a := by
  constructor
  · rintro ⟨_, chain, seen⟩
    obtain ⟨b, rfl, later⟩ := chainTail.mp chain
    exact ⟨b, later, seen⟩
  · rintro ⟨b, chain, seen⟩
    exact ⟨b + 1, chainTail.mpr ⟨b, rfl, chain⟩, seen⟩

theorem reachesHead :
    Reaches output (i :: rest) 0 ↔ i.isRead = false ∧ Wanted output rest i.dst := by
  constructor
  · rintro ⟨last, chain, seen⟩
    rcases chain.cases_head with rfl | ⟨next, fed, later⟩
    · obtain ⟨quiet, written, spared⟩ := observedHead.mp seen
      exact ⟨quiet, .inl ⟨written, spared⟩⟩
    · cases next with
      | zero => exact absurd fed.1 (Nat.lt_irrefl 0)
      | succ b =>
        obtain ⟨quiet, exposed⟩ := feedsHead.mp fed
        exact ⟨quiet, .inr ⟨b, exposed, reachesTail.mp ⟨last, later, seen⟩⟩⟩
  · rintro ⟨quiet, ⟨written, spared⟩ | ⟨b, exposed, reaches⟩⟩
    · exact ⟨0, .refl, observedHead.mpr ⟨quiet, written, spared⟩⟩
    · obtain ⟨last, later, seen⟩ := reachesTail.mpr reaches
      exact ⟨last, .head (feedsHead.mpr ⟨quiet, exposed⟩) later, seen⟩

theorem wantedCons :
    Wanted output (i :: rest) r ↔
      i.Reads r ∧ Wanted output rest i.dst ∨ ¬ i.Overwrites r ∧ Wanted output rest r := by
  constructor
  · rintro (⟨rfl, spared⟩ | ⟨b, ⟨j, found, reads, spared⟩, reaches⟩)
    · obtain ⟨first, later⟩ := sparesCons.mp spared
      exact .inr ⟨first, .inl ⟨rfl, later⟩⟩
    · cases b with
      | zero =>
        cases found
        exact .inl ⟨reads, (reachesHead.mp reaches).2⟩
      | succ b =>
        obtain ⟨first, later⟩ := sparesCons.mp spared
        exact .inr ⟨first, .inr ⟨b, ⟨j, found, reads, later⟩, reachesTail.mp reaches⟩⟩
  · rintro (⟨reads, wanted⟩ | ⟨first, ⟨rfl, later⟩ | ⟨b, ⟨j, found, reads, later⟩, reaches⟩⟩)
    · exact .inr ⟨0, ⟨i, rfl, reads, nofun⟩, reachesHead.mpr ⟨i.readsUpdate reads, wanted⟩⟩
    · exact .inl ⟨rfl, sparesCons.mpr ⟨first, later⟩⟩
    · exact .inr ⟨b + 1, ⟨j, found, reads, sparesCons.mpr ⟨first, later⟩⟩, reachesTail.mpr reaches⟩

theorem wantedNil : Wanted output [] r ↔ r = output := by
  simp [Wanted, Exposed, Spares]

theorem neededGet {after : Live} (needed : after.needs i = true) :
    (after.transfer i).get r = true ↔
      i.Reads r ∧ after.get i.dst = true ∨ ¬ i.Overwrites r ∧ after.get r = true := by
  rw [transferGet]
  cases i with
  | read dst => simp [Instruction.operand?, Instruction.Reads]
  | update op dst src =>
    have alive := neededUpdate needed
    constructor
    · rintro (source | kept)
      · exact .inl ⟨.inl (Option.some.inj source), alive⟩
      · exact .inr kept
    · rintro (⟨source | ⟨modifies, rfl⟩, _⟩ | kept)
      · exact .inl (congrArg some source)
      · exact .inr ⟨fun overwrites => modifies overwrites.1, alive⟩
      · exact .inr kept

theorem enteringWanted (output : Register) (is : List Instruction) (r : Register) :
    ((observing output).entering is).get r = true ↔ Wanted output is r := by
  -- what is dropped writes a register that is not wanted after it, so that neither what it reads
  -- nor what it overwrites changes what is wanted before it
  induction is generalizing r with
  | nil =>
    rw [wantedNil]
    change (observing output).get r = true ↔ r = output
    rw [observing, PerRegister.getSet, PerRegister.getUniform]
    simp
  | cons i rest ih =>
    rw [wantedCons, ← ih i.dst, ← ih r]
    cases needed : ((observing output).entering rest).needs i with
    | true =>
      rw [enteringKept needed]
      exact neededGet needed
    | false =>
      obtain ⟨_, dead⟩ := deadUpdate needed
      rw [enteringDropped needed]
      constructor
      · intro wanted
        refine .inr ⟨fun overwrites => ?_, wanted⟩
        rw [i.overwritesDestination overwrites, wanted] at dead
        cases dead
      · rintro (⟨_, alive⟩ | ⟨_, wanted⟩)
        · rw [dead] at alive
          cases alive
        · exact wanted

theorem neededReaches :
    ((observing output).entering rest).needs i = true ↔
      i.isRead = true ∨ Reaches output (i :: rest) 0 := by
  rw [reachesHead, ← enteringWanted, needs, Bool.or_eq_true]
  cases i.isRead <;> simp

end Live

theorem Program.liveMaskReaches (output : Register) (p : Program) (k : Nat) :
    (p.liveMask output)[k]? = some true ↔
      ∃ i, p[k]? = some i ∧ (i.isRead = true ∨ Live.Reaches output p k) := by
  rw [liveMask]
  induction p generalizing k with
  | nil => simp [Live.sweep]
  | cons i rest ih =>
    rw [Live.sweepKept]
    cases k with
    | zero => simpa using Live.neededReaches
    | succ k =>
      simp only [List.getElem?_cons_succ, Live.reachesTail]
      exact ih k

end StraightLine
