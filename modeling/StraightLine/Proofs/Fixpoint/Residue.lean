import StraightLine.Proofs.Fixpoint.Refinement

/-! What optimization leaves of each instruction, at its place: the instruction as it stands after
the rounds, or nothing where it is gone; what is left, in order, is the optimized program. An
instruction that fails and leaves something makes the optimized program fail too, and so an
arithmetic fault that the optimized program does not run into lies at an instruction that is
gone. -/
namespace StraightLine

abbrev Residue := List (Option Instruction)

namespace Residue

def place (residue : Residue) (k : Nat) : Nat := (residue.take k).countP Option.isSome

/- What is left in the end, when the second residue is that of the code left by the first one. -/
def through : Residue → Residue → Residue
  | [], _ => []
  | none :: first, second => none :: through first second
  | some _ :: first, second => second.head?.join :: through first second.tail

def code (residue : Residue) : List Instruction := residue.filterMap id

theorem placeRemoved (residue : Residue) (k : Nat) :
    place (none :: residue) (k + 1) = place residue k := by
  simp [place]

theorem placeRetained (i : Instruction) (residue : Residue) (k : Nat) :
    place (some i :: residue) (k + 1) = place residue k + 1 := by
  simp [place]

theorem throughLength (first second : Residue) : (through first second).length = first.length := by
  induction first generalizing second with
  | nil => rfl
  | cons left rest ih => cases left <;> simp [through, ih]

theorem throughCode {first second : Residue} (fits : second.length = first.code.length) :
    (through first second).code = second.code := by
  induction first generalizing second with
  | nil =>
    cases List.length_eq_zero_iff.mp fits
    rfl
  | cons left rest ih =>
    cases left with
    | none => exact ih fits
    | some i =>
      cases second with
      | nil => cases fits
      | cons other more =>
        have later : (through rest more).code = code more := ih (Nat.succ.inj fits)
        cases other with
        | none => exact later
        | some j => exact congrArg (List.cons j) later

theorem throughLeft {first second : Residue} {k : Nat} {i : Instruction}
    (left : (through first second)[k]? = some (some i)) :
    (∃ j, first[k]? = some (some j)) ∧ second[place first k]? = some (some i) := by
  induction first generalizing second k with
  | nil => cases left
  | cons here rest ih =>
    cases k with
    | zero =>
      cases here with
      | none => cases left
      | some j =>
        have head : second.head?.join = some i := Option.some.inj left
        refine ⟨⟨j, rfl⟩, ?_⟩
        cases second with
        | nil => cases head
        | cons other more => exact congrArg some head
    | succ k =>
      cases here with
      | none =>
        rw [placeRemoved]
        exact ih left
      | some j =>
        obtain ⟨stays, later⟩ := ih left
        rw [List.getElem?_tail] at later
        rw [placeRetained]
        exact ⟨stays, later⟩

theorem placeThrough (first second : Residue) (k : Nat) :
    place (through first second) k = place second (place first k) := by
  induction first generalizing second k with
  | nil => simp [place, through]
  | cons here rest ih =>
    cases k with
    | zero => simp [place]
    | succ k =>
      cases here with
      | none =>
        rw [through, placeRemoved, placeRemoved]
        exact ih second k
      | some j =>
        rw [through, placeRetained]
        have later := ih second.tail k
        cases second with
        | nil =>
          have nothing (n : Nat) : place [] n = 0 := by simp [place]
          rw [List.tail_nil, nothing] at later
          rw [nothing]
          exact (placeRemoved _ k).trans later
        | cons other more =>
          cases other with
          | none => exact (placeRemoved _ k).trans (later.trans (placeRemoved more _).symm)
          | some i =>
            refine (placeRetained i _ k).trans ?_
            rw [placeRetained]
            exact congrArg Nat.succ later

end Residue

/- The instruction at place k is the first one on which the machine fails. -/
inductive Machine.FailsAt : Machine → List Instruction → Nat → Prop
  | here {m i rest fault} (failed : m.step i = .error fault) : FailsAt m (i :: rest) 0
  | later {m i rest next k} (ran : m.step i = .ok next) (tail : FailsAt next rest k) :
      FailsAt m (i :: rest) (k + 1)

namespace Machine

theorem crashPlace {m : Machine} {is : List Instruction} {crash : Crash}
    (failed : m.run is = .error crash) :
    ∃ k i, ∃ before : Machine, m.FailsAt is k ∧ is[k]? = some i ∧
      before.registers = crash.registers ∧ before.step i = .error crash.fault := by
  induction is generalizing m with
  | nil => cases failed
  | cons i rest ih =>
    cases first : m.step i with
    | error fault =>
      rw [runCrash first] at failed
      cases failed
      exact ⟨0, i, m, .here first, rfl, rfl, first⟩
    | ok next =>
      rw [runStep first] at failed
      obtain ⟨k, j, before, tail, placed, registers, last⟩ := ih failed
      exact ⟨k + 1, j, before, .later first tail, placed, registers, last⟩

theorem placeCrash {m : Machine} {is : List Instruction} {k : Nat} (fails : m.FailsAt is k) :
    ∃ crash, m.run is = .error crash := by
  induction fails with
  | here failed => exact ⟨_, runCrash failed _⟩
  | later ran tail ih => rwa [runStep ran]

end Machine

namespace Ranges

def residue (s : Ranges) (is : List Instruction) : Residue := (s.history is).map Prod.fst

theorem residueRemoved {s : Ranges} {i : Instruction} (gone : simplify? s i = none)
    (rest : List Instruction) : s.residue (i :: rest) = none :: s.residue rest := by
  simp [residue, history, step, gone]

theorem residueRetained {s : Ranges} {i j : Instruction} (left : simplify? s i = some j)
    (rest : List Instruction) :
    s.residue (i :: rest) = some j :: (s.transfer j).residue rest := by
  simp [residue, history, step, left]

theorem residueCode (s : Ranges) (is : List Instruction) : (s.residue is).code = (s.scan is).1 := by
  induction is generalizing s with
  | nil => rfl
  | cons i rest ih =>
    cases left : simplify? s i with
    | none =>
      rw [residueRemoved left, scanRemoved left]
      exact ih s
    | some j =>
      rw [residueRetained left, scanRetained left]
      exact congrArg (List.cons j) (ih (s.transfer j))

theorem scanFailsAt {s : Ranges} {m : Machine} {is : List Instruction} {k : Nat} {j : Instruction}
    (described : s.Describes m) (fails : m.FailsAt is k)
    (left : (s.residue is)[k]? = some (some j)) :
    m.FailsAt (s.scan is).1 ((s.residue is).place k) := by
  induction fails generalizing s with
  | @here m i rest fault failed =>
    cases simplified : simplify? s i with
    | none =>
      rw [residueRemoved simplified] at left
      cases left
    | some i' =>
      rw [scanRetained simplified]
      exact .here ((simplifyRetained described simplified).trans failed)
  | @later m i rest next k ran tail ih =>
    cases simplified : simplify? s i with
    | none =>
      rw [residueRemoved simplified] at left ⊢
      rw [scanRemoved simplified, Residue.placeRemoved]
      rcases simplifyRemoved described simplified with same | failed
      · rw [ran] at same
        cases same
        exact ih described left
      · rw [ran] at failed
        cases failed
    | some i' =>
      rw [residueRetained simplified] at left ⊢
      rw [scanRetained simplified, Residue.placeRetained]
      have step := (simplifyRetained described simplified).trans ran
      exact .later step (ih (transferDescribes described step) left)

end Ranges

namespace Live
variable {atEnd : Live} {i : Instruction} {rest : List Instruction}

def residue (atEnd : Live) (is : List Instruction) : Residue :=
  is.zipWith (fun i visit => if visit.kept then some i else none) (sweep atEnd is)

theorem residueKept (needed : (atEnd.entering rest).needs i = true) :
    atEnd.residue (i :: rest) = some i :: atEnd.residue rest := by
  simp only [entering] at needed
  simp [residue, sweep, needed]

theorem residueDropped (dead : (atEnd.entering rest).needs i = false) :
    atEnd.residue (i :: rest) = none :: atEnd.residue rest := by
  simp only [entering] at dead
  simp [residue, sweep, dead]

theorem residueCode (atEnd : Live) (is : List Instruction) :
    (atEnd.residue is).code = atEnd.retained is := by
  induction is with
  | nil => rfl
  | cons i rest ih =>
    cases needed : (atEnd.entering rest).needs i with
    | true =>
      rw [residueKept needed, retainedKept needed]
      exact congrArg (List.cons i) ih
    | false =>
      rw [residueDropped needed, retainedDropped needed]
      exact ih

theorem residueLength (atEnd : Live) (is : List Instruction) :
    (atEnd.residue is).length = is.length := by
  simp [residue, sweepLength]

theorem retainedFailsAt {m n : Machine} {is : List Instruction} {k : Nat} {j : Instruction}
    (alike : (atEnd.entering is).Alike m n) (fails : m.FailsAt is k)
    (left : (atEnd.residue is)[k]? = some (some j)) :
    n.FailsAt (atEnd.retained is) ((atEnd.residue is).place k) := by
  induction fails generalizing n with
  | @here m i rest fault failed =>
    cases needed : (atEnd.entering rest).needs i with
    | false =>
      rw [residueDropped needed] at left
      cases left
    | true =>
      rw [enteringKept needed] at alike
      rw [retainedKept needed]
      exact .here ((keptStep needed alike).1 fault failed)
  | @later m i rest next k ran tail ih =>
    cases needed : (atEnd.entering rest).needs i with
    | false =>
      rw [enteringDropped needed] at alike
      rw [residueDropped needed] at left ⊢
      rw [retainedDropped needed, Residue.placeRemoved]
      exact ih (droppedStep needed alike ran) left
    | true =>
      rw [enteringKept needed] at alike
      rw [residueKept needed] at left ⊢
      rw [retainedKept needed, Residue.placeRetained]
      obtain ⟨other, follows, still⟩ := (keptStep needed alike).2 next ran
      exact .later follows (ih still left)

end Live

namespace Program
variable {output : Register} {p : Program} {inputs : List Int} {k : Nat} {i : Instruction}

def roundResidue (output : Register) (p : Program) : Residue :=
  (Ranges.zero.residue p).through ((Live.observing output).residue p.simplify)

def residue (output : Register) : Nat → Program → Residue
  | 0, p => p.map some
  | n + 1, p => (p.roundResidue output).through (residue output n (p.round output))

theorem residueLength (output : Register) (n : Nat) (p : Program) :
    (p.residue output n).length = p.length := by
  have history : ∀ s : Ranges, (s.residue p).length = p.length := by
    intro s
    induction p generalizing s with
    | nil => rfl
    | cons i rest ih => exact congrArg Nat.succ (ih (s.step i).2)
  cases n with
  | zero => exact List.length_map _
  | succ n => rw [residue, roundResidue, Residue.throughLength, Residue.throughLength, history]

theorem roundResidueCode (output : Register) (p : Program) :
    (p.roundResidue output).code = p.round output := by
  have fits : ((Live.observing output).residue p.simplify).length =
      (Ranges.zero.residue p).code.length := by
    rw [Live.residueLength, Ranges.residueCode]
    rfl
  exact (Residue.throughCode fits).trans (Live.residueCode _ p.simplify)

theorem residueCode (output : Register) (n : Nat) (p : Program) :
    (p.residue output n).code = (round output)^[n] p := by
  induction n generalizing p with
  | zero =>
    rw [residue, Residue.code, List.filterMap_map]
    exact List.filterMap_some
  | succ n ih =>
    rw [residue, Residue.throughCode, ih]
    · rfl
    · rw [residueLength, roundResidueCode]

theorem roundFailsAt (digits : ∀ d ∈ inputs, d ∈ Interval.digit)
    (fails : (Machine.start inputs).FailsAt p k)
    (left : (p.roundResidue output)[k]? = some (some i)) :
    (Machine.start inputs).FailsAt (p.round output) ((p.roundResidue output).place k) := by
  obtain ⟨⟨j, leftFirst⟩, leftSecond⟩ := Residue.throughLeft left
  have simplified := Ranges.scanFailsAt ⟨Ranges.zeroContains, digits⟩ fails leftFirst
  rw [roundResidue, Residue.placeThrough]
  exact Live.retainedFailsAt (Live.alikeSelf _ _) simplified leftSecond

theorem residueFailsAt {n : Nat} (digits : ∀ d ∈ inputs, d ∈ Interval.digit)
    (fails : (Machine.start inputs).FailsAt p k)
    (left : (p.residue output n)[k]? = some (some i)) :
    ∃ j, (Machine.start inputs).FailsAt ((round output)^[n] p) j := by
  induction n generalizing p k with
  | zero => exact ⟨k, fails⟩
  | succ n ih =>
    obtain ⟨⟨_, leftFirst⟩, later⟩ := Residue.throughLeft left
    exact ih (roundFailsAt digits fails leftFirst) later

theorem stableIterate {maxRounds : Int} {s : Stable}
    (stable : p.stabilize output maxRounds = .ok s) : (round output)^[s.rounds] p = s.program := by
  obtain ⟨k, _, rfl, still, _⟩ := settledFirst.mp (stabilized.mp stable)
  rwa [Nat.zero_add]

theorem stableResidue {maxRounds : Int} {s : Stable}
    (stable : p.stabilize output maxRounds = .ok s) :
    (p.residue output s.rounds).code = s.program :=
  (residueCode output s.rounds p).trans (stableIterate stable)

theorem stableFault {maxRounds : Int} {s : Stable} {last : Machine}
    (stable : p.stabilize output maxRounds = .ok s) (digits : ∀ d ∈ inputs, d ∈ Interval.digit)
    (fails : (Machine.start inputs).FailsAt p k) (within : k < p.length)
    (ran : (Machine.start inputs).run s.program = .ok last) :
    (p.residue output s.rounds)[k]? = some none := by
  have listed : k < (p.residue output s.rounds).length := by rwa [residueLength]
  cases found : (p.residue output s.rounds)[k] with
  | none => rw [List.getElem?_eq_getElem listed, found]
  | some i =>
    have left : (p.residue output s.rounds)[k]? = some (some i) := by
      rw [List.getElem?_eq_getElem listed, found]
    obtain ⟨j, failsToo⟩ := residueFailsAt digits fails left
    obtain ⟨crash, failed⟩ := Machine.placeCrash failsToo
    rw [stableIterate stable, ran] at failed
    cases failed

end Program
end StraightLine
