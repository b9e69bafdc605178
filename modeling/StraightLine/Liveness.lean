import StraightLine.Program

/-! Liveness, swept from the last instruction to the first. A register is live where its contents
can still reach the output register at the end of the program. An instruction that writes a
dead register is dropped and leaves liveness as it is; an input read is always kept, because
it uses up an input whether or not the value is wanted. -/
namespace StraightLine

abbrev Live := PerRegister Bool

namespace Live

def observing (output : Register) : Live := (PerRegister.uniform false).set output true

/-- Liveness before an instruction that is kept, from liveness after it. -/
def transfer (after : Live) : Instruction → Live
  | .read dst => after.set dst false
  | .update op dst src =>
    let old := if op = .set then after.set dst false else after
    match src with
    | .reg r => old.set r true
    | .const _ => old

def needs (after : Live) (i : Instruction) : Bool := i.isRead || after.get i.dst

structure Visit where
  kept : Bool
  before : Live
  deriving DecidableEq, Repr

def before (after : Live) : List Visit → Live
  | [] => after
  | visit :: _ => visit.before

def sweep (atEnd : Live) : List Instruction → List Visit
  | [] => []
  | i :: rest =>
    let visits := sweep atEnd rest
    let after := atEnd.before visits
    if after.needs i then ⟨true, after.transfer i⟩ :: visits else ⟨false, after⟩ :: visits

theorem sweepLength (atEnd : Live) (is : List Instruction) :
    (sweep atEnd is).length = is.length := by
  induction is with
  | nil => rfl
  | cons i rest ih =>
    simp only [sweep]
    split <;> simp [ih]

end Live

namespace Program

def liveMask (output : Register) (p : Program) : List Bool :=
  ((Live.observing output).sweep p).map Live.Visit.kept

def dropDead (output : Register) (p : Program) : Program :=
  ((p.zip (p.liveMask output)).filter Prod.snd).map Prod.fst

theorem maskLength (output : Register) (p : Program) : (p.liveMask output).length = p.length := by
  simp [liveMask, Live.sweepLength]

end Program
end StraightLine
