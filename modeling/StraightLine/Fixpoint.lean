import StraightLine.Liveness
import StraightLine.Simplify

/-! Optimization for one output register. A round simplifies by ranges and then drops dead
instructions; rounds repeat until one leaves the program as it is. -/
namespace StraightLine

/-- A program that a round leaves as it is, and the number of rounds it took to see that. -/
structure Stable where
  program : Program
  rounds : Nat
  deriving DecidableEq, Repr

inductive Unstable
  | within (maxRounds : Int)
  | overlong
  deriving DecidableEq, Repr

namespace Unstable

def kind : Unstable → ErrorKind
  | .within _ => .nonTermination
  | .overlong => .invalidValue

def message : Unstable → Except Text.Overlong String
  | .within maxRounds => do
    let cap ← Text.Numeral.render maxRounds
    return "optimizer did not reach a fixpoint within " ++ cap ++ " rounds"
  | .overlong => .ok (Text.Overlong.message {})

def raised (e : Unstable) : Unstable := StraightLine.raised message .overlong e

theorem withinRaised (maxRounds : Int) :
    (within maxRounds).raised =
      if Text.Numeral.isWritable maxRounds then .within maxRounds else .overlong :=
  raisedIf rfl

end Unstable

namespace Program

def defaultMaxRounds : Int := 100

def round (output : Register) (p : Program) : Program := p.simplify.dropDead output

def settle (output : Register) : Nat → Nat → Program → Option Stable
  | 0, _, _ => none
  | left + 1, passed, p =>
    let next := p.round output
    if next = p then some ⟨p, passed + 1⟩ else settle output left (passed + 1) next

def stabilize (output : Register) (maxRounds : Int) (p : Program) : Except Unstable Stable :=
  match settle output maxRounds.toNat 0 p with
  | none => .error (Unstable.within maxRounds).raised
  | some stable => .ok stable

def roundSizes (output : Register) : Nat → Program → List (Nat × Nat)
  | 0, _ => []
  | left + 1, p =>
    (p.simplify.length, (p.round output).length) :: roundSizes output left (p.round output)

theorem settledStable {output : Register} {left passed : Nat} {p : Program} {s : Stable}
    (settled : settle output left passed p = some s) :
    s.program.round output = s.program := by
  induction left generalizing passed p with
  | zero => cases settled
  | succ left ih =>
    unfold settle at settled
    dsimp only at settled
    split at settled
    · cases settled; assumption
    · exact ih settled

end Program
end StraightLine
