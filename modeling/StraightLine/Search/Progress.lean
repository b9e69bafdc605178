import StraightLine.Machine

/-! Bookkeeping of a search. A part of a search yields the trials that it made, in order, beside
its result; parts in sequence join their trials, and an error ends the sequence with the trials
made so far. -/
namespace StraightLine

structure Trial where
  position : Nat
  registers : Registers
  accepted : Bool
  deriving DecidableEq, Repr

structure Progress (ε α : Type) where
  trials : List Trial
  result : Except ε α

namespace Progress
variable {ε α β γ : Type}

def finished (a : α) : Progress ε α := ⟨[], .ok a⟩
def stopped (e : ε) : Progress ε α := ⟨[], .error e⟩

def andThen (p : Progress ε α) (next : α → Progress ε β) : Progress ε β :=
  match p.result with
  | .error e => ⟨p.trials, .error e⟩
  | .ok a =>
    let q := next a
    ⟨p.trials ++ q.trials, q.result⟩

instance : Monad (Progress ε) where
  pure := finished
  bind := andThen

theorem finishedThen (a : α) (next : α → Progress ε β) : finished a >>= next = next a := rfl

theorem thenFinished (p : Progress ε α) : p >>= finished = p := by
  cases p with
  | mk trials result => cases result <;> simp [bind, andThen, finished]

theorem thenThen (p : Progress ε α) (f : α → Progress ε β) (g : β → Progress ε γ) :
    p >>= f >>= g = p >>= fun a => f a >>= g := by
  cases p with
  | mk trials result =>
    cases result with
    | error e => rfl
    | ok a =>
      simp only [bind, andThen]
      cases (f a).result <;> simp

instance : LawfulMonad (Progress ε) :=
  LawfulMonad.mk' (Progress ε) thenFinished finishedThen thenThen

end Progress
end StraightLine
