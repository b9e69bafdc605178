/-! The four registers of the machine, and tables with one entry per register. Register
contents, tracked ranges and liveness flags are three such tables. -/
namespace StraightLine

inductive Register
  | w | x | y | z
  deriving DecidableEq, Repr

namespace Register

def all : List Register := [.w, .x, .y, .z]

def index : Register → Nat
  | .w => 0
  | .x => 1
  | .y => 2
  | .z => 3

def letter : Register → Char
  | .w => 'w'
  | .x => 'x'
  | .y => 'y'
  | .z => 'z'

def word (r : Register) : List Char := [r.letter]

def ofWord? : List Char → Option Register
  | ['w'] => some .w
  | ['x'] => some .x
  | ['y'] => some .y
  | ['z'] => some .z
  | _ => none

theorem everyRegister (r : Register) : r ∈ all := by cases r <;> simp [all]

theorem wordRead (r : Register) : ofWord? r.word = some r := by cases r <;> rfl

theorem wordSource {s : List Char} {r : Register} (read : ofWord? s = some r) : s = r.word := by
  unfold ofWord? at read
  split at read <;> cases read <;> rfl

end Register

structure PerRegister (α : Type) where
  w : α
  x : α
  y : α
  z : α
  deriving DecidableEq, Repr

namespace PerRegister
variable {α β : Type}

def uniform (a : α) : PerRegister α := ⟨a, a, a, a⟩

def get (t : PerRegister α) : Register → α
  | .w => t.w
  | .x => t.x
  | .y => t.y
  | .z => t.z

def set (t : PerRegister α) (r : Register) (a : α) : PerRegister α :=
  match r with
  | .w => { t with w := a }
  | .x => { t with x := a }
  | .y => { t with y := a }
  | .z => { t with z := a }

def map (f : α → β) (t : PerRegister α) : PerRegister β := ⟨f t.w, f t.x, f t.y, f t.z⟩

def toList (t : PerRegister α) : List α := [t.w, t.x, t.y, t.z]

def ofList? : List α → Option (PerRegister α)
  | [w, x, y, z] => some ⟨w, x, y, z⟩
  | _ => none

@[simp] theorem getUniform (a : α) (r : Register) : (uniform a).get r = a := by cases r <;> rfl

@[simp] theorem getMap (f : α → β) (t : PerRegister α) (r : Register) :
    (t.map f).get r = f (t.get r) := by cases r <;> rfl

@[simp] theorem getSetSame (t : PerRegister α) (r : Register) (a : α) : (t.set r a).get r = a := by
  cases r <;> rfl

theorem getSetOther (t : PerRegister α) {r s : Register} (a : α) (other : s ≠ r) :
    (t.set r a).get s = t.get s := by
  cases r <;> cases s <;> first | rfl | exact absurd rfl other

theorem getSet (t : PerRegister α) (r s : Register) (a : α) :
    (t.set r a).get s = if s = r then a else t.get s := by
  split
  · subst s; exact getSetSame t r a
  · exact getSetOther t a (by assumption)

theorem sameEntries {t u : PerRegister α} (entries : ∀ r, t.get r = u.get r) : t = u := by
  cases t; cases u
  have hw := entries .w
  have hx := entries .x
  have hy := entries .y
  have hz := entries .z
  simp only [get] at hw hx hy hz
  rw [hw, hx, hy, hz]

@[simp] theorem setGet (t : PerRegister α) (r : Register) : t.set r (t.get r) = t := by
  cases r <;> rfl

theorem toListMap (t : PerRegister α) : t.toList = Register.all.map t.get := rfl

end PerRegister
end StraightLine
