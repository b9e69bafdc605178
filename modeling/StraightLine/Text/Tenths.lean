import StraightLine.Text.Numeral

/-! Binary floating-point numbers written with one decimal. The value that the 64 bits stand for is
taken exactly and rounded to the nearest tenth, a half to the even neighbour; the sign is written
also where the tenths are zero. -/
namespace StraightLine.Text.Tenths

def roundHalfEven (num den : Nat) : Nat :=
  let below := num / den
  let twice := 2 * (num % den)
  if twice < den then below
  else if den < twice then below + 1
  else below + below % 2

def leadingBit : Nat := 1 <<< 52

def isNegative (word : Nat) : Bool := (word >>> 63) % 2 = 1
def field (word : Nat) : Nat := word / leadingBit % 2048
def fraction (word : Nat) : Nat := word % leadingBit

def tenths (word : Nat) : Nat :=
  if field word = 0 then roundHalfEven (10 * fraction word) (1 <<< 1074)
  else
    let scaled := 10 * (leadingBit + fraction word)
    if field word < 1075 then roundHalfEven scaled (1 <<< (1075 - field word))
    else scaled <<< (field word - 1075)

def magnitude (word : Nat) : List Char :=
  if field word = 2047 then
    if fraction word = 0 then ['i', 'n', 'f'] else ['n', 'a', 'n']
  else Numeral.text (tenths word / 10) ++ '.' :: Numeral.text (tenths word % 10)

def isNumber (word : Nat) : Bool := field word ≠ 2047 ∨ fraction word = 0

def text (word : Nat) : List Char :=
  if isNegative word && isNumber word then '-' :: magnitude word else magnitude word

def render (x : Float) : String := String.ofList (text x.toBits.toNat)

end StraightLine.Text.Tenths
