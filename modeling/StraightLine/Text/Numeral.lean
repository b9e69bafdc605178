import StraightLine.Text.DecimalDigit

/-! Integer numerals. Reading takes an optional sign, then decimal digits of any script with
single underscores allowed between them. Writing uses the shortest plain form. The number of
digits is limited both ways. -/
namespace StraightLine.Text

structure Overlong where
  deriving DecidableEq, Repr

namespace Numeral

/-- Longest numeral that is read or written, in digits; in reading, leading zeros count. -/
def digitLimit : Nat := 4300

def digits? : List Char → Option (List Nat)
  | [] => none
  | c :: rest => do
    let d ← DecimalDigit.value? c
    match rest with
    | [] => some [d]
    | '_' :: more => (d :: ·) <$> digits? more
    | c' :: more => (d :: ·) <$> digits? (c' :: more)

def value (ds : List Nat) : Nat := ds.foldl (fun n d => 10 * n + d) 0

def natural? (cs : List Char) : Option Nat := do
  let ds ← digits? cs
  if ds.length ≤ digitLimit then some (value ds) else none

def read? : List Char → Option Int
  | '+' :: body => (natural? body).map Int.ofNat
  | '-' :: body => (natural? body).map (fun n => -Int.ofNat n)
  | body => (natural? body).map Int.ofNat

def text (n : Int) : List Char :=
  if n < 0 then '-' :: Nat.toDigits 10 n.natAbs else Nat.toDigits 10 n.natAbs

def isWritable (n : Int) : Bool := (Nat.toDigits 10 n.natAbs).length ≤ digitLimit

def render (n : Int) : Except Overlong String :=
  if isWritable n then .ok (String.ofList (text n)) else .error {}

end Numeral

def Overlong.message (_ : Overlong) : String :=
  s!"Exceeds the limit ({Numeral.digitLimit} digits) for integer string conversion; " ++
    "use sys.set_int_max_str_digits() to increase the limit"

end StraightLine.Text
