/-! Lines of a text. Eleven things end a line: ten single characters, and a carriage return with
the line feed after it, which count as one. What follows the last terminator is a line only
when it is not empty, so a text that ends in a terminator opens no further line. -/
namespace StraightLine.Text

def isTerminator (c : Char) : Bool :=
  ['\n', '\x0b', '\x0c', '\r', '\x1c', '\x1d', '\x1e', '\u0085', '\u2028', '\u2029'].contains c

def lines : List Char → List (List Char)
  | [] => []
  | '\r' :: '\n' :: rest => [] :: lines rest
  | c :: rest =>
    if isTerminator c then [] :: lines rest
    else
      match lines rest with
      | [] => [[c]]
      | line :: more => (c :: line) :: more

def unlines : List (List Char) → List Char
  | [] => []
  | [line] => line
  | line :: more => line ++ '\n' :: unlines more

theorem linesStep {c : Char} (free : isTerminator c = false) (rest : List Char) :
    lines (c :: rest) = match lines rest with
      | [] => [[c]]
      | line :: more => (c :: line) :: more := by
  rw [lines.eq_3 c rest (fun _ isReturn _ => by subst isReturn; exact absurd free (by decide))]
  simp [free]

theorem linesOfFree {cs : List Char} (free : ∀ c ∈ cs, isTerminator c = false)
    (nonempty : cs ≠ []) : lines cs = [cs] := by
  induction cs with
  | nil => exact absurd rfl nonempty
  | cons c rest ih =>
    rw [linesStep (free c (by simp))]
    cases rest with
    | nil => rfl
    | cons d ds => rw [ih (fun e he => free e (by simp [he])) (by simp)]

end StraightLine.Text
