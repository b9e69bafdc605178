import StraightLine.Text.Column
import StraightLine.Text.Tenths

/-! Statistics of a solved program, and the table that shows them: one row for each stage with its
time in milliseconds and what it put out. -/
namespace StraightLine

structure Statistics where
  digitCount : Int
  order : String
  rawCount : Int
  optimizedCount : Int
  rounds : Int
  segmentCount : Int
  evaluations : Int
  deriving DecidableEq, Repr

/-- How long the stages took, in seconds. -/
structure Timings where
  validate : Float
  optimize : Float
  split : Float
  search : Float
  total : Float
  deriving Repr

def Timings.zero : Timings := ⟨0, 0, 0, 0, 0⟩

namespace Report
open Text.Column (left right)
open Text.Numeral (render)

def milliseconds (seconds : Float) : String :=
  right 8 (Text.Tenths.render (seconds * 1000)) ++ "ms"

def row (stage time output : String) : String :=
  "  " ++ left 20 stage ++ " " ++ right 10 time ++ "  " ++ right 30 output

def dashes (width : Nat) : String := String.ofList (List.replicate width '─')

def rule : String := row (dashes 20) (dashes 10) (dashes 30)

def rows (s : Statistics) (times : Timings) : Except Text.Overlong (List String) := do
  let optimized ← render s.optimizedCount
  let rounds ← render s.rounds
  let segments ← render s.segmentCount
  let evaluations ← render s.evaluations
  return [
    row "Validate" (milliseconds times.validate) "",
    row "Optimize" (milliseconds times.optimize)
      (optimized ++ " instructions, " ++ rounds ++ " rounds"),
    row "Split" (milliseconds times.split) (segments ++ " segments"),
    row "Search" (milliseconds times.search) (evaluations ++ " segment runs")]

def lines (s : Statistics) (times : Timings) : Except Text.Overlong (List String) := do
  let raw ← render s.rawCount
  let digits ← render s.digitCount
  let head := [
    "═══ Solve Statistics ═══",
    "  Program: " ++ raw ++ " instructions, " ++ digits ++ " digits (" ++ s.order ++ ")",
    "",
    row "Stage" "Time" "Output",
    rule]
  let foot := [
    rule,
    "  " ++ left 20 "Total" ++ " " ++ milliseconds times.total]
  return head ++ (← rows s times) ++ foot

end Report

def Statistics.report (s : Statistics) (times : Timings) : Except Text.Overlong String := do
  return "\n".intercalate (← Report.lines s times)

end StraightLine
