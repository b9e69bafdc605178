import StraightLine.Text.Numeral

/-! Errors as they are raised: each has a kind and a message. Messages hold numbers, and where one
of these is too long to be written, there is no message, and this is raised in place of the
error. Counts of what is gone through one by one do not get that long and are always written. -/
namespace StraightLine

inductive ErrorKind
  | malformedProgram
  | exhaustedInput
  | arithmetic
  | searchExhausted
  | nonTermination
  | invalidValue
  | runtime
  | iterationEnd
  deriving DecidableEq, Repr

def ErrorKind.name : ErrorKind → String
  | .malformedProgram => "MalformedProgramError"
  | .exhaustedInput => "ExhaustedInputError"
  | .arithmetic => "ExecutionArithmeticError"
  | .searchExhausted => "SearchExhaustedError"
  | .nonTermination => "NonTerminationError"
  | .invalidValue => "ValueError"
  | .runtime => "RuntimeError"
  | .iterationEnd => "StopIteration"

section
variable {ε : Type} {message : ε → Except Text.Overlong String} {overlong e : ε}

def raised (message : ε → Except Text.Overlong String) (overlong e : ε) : ε :=
  match message e with
  | .ok _ => e
  | .error _ => overlong

theorem raisedIf {writable : Bool} {text : String} {say : String → String}
    (tells : message e =
      (if writable then .ok text else .error {}) >>= fun written => .ok (say written)) :
    raised message overlong e = if writable then e else overlong := by
  rw [raised, tells]
  cases writable <;> rfl

/-- The message can be written. The one invalid value that it reports is an overlong number. -/
def Tells (kind : ErrorKind) (message : Except Text.Overlong String) : Prop :=
  ∃ text, message = .ok text ∧ (kind = .invalidValue → text = Text.Overlong.message {})

theorem raisedTells (kind : ε → ErrorKind) (own : kind e ≠ .invalidValue)
    (told : message overlong = .ok (Text.Overlong.message {})) :
    Tells (kind (raised message overlong e)) (message (raised message overlong e)) := by
  unfold raised
  split
  · rename_i text written
    exact ⟨text, written, fun invalid => absurd invalid own⟩
  · exact ⟨_, told, fun _ => rfl⟩

end
end StraightLine
