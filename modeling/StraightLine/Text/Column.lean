/-! Text set in a column: filled up with spaces to a width, and left as it is when it is wider. -/
namespace StraightLine.Text.Column

def fill (width : Nat) (s : String) : String :=
  String.ofList (List.replicate (width - s.length) ' ')

def left (width : Nat) (s : String) : String := s ++ fill width s
def right (width : Nat) (s : String) : String := fill width s ++ s

end StraightLine.Text.Column
