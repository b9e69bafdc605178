import StraightLine.Proofs.Source.RoundTrip

/-! Sources, joined. A source that is put after another one by a line feed is read on its own: its
instructions come after those of the first source, and its complaint is about a line further down,
by as many lines as the first source takes with the line feed. A fault of the first source is
reported before any of the second. -/
namespace StraightLine

def SourceError.later (lines : Int) (e : SourceError) : SourceError := ⟨e.line + lines, e.complaint⟩

namespace Program
variable {number : Int} {ls : List (List Char)}

theorem lineAnywhere (line : List Char) :
    (∀ number rest, ofLines number (line :: rest) = ofLines (number + 1) rest) ∨
    (∃ i, ∀ number rest,
      ofLines number (line :: rest) = (ofLines (number + 1) rest).map (i :: ·)) ∨
    ∃ c, ∀ number rest, ofLines number (line :: rest) = .error ⟨number, c⟩ := by
  by_cases blank : Text.words line = []
  · exact .inl fun _ _ => lineSkipped blank
  cases read : Instruction.ofWords (Text.words line) with
  | ok i => exact .inr (.inl ⟨i, fun _ _ => lineRead read⟩)
  | error c => exact .inr (.inr ⟨c, fun _ _ => lineRefused blank read⟩)

def following (number : Int) (ls : List (List Char)) (first : Program) :
    Except SourceError Program := (ofLines number ls).map (first ++ ·)

theorem followingNone (number : Int) (ls : List (List Char)) :
    following number ls [] = ofLines number ls := by
  unfold following
  cases ofLines number ls <;> rfl

theorem followingMore (i : Instruction) (first : Program) :
    (following number ls first).map (i :: ·) = following number ls (i :: first) := by
  unfold following
  cases ofLines number ls <;> rfl

theorem linesAppend (number : Int) (ls ms : List (List Char)) :
    ofLines number (ls ++ ms) = (ofLines number ls).bind (following (number + ls.length) ms) := by
  induction ls generalizing number with
  | nil =>
    have start : number + ([] : List (List Char)).length = number := Int.add_zero number
    rw [start]
    exact (followingNone number ms).symm
  | cons line rest ih =>
    have start : number + (line :: rest).length = number + 1 + rest.length := by
      rw [List.length_cons]
      omega
    rw [List.cons_append, start]
    rcases lineAnywhere line with skipped | ⟨i, read⟩ | ⟨c, refused⟩
    · rw [skipped, skipped, ih]
    · rw [read, read, ih]
      cases ofLines (number + 1) rest with
      | error e => rfl
      | ok first => exact followingMore i first
    · rw [refused, refused]
      rfl

theorem linesLater (number lines : Int) (ls : List (List Char)) :
    ofLines (number + lines) ls = (ofLines number ls).mapError (SourceError.later lines) := by
  induction ls generalizing number with
  | nil => rfl
  | cons line rest ih =>
    have next : number + lines + 1 = number + 1 + lines := by omega
    rcases lineAnywhere line with skipped | ⟨i, read⟩ | ⟨c, refused⟩
    · rw [skipped, skipped, next, ih]
    · rw [read, read, next, ih]
      cases ofLines (number + 1) rest <;> rfl
    · rw [refused, refused]
      rfl

theorem emptyLineSkipped (number : Int) (ls : List (List Char)) :
    ofLines number (ls ++ [[]]) = ofLines number ls := by
  rw [linesAppend]
  cases ofLines number ls with
  | error e => rfl
  | ok first => exact congrArg Except.ok (List.append_nil first)

def lineCount (source : String) : Nat := (Text.lines source.toList).length

theorem joinedRead (a b : String) :
    parse (a ++ "\n" ++ b) = (parse a).bind fun p =>
      ((parse b).mapError (SourceError.later (lineCount (a ++ "\n")))).map (p ++ ·) := by
  have breaks : Text.Breaks a.toList (Text.lines a.toList) := Text.linesBreaks.mp rfl
  obtain ⟨empty, few, split⟩ := Text.linesFeed breaks
  have first : Text.lines (a ++ "\n").toList = Text.lines a.toList ++ empty := by
    rw [String.toList_append]
    exact (split []).trans (List.append_nil _)
  have both : Text.lines (a ++ "\n" ++ b).toList =
      Text.lines (a ++ "\n").toList ++ Text.lines b.toList := by
    rw [first, ← split b.toList, String.toList_append, String.toList_append, List.append_assoc]
    rfl
  -- the line feed can add a line to the first source, but no instruction and no complaint
  have same : ofLines 1 (Text.lines (a ++ "\n").toList) = parse a := by
    rw [first]
    rcases few with rfl | rfl
    · rw [List.append_nil]
      rfl
    · exact emptyLineSkipped 1 _
  rw [parse, ofText, both, linesAppend, same]
  cases parse a with
  | error e => rfl
  | ok p => exact congrArg (Except.map (p ++ ·)) (linesLater 1 _ _)

theorem parseJoined (a b : String) :
    (∀ r, parse (a ++ "\n" ++ b) = .ok r ↔
      ∃ p q, parse a = .ok p ∧ parse b = .ok q ∧ r = p ++ q) ∧
    (∀ e, parse a = .error e → parse (a ++ "\n" ++ b) = .error e) ∧
    ∀ p e, parse a = .ok p → parse b = .error e →
      ∃ f, parse (a ++ "\n" ++ b) = .error f ∧ f.complaint = e.complaint ∧
        f.line = e.line + lineCount (a ++ "\n") ∧
        ∃ text, ∀ g ∈ [e, f], g.message = Text.Numeral.render g.line >>= fun number =>
          .ok ("line " ++ number ++ ": " ++ text) := by
  rw [joinedRead]
  refine ⟨?_, ?_, ?_⟩
  · intro r
    cases parse a with
    | error e => simp [Except.bind]
    | ok p => cases parse b <;> simp [Except.bind, Except.map, Except.mapError, eq_comm]
  · intro e refused
    rw [refused]
    rfl
  · intro p e read refused
    rw [read, refused]
    refine ⟨_, rfl, rfl, rfl, e.complaint.message, ?_⟩
    intro g either
    rcases List.mem_cons.mp either with rfl | last
    · rfl
    · rw [List.mem_singleton.mp last]
      rfl

theorem parseJoinedReturn :
    let a := "inp w\x0b \r"
    let b := "add x 1\r\n\nmul q 2"
    parse a = .ok [.read .w] ∧ lineCount (a ++ "\n") = 2 ∧
      (∃ e, parse b = .error e ∧ e.message = .ok "line 3: unknown register 'q'" ∧
        parse (b ++ "\n" ++ a) = .error e) ∧
      ∃ f, parse (a ++ "\n" ++ b) = .error f ∧
        f.message = .ok "line 5: unknown register 'q'" := by
  intro a b
  have read : parse a = .ok [.read .w] := by decide +kernel
  have refused : parse b = .error ⟨3, .unknownRegister ['q']⟩ := by decide +kernel
  have count : lineCount (a ++ "\n") = 2 := by decide +kernel
  have first := (parseJoined b a).2.1 _ refused
  obtain ⟨⟨line, complaint⟩, joined, same, counted, _⟩ := (parseJoined a b).2.2 _ _ read refused
  rw [count] at counted
  cases same
  cases counted
  have third : "line " ++ String.ofList (Text.Numeral.text 3) ++ ": " ++
      Complaint.message (.unknownRegister ['q']) = "line 3: unknown register 'q'" := by
    decide +kernel
  have fifth : "line " ++ String.ofList (Text.Numeral.text 5) ++ ": " ++
      Complaint.message (.unknownRegister ['q']) = "line 5: unknown register 'q'" := by
    decide +kernel
  exact ⟨read, count, ⟨_, refused, congrArg Except.ok third, first⟩, _, joined,
    congrArg Except.ok fifth⟩

end Program
end StraightLine
