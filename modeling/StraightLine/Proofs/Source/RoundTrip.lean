import Mathlib.Control.Monad.Basic
import StraightLine.Proofs.Text.Line
import StraightLine.Proofs.Text.Numeral
import StraightLine.Source

/-! Programs, written and read back. A program without assignments that can be written is what its
text and its listing are read as. Assignments are reserved: the first one in a text is reported with
the number of its line. What has been read can always be written and read again. -/
namespace StraightLine
open Text (IsLine IsWord unlines unwords)

theorem wordOfAll {w : List Char} (nonempty : w ≠ [])
    (all : w.all (fun c => !Text.isBlank c) = true) : IsWord w :=
  ⟨nonempty, fun c mem => by simpa using List.all_eq_true.mp all c mem⟩

namespace Opcode

theorem wordIsWord (code : Opcode) : IsWord code.word := by
  cases code with
  | inp => exact wordOfAll nofun (by decide)
  | update op => cases op <;> exact wordOfAll nofun (by decide)

end Opcode

namespace Register

theorem wordIsWord (r : Register) : IsWord r.word := by
  cases r <;> exact wordOfAll nofun (by decide)

theorem wordNotNumeral (r : Register) : Text.Numeral.read? r.word = none := by
  cases r <;> decide

end Register

namespace Operand

theorem wordIsWord (src : Operand) : IsWord src.word := by
  cases src with
  | reg r => exact r.wordIsWord
  | const n => exact Text.Numeral.textWord n

theorem numeralRead {word : List Char} {n : Int} (read : Text.Numeral.read? word = some n) :
    ofWord? word = some (.const n) := by
  unfold ofWord?
  cases register : Register.ofWord? word with
  | none => rw [read]; rfl
  | some r =>
    rw [Register.wordSource register, r.wordNotNumeral] at read
    cases read

theorem registerRead (r : Register) : ofWord? r.word = some (.reg r) := by
  rw [ofWord?, Register.wordRead]

theorem wordRead {src : Operand} (writable : src.isWritable = true) :
    ofWord? src.word = some src := by
  cases src with
  | reg r => exact registerRead r
  | const n => exact numeralRead (Text.Numeral.textRead writable)

theorem readWritable {word : List Char} {src : Operand} (read : ofWord? word = some src) :
    src.isWritable = true := by
  unfold ofWord? at read
  split at read
  · cases read
    rfl
  · obtain ⟨n, numeral, rfl⟩ := Option.map_eq_some_iff.mp read
    exact Text.Numeral.readWritable numeral

end Operand

namespace Instruction

def isAssignment (i : Instruction) : Bool := i.opcode = .update .set

theorem wordsAreWords (i : Instruction) : ∀ w ∈ i.words, IsWord w := by
  intro w mem
  rcases List.mem_cons.mp mem with rfl | arguments
  · exact i.opcode.wordIsWord
  rcases List.mem_cons.mp arguments with rfl | operand
  · exact i.dst.wordIsWord
  · obtain ⟨src, _, rfl⟩ := Option.map_eq_some_iff.mp (Option.mem_toList.mp operand)
    exact src.wordIsWord

theorem wordsRead {i : Instruction} (writable : i.isWritable = true)
    (lasting : i.isAssignment = false) : ofWords i.words = .ok i := by
  cases i with
  | read r =>
    simp [ofWords, words, opcode, Instruction.dst, operand?, Opcode.wordRead, Register.wordRead]
  | update op r src =>
    have operand : Operand.ofWord? src.word = some src := Operand.wordRead writable
    cases op with
    | set => cases lasting
    | _ =>
      simp [ofWords, words, opcode, Instruction.dst, operand?, Opcode.wordRead, Register.wordRead,
        operand]

theorem assignmentReserved {i : Instruction} (assigns : i.isAssignment = true) :
    ofWords i.words = .error .reserved := by
  have code : i.opcode = .update .set := of_decide_eq_true assigns
  simp only [ofWords, words, Opcode.wordRead, code]

theorem readWritable {ws : List (List Char)} {i : Instruction} (read : ofWords ws = .ok i) :
    i.isWritable = true ∧ i.isAssignment = false := by
  unfold ofWords at read
  repeat' split at read
  all_goals cases read
  · exact ⟨rfl, rfl⟩
  · rename_i op unreserved _ _ _ _ _ _ _ _ _ operand
    exact ⟨Operand.readWritable operand,
      decide_eq_false fun same => unreserved (Opcode.update.inj same)⟩

end Instruction

structure Instruction.Writes (line : List Char) (i : Instruction) : Prop where
  isLine : IsLine line
  words : Text.words line = i.words

theorem Instruction.textWrites (i : Instruction) : Writes i.text i :=
  ⟨Text.unwordsLine nofun i.wordsAreWords, Text.wordsUnwords i.wordsAreWords⟩

theorem Instruction.indentedWrites (i : Instruction) : Writes (' ' :: ' ' :: i.text) i := by
  obtain ⟨⟨_, free⟩, words⟩ := i.textWrites
  have blank : Text.isBlank ' ' = true := by decide
  refine ⟨⟨nofun, ?_⟩, ?_⟩
  · intro c mem
    simp only [List.mem_cons] at mem
    rcases mem with rfl | rfl | inText
    · decide
    · decide
    · exact free c inText
  · rw [Text.wordsBlank blank, Text.wordsBlank blank, words]

namespace Program

section
variable {number : Int} {line : List Char} {rest : List (List Char)}

theorem lineSkipped (blank : Text.words line = []) :
    ofLines number (line :: rest) = ofLines (number + 1) rest := by
  rw [ofLines, blank]

theorem lineRead {i : Instruction} (read : Instruction.ofWords (Text.words line) = .ok i) :
    ofLines number (line :: rest) = (ofLines (number + 1) rest).map (i :: ·) := by
  rw [ofLines]
  split
  · rename_i blank
    rw [blank] at read
    cases read
  · rename_i same
    rw [← same, read]
    cases ofLines (number + 1) rest <;> rfl

theorem lineThenRead {i : Instruction} {p : Program}
    (read : Instruction.ofWords (Text.words line) = .ok i) :
    ofLines number (line :: rest) = .ok p ↔
      ∃ is, ofLines (number + 1) rest = .ok is ∧ i :: is = p := by
  rw [lineRead read]
  cases ofLines (number + 1) rest <;> simp [Except.map]

theorem lineThenRefused {i : Instruction} {e : SourceError}
    (read : Instruction.ofWords (Text.words line) = .ok i) :
    ofLines number (line :: rest) = .error e ↔ ofLines (number + 1) rest = .error e := by
  rw [lineRead read]
  cases ofLines (number + 1) rest <;> simp [Except.map]

theorem lineRefused {c : Complaint} (nonempty : Text.words line ≠ [])
    (refused : Instruction.ofWords (Text.words line) = .error c) :
    ofLines number (line :: rest) = .error ⟨number, c⟩ := by
  rw [ofLines]
  split
  · exact absurd (by assumption) nonempty
  · rename_i same
    rw [← same, refused]
    rfl

end

section
variable {written : Instruction → List Char} (writes : ∀ i : Instruction, i.Writes (written i))
  {p : Program}
include writes

theorem linesRead (writable : ∀ i ∈ p, i.isWritable = true)
    (lasting : ∀ i ∈ p, i.isAssignment = false) (number : Int) :
    ofLines number (p.map written) = .ok p := by
  induction p generalizing number with
  | nil => rfl
  | cons i rest ih =>
    obtain ⟨first, others⟩ := List.forall_mem_cons.mp writable
    obtain ⟨lastingFirst, lastingOthers⟩ := List.forall_mem_cons.mp lasting
    have read := Instruction.wordsRead first lastingFirst
    rw [← (writes i).words] at read
    rw [List.map_cons, lineRead read, ih others lastingOthers]
    rfl

theorem linesReserved (writable : ∀ i ∈ p, i.isWritable = true) {k : Nat}
    (first : p.findIdx? Instruction.isAssignment = some k) (number : Int) :
    ofLines number (p.map written) = .error ⟨number + k, .reserved⟩ := by
  induction p generalizing number k with
  | nil => cases first
  | cons i rest ih =>
    obtain ⟨writableFirst, others⟩ := List.forall_mem_cons.mp writable
    have same := (writes i).words
    rw [List.findIdx?_cons] at first
    rw [List.map_cons]
    split at first
    · rename_i assigns
      cases first
      have reserved := Instruction.assignmentReserved assigns
      rw [← same] at reserved
      rw [lineRefused (by simp [same, Instruction.words]) reserved]
      exact congrArg (fun n => Except.error (SourceError.mk n .reserved)) (Int.add_zero number).symm
    · rename_i lasting
      obtain ⟨j, later, rfl⟩ := Option.map_eq_some_iff.mp first
      have read := Instruction.wordsRead writableFirst (by simpa using lasting)
      rw [← same] at read
      refine (lineThenRefused read).mpr ((ih others later (number + 1)).trans ?_)
      refine congrArg (fun n => Except.error (SourceError.mk n .reserved)) ?_
      omega

theorem joinedParse (p : Program) :
    parse (String.ofList (unlines (p.map written))) = ofLines 1 (p.map written) := by
  have each : ∀ line ∈ p.map written, IsLine line := by
    intro line mem
    obtain ⟨i, _, rfl⟩ := List.mem_map.mp mem
    exact (writes i).isLine
  rw [parse, ofText, String.toList_ofList, Text.linesUnlines each]

end

theorem linesWritable {number : Int} {ls : List (List Char)} {p : Program}
    (read : ofLines number ls = .ok p) :
    (∀ i ∈ p, i.isWritable = true) ∧ ∀ i ∈ p, i.isAssignment = false := by
  induction ls generalizing number p with
  | nil =>
    cases read
    exact ⟨nofun, nofun⟩
  | cons line rest ih =>
    by_cases blank : Text.words line = []
    · rw [lineSkipped blank] at read
      exact ih read
    cases first : Instruction.ofWords (Text.words line) with
    | error c =>
      rw [lineRefused blank first] at read
      cases read
    | ok i =>
      obtain ⟨is, others, rfl⟩ := (lineThenRead first).mp read
      obtain ⟨writable, lasting⟩ := Instruction.readWritable first
      obtain ⟨writableOthers, lastingOthers⟩ := ih others
      exact ⟨List.forall_mem_cons.mpr ⟨writable, writableOthers⟩,
        List.forall_mem_cons.mpr ⟨lasting, lastingOthers⟩⟩

def Rereads (p : Program) (result : Except SourceError Program) : Prop :=
  ∃ text listing, p.render = .ok text ∧ p.renderListing = .ok listing ∧
    parse text = result ∧ parse listing = result

theorem writtenRereads {p : Program} (writable : p.isWritable = true)
    {result : Except SourceError Program}
    (lines : ∀ written : Instruction → List Char, (∀ i : Instruction, i.Writes (written i)) →
      ofLines 1 (p.map written) = result) : p.Rereads result :=
  ⟨_, _, if_pos writable, if_pos writable,
    (joinedParse Instruction.textWrites p).trans (lines _ Instruction.textWrites),
    (joinedParse Instruction.indentedWrites p).trans (lines _ Instruction.indentedWrites)⟩

theorem renderRoundTrip :
    (∀ p : Program, p.isWritable = true → (∀ i ∈ p, i.isAssignment = false) →
      p.Rereads (.ok p)) ∧
    (∀ (p : Program) (k : Nat), p.isWritable = true →
      p.findIdx? Instruction.isAssignment = some k →
      ∃ e : SourceError, p.Rereads (.error e) ∧ e.line = k + 1 ∧
        e.message = Text.Numeral.render (k + 1) >>= fun number =>
          .ok ("line " ++ number ++ ": 'set' is reserved for optimizer output")) ∧
    ∀ (source : String) (p : Program), parse source = .ok p → p.Rereads (.ok p) := by
  refine ⟨?_, ?_, ?_⟩
  · intro p writable lasting
    exact writtenRereads writable fun _ writes =>
      linesRead writes (List.all_eq_true.mp writable) lasting 1
  · intro p k writable first
    refine ⟨⟨1 + k, .reserved⟩, ?_, Int.add_comm 1 k, ?_⟩
    · exact writtenRereads writable fun _ writes =>
        linesReserved writes (List.all_eq_true.mp writable) first 1
    · rw [SourceError.message, Int.add_comm 1 (k : Int)]
      simp only [String.append_assoc]
      rfl
  · intro source p read
    obtain ⟨writable, lasting⟩ := linesWritable read
    exact writtenRereads (List.all_eq_true.mpr writable) fun _ writes =>
      linesRead writes writable lasting 1

theorem renderRoundTripSigned :
    let source := "inp w\r\n\t add x\u00a0-1_1 \u2028\n mul x +007"
    let p : Program := [.read .w, .update .add .x (.const (-11)), .update .mul .x (.const 7)]
    let q : Program := [.read .w, .update .add .x (.reg .w), .update .set .z (.const (-5)),
      .update .set .z (.const 0)]
    parse source = .ok p ∧ p.Rereads (.ok p) ∧
      ∃ e, q.Rereads (.error e) ∧ e.line = 3 ∧
        e.message = .ok "line 3: 'set' is reserved for optimizer output" := by
  intro source p q
  have read : parse source = .ok p := by decide +kernel
  obtain ⟨whole, reserved, again⟩ := renderRoundTrip
  obtain ⟨e, rereads, line, message⟩ := reserved q 2 rfl rfl
  exact ⟨read, again source p read, e, rereads, line, message⟩

end Program
end StraightLine
