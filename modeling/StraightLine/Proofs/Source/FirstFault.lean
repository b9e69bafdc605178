import Mathlib.Data.List.Forall2
import StraightLine.Proofs.Source.Grammar
import StraightLine.Proofs.Text.Word

/-! The grammar of a source text. A text is read when each of its lines is blank or has the words of
an instruction, and then it is read as these instructions. Otherwise the first other line is
reported, by its number among all lines and with the first check that its words fail. -/
namespace StraightLine
open Text (Breaks Spaced isBlankLine strip words)

namespace Program

def Spelled (line : List Char) (i : Instruction) : Prop :=
  ∃ ws, Spaced line ws ∧ Instruction.Spells ws i

def Faulty (line : List Char) (c : Complaint) : Prop :=
  ∃ ws, Spaced line ws ∧ Instruction.Fails ws c

def Admissible (line : List Char) : Prop := isBlankLine line = true ∨ ∃ i, Spelled line i

def writtenLines (ls : List (List Char)) : List (List Char) :=
  ls.filter fun line => !isBlankLine line

/- The line at place n, counted from zero, is the first one that is not admissible, with the first
check that it fails. -/
structure FaultAt (ls : List (List Char)) (n : Nat) (c : Complaint) : Prop where
  faulty : ∃ line, ls[n]? = some line ∧ Faulty line c
  earlier : ∀ line ∈ ls.take n, Admissible line

/- Reading in the order in which the text is taken apart: a line loses its outer blanks, is skipped
when nothing is left, and is read on its own when something is. -/
def ofStripped : Int → List (List Char) → Except SourceError Program
  | _, [] => .ok []
  | number, line :: rest =>
    if strip line = [] then ofStripped (number + 1) rest
    else do
      let i ← Instruction.parse number (String.ofList (strip line))
      let is ← ofStripped (number + 1) rest
      return i :: is

variable {number : Int} {line : List Char} {ls rest : List (List Char)} {p : Program}

theorem strippedLines (number : Int) (ls : List (List Char)) :
    ofStripped number ls = ofLines number ls := by
  induction ls generalizing number with
  | nil => rfl
  | cons line rest ih =>
    by_cases blank : words line = []
    · rw [ofStripped, if_pos (Text.stripEmpty.mpr blank), lineSkipped blank, ih]
    rw [ofStripped, if_neg fun nothing => blank (Text.stripEmpty.mp nothing), Instruction.parse,
      String.toList_ofList, Text.wordsStrip, ih]
    cases read : Instruction.ofWords (words line) with
    | error c =>
      rw [lineRefused blank read]
      rfl
    | ok i =>
      rw [lineRead read]
      cases ofLines (number + 1) rest <;> rfl

theorem spelledRead {i : Instruction} (spelled : Spelled line i) :
    Instruction.ofWords (words line) = .ok i := by
  obtain ⟨ws, spaced, spells⟩ := spelled
  rw [Text.wordsSpaced.mpr spaced]
  exact Instruction.spellsRead spells

theorem faultyRead {c : Complaint} (faulty : Faulty line c) :
    Instruction.ofWords (words line) = .error c ∧ words line ≠ [] := by
  obtain ⟨ws, spaced, fails⟩ := faulty
  rw [Text.wordsSpaced.mpr spaced]
  refine ⟨Instruction.failsRead fails, ?_⟩
  intro blank
  rw [blank] at fails
  cases fails

theorem admissibleSound {c : Complaint} (admissible : Admissible line) : ¬ Faulty line c := by
  intro faulty
  obtain ⟨refused, visible⟩ := faultyRead faulty
  rcases admissible with blank | ⟨i, spelled⟩
  · exact visible (Text.noWords.mpr blank)
  · rw [spelledRead spelled] at refused
    cases refused

theorem lineStep (number : Int) (line : List Char) (rest : List (List Char)) :
    isBlankLine line = true ∧ ofLines number (line :: rest) = ofLines (number + 1) rest ∨
    isBlankLine line = false ∧ (∃ i, Spelled line i) ∨
    isBlankLine line = false ∧ ∃ c, Faulty line c ∧
      ofLines number (line :: rest) = .error ⟨number, c⟩ := by
  by_cases blank : words line = []
  · exact .inl ⟨Text.noWords.mp blank, lineSkipped blank⟩
  have visible : isBlankLine line = false :=
    Bool.eq_false_iff.mpr fun all => blank (Text.noWords.mpr all)
  have spaced : Spaced line (words line) := Text.wordsSpaced.mp rfl
  rcases Instruction.judged blank with ⟨i, spells⟩ | ⟨c, fails⟩
  · exact .inr (.inl ⟨visible, i, words line, spaced, spells⟩)
  · have refused := Instruction.failsRead fails
    exact .inr (.inr ⟨visible, c, ⟨words line, spaced, fails⟩, lineRefused blank refused⟩)

theorem linesAdmissible (read : ofLines number ls = .ok p) : ∀ line ∈ ls, Admissible line := by
  induction ls generalizing number p with
  | nil => exact nofun
  | cons line rest ih =>
    rcases lineStep number line rest with ⟨blank, same⟩ | ⟨_, i, spelled⟩ | ⟨_, c, _, same⟩
    · rw [same] at read
      exact List.forall_mem_cons.mpr ⟨.inl blank, ih read⟩
    · obtain ⟨is, others, _⟩ := (lineThenRead (spelledRead spelled)).mp read
      exact List.forall_mem_cons.mpr ⟨.inr ⟨i, spelled⟩, ih others⟩
    · rw [same] at read
      cases read

theorem linesSpelled :
    ofLines number ls = .ok p ↔ List.Forall₂ Spelled (writtenLines ls) p := by
  induction ls generalizing number p with
  | nil =>
    rw [writtenLines, List.filter_nil, List.forall₂_nil_left_iff, ofLines]
    exact ⟨fun read => (Except.ok.inj read).symm, fun same => congrArg _ same.symm⟩
  | cons line rest ih =>
    rcases lineStep number line rest with ⟨blank, same⟩ | ⟨visible, i, spelled⟩ |
      ⟨visible, c, faulty, same⟩
    · have skipped : writtenLines (line :: rest) = writtenLines rest := by
        simp [writtenLines, blank]
      rw [same, skipped, ih]
    · have written : writtenLines (line :: rest) = line :: writtenLines rest := by
        simp [writtenLines, visible]
      have read := spelledRead spelled
      rw [written, lineThenRead read, List.forall₂_cons_left_iff]
      constructor
      · intro reads
        obtain ⟨is, others, joined⟩ := reads
        exact ⟨i, is, spelled, ih.mp others, joined.symm⟩
      · intro spells
        obtain ⟨j, is, spelledToo, others, joined⟩ := spells
        cases read.symm.trans (spelledRead spelledToo)
        exact ⟨is, ih.mpr others, joined.symm⟩
    · have written : writtenLines (line :: rest) = line :: writtenLines rest := by
        simp [writtenLines, visible]
      rw [same, written, List.forall₂_cons_left_iff]
      constructor
      · intro raised
        cases raised
      · intro spells
        obtain ⟨i, _, spelled, _⟩ := spells
        exact absurd faulty (admissibleSound (.inr ⟨i, spelled⟩))

theorem faultHere {n : Nat} {c d : Complaint} (faulty : Faulty line c) :
    FaultAt (line :: rest) n d ↔ n = 0 ∧ c = d := by
  constructor
  · intro fault
    cases n with
    | zero =>
      obtain ⟨other, found, faultyToo⟩ := fault.faulty
      cases found
      have one := (faultyRead faulty).1.symm.trans (faultyRead faultyToo).1
      exact ⟨rfl, Except.error.inj one⟩
    | succ n => exact absurd faulty (admissibleSound (fault.earlier line (by simp)))
  · intro same
    obtain ⟨rfl, rfl⟩ := same
    exact ⟨⟨line, rfl, faulty⟩, nofun⟩

theorem faultLater {n : Nat} {c : Complaint} (admissible : Admissible line) :
    FaultAt (line :: rest) n c ↔ ∃ k, n = k + 1 ∧ FaultAt rest k c := by
  constructor
  · intro fault
    obtain ⟨other, found, faulty⟩ := fault.faulty
    cases n with
    | zero =>
      cases found
      exact absurd faulty (admissibleSound admissible)
    | succ k =>
      have earlier := (List.forall_mem_cons.mp fault.earlier).2
      exact ⟨k, rfl, ⟨other, found, faulty⟩, earlier⟩
  · intro later
    obtain ⟨k, rfl, faulty, earlier⟩ := later
    exact ⟨faulty, List.forall_mem_cons.mpr ⟨admissible, earlier⟩⟩

theorem faultCounted {e : SourceError} (admissible : Admissible line) :
    (∃ n : Nat, FaultAt rest n e.complaint ∧ e.line = number + 1 + n) ↔
      ∃ n : Nat, FaultAt (line :: rest) n e.complaint ∧ e.line = number + n := by
  constructor
  · intro later
    obtain ⟨n, fault, counted⟩ := later
    exact ⟨n + 1, (faultLater admissible).mpr ⟨n, rfl, fault⟩, by omega⟩
  · intro whole
    obtain ⟨n, fault, counted⟩ := whole
    obtain ⟨k, rfl, later⟩ := (faultLater admissible).mp fault
    exact ⟨k, later, by omega⟩

theorem linesRefused {e : SourceError} :
    ofLines number ls = .error e ↔ ∃ n : Nat, FaultAt ls n e.complaint ∧ e.line = number + n := by
  induction ls generalizing number with
  | nil =>
    constructor
    · intro raised
      cases raised
    · intro fault
      obtain ⟨n, ⟨⟨_, found, _⟩, _⟩, _⟩ := fault
      cases found
  | cons line rest ih =>
    rcases lineStep number line rest with ⟨blank, same⟩ | ⟨_, i, spelled⟩ | ⟨_, c, faulty, same⟩
    · rw [same, ih, faultCounted (.inl blank)]
    · rw [lineThenRefused (spelledRead spelled), ih, faultCounted (.inr ⟨i, spelled⟩)]
    · rw [same]
      constructor
      · intro raised
        cases raised
        exact ⟨0, (faultHere faulty).mpr ⟨rfl, rfl⟩, (Int.add_zero number).symm⟩
      · intro fault
        obtain ⟨n, fault, counted⟩ := fault
        obtain ⟨rfl, rfl⟩ := (faultHere faulty).mp fault
        rw [Int.natCast_zero, Int.add_zero] at counted
        rw [← counted]

theorem sourceAccepted (source : String) :
    (∃ p, parse source = .ok p) ↔ ∀ line ∈ Text.lines source.toList, Admissible line := by
  constructor
  · intro reads
    obtain ⟨p, read⟩ := reads
    exact linesAdmissible read
  · intro admissible
    cases outcome : parse source with
    | ok p => exact ⟨p, rfl⟩
    | error e =>
      obtain ⟨n, ⟨⟨line, found, faulty⟩, _⟩, _⟩ := linesRefused.mp outcome
      exact absurd faulty (admissibleSound (admissible line (List.mem_of_getElem? found)))

theorem parseFollowsGrammar (source : String) :
    Breaks source.toList (Text.lines source.toList) ∧
    ((∃ p, parse source = .ok p) ↔ ∀ line ∈ Text.lines source.toList, Admissible line) ∧
    (∀ p, parse source = .ok p ↔
      List.Forall₂ Spelled (writtenLines (Text.lines source.toList)) p) ∧
    (∀ e, parse source = .error e ↔
      ∃ n : Nat, FaultAt (Text.lines source.toList) n e.complaint ∧ e.line = n + 1 ∧
        e.message = Text.Numeral.render (n + 1) >>= fun number =>
          .ok ("line " ++ number ++ ": " ++ e.complaint.message)) ∧
    (∀ number, parse source ≠ .error ⟨number, .empty⟩) ∧
    parse source = ofStripped 1 (Text.lines source.toList) := by
  have refused (e : SourceError) : parse source = .error e ↔
      ∃ n : Nat, FaultAt (Text.lines source.toList) n e.complaint ∧ e.line = 1 + n := linesRefused
  refine ⟨Text.linesBreaks.mp rfl, sourceAccepted source, fun p => linesSpelled, ?_, ?_,
    (strippedLines 1 _).symm⟩
  · intro e
    rw [refused]
    constructor
    · intro fault
      obtain ⟨n, fault, counted⟩ := fault
      have line : e.line = n + 1 := counted.trans (Int.add_comm 1 n)
      exact ⟨n, fault, line, by rw [← line]; rfl⟩
    · intro fault
      obtain ⟨n, fault, line, _⟩ := fault
      exact ⟨n, fault, line.trans (Int.add_comm (n : Int) 1)⟩
  · intro number raised
    obtain ⟨n, ⟨⟨line, _, ws, _, fails⟩, _⟩, _⟩ := (refused _).mp raised
    cases fails

theorem parseFollowsGrammarMixed :
    let source := "inp w\r\n\x1f\x0b add x \u0663\u2028\n mul y 1__0\rset z 1"
    FaultAt (Text.lines source.toList) 4 (.badOperand ['1', '_', '_', '0']) ∧
      ∃ e, parse source = .error e ∧ e.line = 5 ∧
        e.message = .ok "line 5: '1__0' is neither a register nor an integer" := by
  intro source
  have outcome : parse source = .error ⟨5, .badOperand ['1', '_', '_', '0']⟩ := by decide +kernel
  obtain ⟨_, _, _, faults, _⟩ := parseFollowsGrammar source
  obtain ⟨n, fault, line, message⟩ := (faults _).mp outcome
  have place : n = 4 := by
    dsimp only at line
    omega
  subst place
  have text : "line " ++ String.ofList (Text.Numeral.text 5) ++ ": " ++
      Complaint.message (.badOperand ['1', '_', '_', '0']) =
        "line 5: '1__0' is neither a register nor an integer" := by decide +kernel
  exact ⟨fault, _, outcome, rfl, message.trans (congrArg Except.ok text)⟩

end Program
end StraightLine
