import StraightLine.Text.Line
import StraightLine.Text.Word

/-! Lines, joined and split again. A line feed ends a line wherever it stands, so that what follows
it is split on its own, and lines which are not empty and hold no terminator are the lines of their
join. Every terminator is a blank, and so words never hold one. -/
namespace StraightLine.Text

theorem terminatorBlank {c : Char} (ends : isTerminator c = true) : isBlank c = true := by
  simp only [isTerminator, List.contains_iff_mem, List.mem_cons, List.not_mem_nil, or_false] at ends
  rcases ends with rfl | rfl | rfl | rfl | rfl | rfl | rfl | rfl | rfl | rfl <;> decide

structure IsLine (line : List Char) : Prop where
  nonempty : line ≠ []
  free : ∀ c ∈ line, isTerminator c = false

theorem wordLine {w : List Char} (word : IsWord w) : IsLine w := by
  refine ⟨word.1, ?_⟩
  intro c mem
  cases ends : isTerminator c with
  | false => rfl
  | true => exact absurd ((terminatorBlank ends).symm.trans (word.2 c mem)) nofun

theorem lineAppend {line more : List Char} (first : IsLine line)
    (free : ∀ c ∈ more, isTerminator c = false) : IsLine (line ++ more) := by
  refine ⟨List.append_ne_nil_of_left_ne_nil first.nonempty more, ?_⟩
  intro c mem
  rcases List.mem_append.mp mem with inLine | inMore
  · exact first.free c inLine
  · exact free c inMore

theorem unwordsLine {ws : List (List Char)} (nonempty : ws ≠ []) (words : ∀ w ∈ ws, IsWord w) :
    IsLine (unwords ws) := by
  induction ws with
  | nil => exact absurd rfl nonempty
  | cons w more ih =>
    have first := wordLine (words w (by simp))
    cases more with
    | nil => exact first
    | cons v vs =>
      have others := ih (by simp) (fun u later => words u (List.mem_cons_of_mem w later))
      refine lineAppend first ?_
      intro c mem
      rcases List.mem_cons.mp mem with rfl | later
      · decide
      · exact others.free c later

inductive Terminator : List Char → Prop
  | single {c : Char} (ends : isTerminator c = true) : Terminator [c]
  | returnFeed : Terminator ['\r', '\n']

/- The lines of a text, in order. A terminator is taken as long as it can be, and what follows the
last one is a line only when it is not empty. -/
inductive Breaks : List Char → List (List Char) → Prop
  | nil : Breaks [] []
  | last {line : List Char} (isLine : IsLine line) : Breaks line [line]
  | ended {line terminator rest : List Char} {ls : List (List Char)}
      (free : ∀ c ∈ line, isTerminator c = false) (ends : Terminator terminator)
      (longest : terminator = ['\r'] → rest.head? ≠ some '\n') (tail : Breaks rest ls) :
      Breaks (line ++ (terminator ++ rest)) (line :: ls)

theorem linesTerminated {terminator : List Char} (ends : Terminator terminator) {rest : List Char}
    (longest : terminator = ['\r'] → rest.head? ≠ some '\n') :
    lines (terminator ++ rest) = [] :: lines rest := by
  cases ends with
  | @single c ends =>
    have alone (more : List Char) (isReturn : c = '\r') (feeds : rest = '\n' :: more) : False := by
      subst isReturn feeds
      exact longest rfl rfl
    rw [List.singleton_append, lines.eq_3 c rest alone, if_pos ends]
  | returnFeed => rfl

theorem linesBefore {line terminator : List Char} (free : ∀ c ∈ line, isTerminator c = false)
    (ends : Terminator terminator) {rest : List Char}
    (longest : terminator = ['\r'] → rest.head? ≠ some '\n') :
    lines (line ++ (terminator ++ rest)) = line :: lines rest := by
  induction line with
  | nil => exact linesTerminated ends longest
  | cons c cs ih =>
    rw [List.cons_append, linesStep (free c (by simp)),
      ih (fun d later => free d (List.mem_cons_of_mem c later))]

theorem linesBreaks {cs : List Char} {ls : List (List Char)} : lines cs = ls ↔ Breaks cs ls := by
  constructor
  · intro same
    subst same
    fun_induction lines cs with
    | case1 => exact .nil
    | case2 rest ih => exact .ended (List.forall_mem_nil _) .returnFeed nofun ih
    | case3 c rest alone ends ih =>
      have longest : [c] = ['\r'] → rest.head? ≠ some '\n' := by
        intro isReturn feeds
        obtain ⟨more, rfl⟩ := List.head?_eq_some_iff.mp feeds
        exact alone more (List.singleton_inj.mp isReturn) rfl
      exact .ended (List.forall_mem_nil _) (.single ends) longest ih
    | case4 c rest alone other found ih =>
      rw [found] at ih
      cases ih
      exact .last ⟨nofun, List.forall_mem_singleton.mpr (Bool.eq_false_iff.mpr other)⟩
    | case5 c rest alone other line more found ih =>
      have free : isTerminator c = false := Bool.eq_false_iff.mpr other
      rw [found] at ih
      cases ih with
      | last isLine => exact .last ⟨nofun, List.forall_mem_cons.mpr ⟨free, isLine.free⟩⟩
      | ended others ends longest tail =>
        exact .ended (List.forall_mem_cons.mpr ⟨free, others⟩) ends longest tail
  · intro breaks
    induction breaks with
    | nil => rfl
    | last isLine => exact linesOfFree isLine.free isLine.nonempty
    | ended free ends longest tail ih => rw [linesBefore free ends longest, ih]

theorem linesFeed {cs : List Char} {ls : List (List Char)} (breaks : Breaks cs ls) :
    ∃ empty : List (List Char), (empty = [] ∨ empty = [[]]) ∧
      ∀ rest, lines (cs ++ '\n' :: rest) = ls ++ empty ++ lines rest := by
  have feed : Terminator ['\n'] := .single (by decide)
  induction breaks with
  | nil => exact ⟨[[]], .inr rfl, fun rest => linesTerminated feed nofun⟩
  | last isLine => exact ⟨[], .inl rfl, fun rest => linesBefore isLine.free feed nofun⟩
  | @ended line terminator after ls free ends longest tail ih =>
    by_cases returned : terminator = ['\r'] ∧ after = []
    · -- the carriage return and the line feed after it are one terminator
      obtain ⟨rfl, rfl⟩ := returned
      have closed : [] = ls := linesBreaks.mpr tail
      subst closed
      refine ⟨[], .inl rfl, ?_⟩
      intro rest
      rw [List.append_assoc]
      exact linesBefore free .returnFeed nofun
    · obtain ⟨empty, few, split⟩ := ih
      refine ⟨empty, few, ?_⟩
      intro rest
      have longestToo : terminator = ['\r'] → (after ++ '\n' :: rest).head? ≠ some '\n' := by
        intro isReturn
        obtain ⟨c, more, rfl⟩ := List.exists_cons_of_ne_nil fun none => returned ⟨isReturn, none⟩
        exact longest isReturn
      rw [List.append_assoc, List.append_assoc, linesBefore free ends longestToo, split]
      rfl

theorem linesUnlines {ls : List (List Char)} (each : ∀ line ∈ ls, IsLine line) :
    lines (unlines ls) = ls := by
  induction ls with
  | nil => rfl
  | cons line more ih =>
    have first := each line (by simp)
    cases more with
    | nil => exact linesOfFree first.free first.nonempty
    | cons second more =>
      have others := ih fun l later => each l (List.mem_cons_of_mem line later)
      have apart : lines (line ++ '\n' :: unlines (second :: more)) =
          line :: lines (unlines (second :: more)) :=
        linesBefore first.free (.single (by decide)) nofun
      rw [unlines, apart, others]
      simp

end StraightLine.Text
