import Mathlib.Data.List.DropRight
import StraightLine.Text.Word

/-! Words of a line. They are the runs of visible characters that end at a blank or with the line,
so that blanks at either end of a line separate nothing: a line has the same words without them. A
line of blanks is the one that has no words, and the one of which nothing is left. -/
namespace StraightLine.Text

/- The words of a line, in order: runs without a blank that cannot be made longer. -/
inductive Spaced : List Char → List (List Char) → Prop
  | nil : Spaced [] []
  | blank {c : Char} {rest : List Char} {ws : List (List Char)} (blank : isBlank c = true)
      (tail : Spaced rest ws) : Spaced (c :: rest) ws
  | word {w rest : List Char} {ws : List (List Char)} (word : IsWord w)
      (ends : opensWord rest = false) (tail : Spaced rest ws) : Spaced (w ++ rest) (w :: ws)

theorem visibleSpaced {c : Char} (visible : isBlank c = false) {rest : List Char}
    (tail : Spaced rest (words rest)) : Spaced (c :: rest) (words (c :: rest)) := by
  have alone : IsWord [c] := ⟨List.cons_ne_nil c [], List.forall_mem_singleton.mpr visible⟩
  cases opens : opensWord rest with
  | false =>
    have own : words (c :: rest) = [c] :: words rest := wordsBefore alone opens
    rw [own]
    exact .word (w := [c]) alone opens tail
  | true =>
    generalize found : words rest = ws at tail
    cases tail with
    | nil => cases opens
    | blank blank _ => simp [opensWord, blank] at opens
    | @word w more ws word ends tail =>
      have longer : IsWord (c :: w) :=
        ⟨List.cons_ne_nil c w, List.forall_mem_cons.mpr ⟨visible, word.2⟩⟩
      have whole : words (c :: w ++ more) = (c :: w) :: words more := wordsBefore longer ends
      rw [wordsBefore word ends] at found
      rw [← List.cons_append, whole, (List.cons.inj found).2]
      exact .word longer ends tail

theorem wordsSpaced {line : List Char} {ws : List (List Char)} :
    words line = ws ↔ Spaced line ws := by
  constructor
  · intro same
    subst same
    induction line with
    | nil => exact .nil
    | cons c rest ih =>
      cases blank : isBlank c with
      | true =>
        rw [wordsBlank blank]
        exact .blank blank ih
      | false => exact visibleSpaced blank ih
  · intro spaced
    induction spaced with
    | nil => rfl
    | blank blank tail ih => rw [wordsBlank blank, ih]
    | word word ends tail ih => rw [wordsBefore word ends, ih]

def isBlankLine (line : List Char) : Bool := line.all isBlank

theorem wordsOpened {c : Char} (visible : isBlank c = false) (rest : List Char) :
    words (c :: rest) ≠ [] := by
  simp only [words, visible, Bool.false_eq_true, if_false]
  split
  · split <;> exact List.cons_ne_nil _ _
  · exact List.cons_ne_nil _ _

theorem noWords {line : List Char} : words line = [] ↔ isBlankLine line = true := by
  induction line with
  | nil => simp [words, isBlankLine]
  | cons c rest ih =>
    cases blank : isBlank c with
    | true => simp [wordsBlank blank, ih, isBlankLine, blank]
    | false => simp [wordsOpened blank, isBlankLine, blank]

theorem wordsThenBlank {b : Char} (blank : isBlank b = true) (line : List Char) :
    words (line ++ [b]) = words line := by
  induction line with
  | nil => exact wordsBlank blank []
  | cons c rest ih =>
    have opens : opensWord (rest ++ [b]) = opensWord rest := by
      cases rest with
      | nil => simp [opensWord, blank]
      | cons d more => rfl
    simp only [List.cons_append, words, ih, opens]

def strip (line : List Char) : List Char := (line.dropWhile isBlank).rdropWhile isBlank

theorem wordsDropFront (line : List Char) : words (line.dropWhile isBlank) = words line := by
  induction line with
  | nil => rfl
  | cons c rest ih =>
    cases blank : isBlank c with
    | true => rw [List.dropWhile_cons_of_pos blank, ih, wordsBlank blank]
    | false => rw [List.dropWhile_cons_of_neg (by simp [blank])]

theorem wordsDropBack (line : List Char) : words (line.rdropWhile isBlank) = words line := by
  induction line using List.reverseRecOn with
  | nil => rfl
  | append_singleton line b ih =>
    cases blank : isBlank b with
    | true => rw [List.rdropWhile_concat_pos _ _ _ blank, ih, wordsThenBlank blank]
    | false => rw [List.rdropWhile_concat_neg _ _ _ (by simp [blank])]

theorem wordsStrip (line : List Char) : words (strip line) = words line :=
  (wordsDropBack _).trans (wordsDropFront line)

theorem stripEmpty {line : List Char} : strip line = [] ↔ words line = [] := by
  constructor
  · intro nothing
    rw [← wordsStrip, nothing]
    rfl
  · intro none
    have blank : ∀ c ∈ line, isBlank c = true := List.all_eq_true.mp (noWords.mp none)
    have dropped : line.dropWhile isBlank = [] := List.dropWhile_eq_nil_iff.mpr blank
    rw [strip, dropped]
    rfl

end StraightLine.Text
