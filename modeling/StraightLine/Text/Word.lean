/-! Words of a line: the maximal runs without a blank. The zero-width space and the byte order
mark are not blanks. -/
namespace StraightLine.Text

def isBlank (c : Char) : Bool :=
  ['\t', '\n', '\x0b', '\x0c', '\r', '\x1c', '\x1d', '\x1e', '\x1f', ' ', '\u0085', '\u00a0',
    '\u1680', '\u2000', '\u2001', '\u2002', '\u2003', '\u2004', '\u2005', '\u2006', '\u2007',
    '\u2008', '\u2009', '\u200a', '\u2028', '\u2029', '\u202f', '\u205f', '\u3000'].contains c

def opensWord : List Char → Bool
  | [] => false
  | c :: _ => !isBlank c

def words : List Char → List (List Char)
  | [] => []
  | c :: rest =>
    if isBlank c then words rest
    else if opensWord rest then
      match words rest with
      | [] => [[c]]
      | word :: more => (c :: word) :: more
    else [c] :: words rest

def unwords : List (List Char) → List Char
  | [] => []
  | [word] => word
  | word :: more => word ++ ' ' :: unwords more

def IsWord (w : List Char) : Prop := w ≠ [] ∧ ∀ c ∈ w, isBlank c = false

theorem wordsBlank {c : Char} (blank : isBlank c = true) (rest : List Char) :
    words (c :: rest) = words rest := by simp [words, blank]

theorem wordsBefore {w : List Char} (word : IsWord w) {rest : List Char}
    (ends : opensWord rest = false) : words (w ++ rest) = w :: words rest := by
  induction w with
  | nil => exact absurd rfl word.1
  | cons c cs ih =>
    have hc : isBlank c = false := word.2 c (by simp)
    cases cs with
    | nil => simp [words, hc, ends]
    | cons d ds =>
      have hd : isBlank d = false := word.2 d (by simp)
      have tail := ih ⟨by simp, fun e he => word.2 e (by simp [he])⟩
      simp only [List.cons_append] at tail ⊢
      rw [words]
      simp [hc, opensWord, hd, tail]

theorem wordsUnwords {ws : List (List Char)} (all : ∀ w ∈ ws, IsWord w) :
    words (unwords ws) = ws := by
  induction ws with
  | nil => rfl
  | cons w more ih =>
    have head := all w (by simp)
    have tail : ∀ v ∈ more, IsWord v := fun v hv => all v (by simp [hv])
    cases more with
    | nil =>
      have whole : words (w ++ []) = w :: words [] := wordsBefore head rfl
      simpa [unwords, words] using whole
    | cons v vs =>
      have apart : opensWord (' ' :: unwords (v :: vs)) = false := by simp [opensWord]; decide
      rw [unwords, wordsBefore head apart, wordsBlank (by decide), ih tail]
      simp

end StraightLine.Text
