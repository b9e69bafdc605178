import StraightLine.Proofs.Search.First

/-! Digit sequences as decimal numerals. Among sequences of one length the lexicographic order of
the digits tried is the order of the numerals they write. -/
namespace StraightLine

def appendDigit (n d : Int) : Int := 10 * n + d

def decimal (ds : List Int) : Int := ds.foldl appendDigit 0

namespace DigitOrder
variable {order : DigitOrder} {ds es : List Int}

theorem appendEarlier {m n d e : Int} (earlier : order.Earlier m n) (left : d ∈ Interval.digit)
    (right : e ∈ Interval.digit) : order.Earlier (appendDigit m d) (appendDigit n e) := by
  obtain ⟨leastLeft, mostLeft⟩ := left
  obtain ⟨leastRight, mostRight⟩ := right
  simp only [Interval.digit] at leastLeft mostLeft leastRight mostRight
  cases order <;> simp only [Earlier, appendDigit] at earlier ⊢ <;> omega

theorem appendEarlierLast (n : Int) {d e : Int} (earlier : order.Earlier d e) :
    order.Earlier (appendDigit n d) (appendDigit n e) := by
  cases order <;> simp only [Earlier, appendDigit] at earlier ⊢ <;> omega

theorem appendsEarlier {m n : Int} (earlier : order.Earlier m n)
    (sameLength : ds.length = es.length) (left : ∀ d ∈ ds, d ∈ Interval.digit)
    (right : ∀ e ∈ es, e ∈ Interval.digit) :
    order.Earlier (ds.foldl appendDigit m) (es.foldl appendDigit n) := by
  induction ds generalizing es m n with
  | nil =>
    cases List.length_eq_zero_iff.mp sameLength.symm
    exact earlier
  | cons d ds ih =>
    cases es with
    | nil => cases sameLength
    | cons e es =>
      obtain ⟨digitLeft, laterLeft⟩ := List.forall_mem_cons.mp left
      obtain ⟨digitRight, laterRight⟩ := List.forall_mem_cons.mp right
      have next := appendEarlier earlier digitLeft digitRight
      rw [List.foldl_cons, List.foldl_cons]
      exact ih next (Nat.succ.inj sameLength) laterLeft laterRight

theorem lexEarlier (n : Int) (lex : List.Lex order.Earlier ds es)
    (sameLength : ds.length = es.length) (left : ∀ d ∈ ds, d ∈ Interval.digit)
    (right : ∀ e ∈ es, e ∈ Interval.digit) :
    order.Earlier (ds.foldl appendDigit n) (es.foldl appendDigit n) := by
  induction lex generalizing n with
  | nil => cases sameLength
  | @cons d ds es lex ih =>
    have laterLeft := (List.forall_mem_cons.mp left).2
    have laterRight := (List.forall_mem_cons.mp right).2
    exact ih (appendDigit n d) (Nat.succ.inj sameLength) laterLeft laterRight
  | @rel d ds e es earlier =>
    have laterLeft := (List.forall_mem_cons.mp left).2
    have laterRight := (List.forall_mem_cons.mp right).2
    have heads := appendEarlierLast n earlier
    rw [List.foldl_cons, List.foldl_cons]
    exact appendsEarlier heads (Nat.succ.inj sameLength) laterLeft laterRight

theorem decimalEarlier (lex : List.Lex order.Earlier ds es) (sameLength : ds.length = es.length)
    (left : ∀ d ∈ ds, d ∈ Interval.digit) (right : ∀ e ∈ es, e ∈ Interval.digit) :
    order.Earlier (decimal ds) (decimal es) :=
  lexEarlier 0 lex sameLength left right

end DigitOrder
end StraightLine
