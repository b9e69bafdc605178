import Mathlib.Data.Set.Card
import StraightLine.Proofs.Search.Exploration

/-! The digit strings a search reaches. A string is accepted when the predicate holds after each of
its positions, and reached when that is so of all its proper prefixes. Both go down the segments one
digit at a time, like the search. Every reached string is an accepted one with one more digit. -/
namespace StraightLine

namespace DigitOrder

/- At or before the first digits of a sequence, as many as the string has. -/
def UpTo (order : DigitOrder) (sequence p : List Int) : Prop :=
  p = sequence.take p.length ∨ List.Lex order.Earlier p (sequence.take p.length)

variable {order : DigitOrder} {d e : Int} {sequence p : List Int}

theorem upToNil (sequence : List Int) : order.UpTo sequence [] := .inl rfl

theorem upToCons :
    order.UpTo (e :: sequence) (d :: p) ↔ order.Earlier d e ∨ d = e ∧ order.UpTo sequence p := by
  simp only [UpTo, List.length_cons, List.take_succ_cons, List.cons.injEq, List.cons_lex_cons_iff]
  tauto

theorem earlierApart (earlier : order.Earlier d e) : d ≠ e ∧ ¬order.Earlier e d := by
  cases order <;> simp only [Earlier] at earlier ⊢ <;> omega

theorem upToEarlier (earlier : order.Earlier d e) (here : p.head? = some d)
    (there : sequence.head? = some e) : order.UpTo sequence p := by
  obtain ⟨_, rfl⟩ := List.head?_eq_some_iff.mp here
  obtain ⟨_, rfl⟩ := List.head?_eq_some_iff.mp there
  exact upToCons.mpr (.inl earlier)

theorem upToLater (earlier : order.Earlier d e) (here : p.head? = some e)
    (there : sequence.head? = some d) : ¬order.UpTo sequence p := by
  obtain ⟨_, rfl⟩ := List.head?_eq_some_iff.mp here
  obtain ⟨_, rfl⟩ := List.head?_eq_some_iff.mp there
  obtain ⟨different, late⟩ := earlierApart earlier
  simp [upToCons, late, different.symm]

/- A search that finds nothing goes on to its last string. -/
def Within (order : DigitOrder) (found : Option Answer) (p : List Int) : Prop :=
  ∀ a ∈ found, order.UpTo a.digits p

theorem withinNone (p : List Int) : order.Within none p := by simp [Within]

theorem withinPrepend {found : Option Answer} :
    order.Within (found.map (Answer.prepend d)) (d :: p) ↔ order.Within found p := by
  have same : ¬order.Earlier d d := fun earlier => (earlierApart earlier).1 rfl
  cases found <;> simp [Within, Answer.prepend, upToCons, same]

end DigitOrder

namespace Search
variable {ε : Type} {accept : Predicate ε} {position : Nat} {before : Registers}
  {segment : Segment} {rest segments : List Segment}

def Accepted (accept : Predicate ε) : Nat → Registers → List Segment → List Int → Prop
  | _, _, _, [] => True
  | _, _, [], _ :: _ => False
  | position, before, segment :: rest, d :: ds => d ∈ Interval.digit ∧
      ∃ after, execute segment.instructions [d] before = .ok after ∧
        accept position after = .ok true ∧ Accepted accept (position + 1) after rest ds

structure Reached (accept : Predicate ε) (position : Nat) (before : Registers)
    (segments : List Segment) (p : List Int) : Prop where
  nonempty : p ≠ []
  fits : p.length ≤ segments.length
  digits : ∀ d ∈ p, d ∈ Interval.digit
  accepted : ∀ q, q <+: p → q ≠ p → Accepted accept position before segments q

theorem acceptedDigits {ds : List Int} (accepted : Accepted accept position before segments ds) :
    ∀ d ∈ ds, d ∈ Interval.digit := by
  induction segments generalizing position before ds with
  | nil =>
    cases ds with
    | nil => simp
    | cons d ds => cases accepted
  | cons segment rest ih =>
    cases ds with
    | nil => simp
    | cons d ds =>
      obtain ⟨choice, _, _, _, below⟩ := accepted
      exact List.forall_mem_cons.mpr ⟨choice, ih below⟩

theorem acceptedPrefix {ds q : List Int} (accepted : Accepted accept position before segments ds)
    (starts : q <+: ds) : Accepted accept position before segments q := by
  induction segments generalizing position before ds q with
  | nil =>
    cases ds with
    | nil => rwa [List.prefix_nil.mp starts]
    | cons d ds => cases accepted
  | cons segment rest ih =>
    cases ds with
    | nil => rwa [List.prefix_nil.mp starts]
    | cons d ds =>
      rcases List.prefix_cons_iff.mp starts with rfl | ⟨tail, rfl, shorter⟩
      · trivial
      · obtain ⟨choice, after, ran, tried, below⟩ := accepted
        exact ⟨choice, after, ran, tried, ih below shorter⟩

theorem reachedCons {d : Int} {p : List Int} :
    Reached accept position before (segment :: rest) (d :: p) ↔ d ∈ Interval.digit ∧
      (p = [] ∨ ∃ after, execute segment.instructions [d] before = .ok after ∧
        accept position after = .ok true ∧ Reached accept (position + 1) after rest p) := by
  constructor
  · intro reached
    obtain ⟨choice, later⟩ := List.forall_mem_cons.mp reached.digits
    refine ⟨choice, ?_⟩
    by_cases single : p = []
    · exact .inl single
    · have shortest : [d] <+: d :: p := by simp
      obtain ⟨_, after, ran, tried, _⟩ := reached.accepted [d] shortest (by simpa using single)
      refine .inr ⟨after, ran, tried, single, Nat.le_of_succ_le_succ reached.fits, later, ?_⟩
      intro q starts proper
      have longer : d :: q <+: d :: p := List.cons_prefix_cons.mpr ⟨rfl, starts⟩
      obtain ⟨_, again, ranAgain, _, below⟩ :=
        reached.accepted (d :: q) longer (by simpa using proper)
      cases ran.symm.trans ranAgain
      exact below
  · rintro ⟨choice, rfl | ⟨after, ran, tried, reached⟩⟩
    · refine ⟨by simp, by simp, by simpa using choice, ?_⟩
      intro q starts proper
      rcases List.prefix_cons_iff.mp starts with rfl | ⟨tail, rfl, shorter⟩
      · trivial
      · exact absurd (by rw [List.prefix_nil.mp shorter]) proper
    · refine ⟨by simp, Nat.succ_le_succ reached.fits,
        List.forall_mem_cons.mpr ⟨choice, reached.digits⟩, ?_⟩
      intro q starts proper
      rcases List.prefix_cons_iff.mp starts with rfl | ⟨tail, rfl, shorter⟩
      · trivial
      · exact ⟨choice, after, ran, tried, reached.accepted tail shorter (by simpa using proper)⟩

theorem reachedSnoc {q : List Int} {d : Int} :
    Reached accept position before segments (q ++ [d]) ↔
      (Accepted accept position before segments q ∧ q.length < segments.length) ∧
        d ∈ Interval.digit := by
  constructor
  · intro reached
    refine ⟨⟨reached.accepted q (List.prefix_append q [d]) (by simp), ?_⟩,
      reached.digits d (by simp)⟩
    simpa using reached.fits
  · rintro ⟨⟨accepted, short⟩, choice⟩
    refine ⟨by simp, by simpa using short, ?_, ?_⟩
    · simpa [or_imp, forall_and] using ⟨acceptedDigits accepted, choice⟩
    · intro r starts proper
      rcases List.prefix_concat_iff.mp starts with same | shorter
      · exact absurd same proper
      · exact acceptedPrefix accepted shorter

theorem reachedCount (accept : Predicate ε) (position : Nat) (before : Registers)
    (segments : List Segment) :
    {p | Reached accept position before segments p}.encard =
      9 * {q | Accepted accept position before segments q ∧ q.length < segments.length}.encard := by
  have nine : {d | d ∈ Interval.digit}.encard = 9 := by
    have listed : {d | d ∈ Interval.digit} = ↑DigitOrder.ascending.digits.toFinset := by
      ext d
      exact (DigitOrder.digitRange .ascending d).symm.trans (by simp)
    rw [listed, Set.encard_coe_eq_coe_finsetCard]
    rfl
  have snoc : Function.Injective fun extended : List Int × Int =>
      extended.1 ++ [extended.2] := by
    intro first second same
    exact Prod.ext_iff.mpr (List.append_singleton_inj.mp same)
  rw [mul_comm, ← nine, ← Set.encard_prod, ← snoc.encard_image]
  congr 1
  ext p
  constructor
  · intro reached
    rcases List.eq_nil_or_concat' p with rfl | ⟨q, d, rfl⟩
    · exact absurd rfl (Reached.nonempty reached)
    · exact ⟨(q, d), reachedSnoc.mp reached, rfl⟩
  · rintro ⟨⟨q, d⟩, snocs, rfl⟩
    exact reachedSnoc.mpr snocs

end Search
end StraightLine
