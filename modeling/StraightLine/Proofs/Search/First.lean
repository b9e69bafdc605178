import StraightLine.Proofs.Search.Progress
import StraightLine.Search

/-! What a search finds. An answer passes when each of its digits is accepted on the registers that
the digits before it leave. Where nothing can fail, a search of either schedule finds the passing
answer that comes first in the lexicographic order of the digits tried, or none if none passes. -/
namespace StraightLine

namespace DigitOrder

def Earlier : DigitOrder → Int → Int → Prop
  | .descending, d, e => e < d
  | .ascending, d, e => d < e

theorem digitsSorted (order : DigitOrder) : order.digits.Pairwise order.Earlier := by
  cases order <;> simp [digits, Earlier]

/- A choice among the answers that have a property: the first of them, or none if there is none. -/
def First (order : DigitOrder) (P : Answer → Prop) : Option Answer → Prop
  | none => ∀ a, ¬P a
  | some a => P a ∧ ∀ b, P b → b = a ∨ List.Lex order.Earlier a.digits b.digits

theorem firstCongr {order : DigitOrder} {P Q : Answer → Prop} (same : ∀ a, P a ↔ Q a)
    {found : Option Answer} (first : order.First P found) : order.First Q found := by
  rwa [← show P = Q from funext fun a => propext (same a)]

end DigitOrder

def Answer.prepend (d : Int) (a : Answer) : Answer := { a with digits := d :: a.digits }

namespace Search
variable {ε : Type}

inductive Passes (accept : Predicate ε) : Nat → Registers → List Segment → Answer → Prop
  | done (position registers) : Passes accept position registers [] ⟨[], registers⟩
  | next {position before segment rest digit after a} (choice : digit ∈ Interval.digit)
      (ran : execute segment.instructions [digit] before = .ok after)
      (accepted : accept position after = .ok true)
      (below : Passes accept (position + 1) after rest a) :
      Passes accept position before (segment :: rest) (a.prepend digit)

def Quiet (accept : Predicate ε) : Nat → Registers → List Segment → Prop
  | _, _, [] => True
  | position, before, segment :: rest => ∀ digit ∈ Interval.digit, ∃ after accepted,
      execute segment.instructions [digit] before = .ok after ∧
      accept position after = .ok accepted ∧
      (accepted = true → Quiet accept (position + 1) after rest)

variable {accept : Predicate ε} {order : DigitOrder} {schedule : Schedule} {position : Nat}
  {before : Registers} {segment : Segment} {rest : List Segment}

theorem passesLength {segments : List Segment} {a : Answer}
    (passes : Passes accept position before segments a) : a.digits.length = segments.length := by
  induction passes with
  | done => rfl
  | next choice ran accepted below ih => simp [Answer.prepend, ih]

theorem passesDigits {segments : List Segment} {a : Answer}
    (passes : Passes accept position before segments a) : ∀ d ∈ a.digits, d ∈ Interval.digit := by
  induction passes with
  | done => simp
  | next choice ran accepted below ih =>
    intro d mem
    rcases List.mem_cons.mp mem with rfl | later
    · exact choice
    · exact ih d later

def enter (accept : Predicate ε) (order : DigitOrder) (schedule : Schedule) (position : Nat)
    (rest : List Segment) (c : Candidate) : Progress (SearchError ε) (Option Answer) :=
  if c.accepted then do
    let below ← explore accept order schedule (position + 1) c.registers rest
    return below.map (Answer.prepend c.digit)
  else pure none

theorem exploreSequential :
    explore accept order .sequential position before (segment :: rest) =
      order.digits.findSomeM? fun d => attempt accept position before segment d >>=
        enter accept order .sequential position rest := by
  rw [explore]
  rfl

theorem exploreParallel (workers : Option Int) :
    explore accept order (.parallel workers) position before (segment :: rest) =
      order.digits.mapM (attempt accept position before segment) >>= fun candidates =>
        candidates.findSomeM? (enter accept order (.parallel workers) position rest) := by
  rw [explore]
  rfl

theorem exploreEager
    (each : ∀ d ∈ order.digits, ∃ c, (attempt accept position before segment d).result = .ok c) :
    (explore accept order schedule position before (segment :: rest)).result =
      (order.digits.findSomeM? fun d => attempt accept position before segment d >>=
        enter accept order schedule position rest).result := by
  cases schedule with
  | sequential => rw [exploreSequential]
  | parallel workers =>
    rw [exploreParallel]
    exact Progress.mapThenFind each

theorem attemptAccepted {d : Int} {after : Registers} {accepted : Bool}
    (ran : execute segment.instructions [d] before = .ok after)
    (tried : accept position after = .ok accepted) :
    (attempt accept position before segment d).result = .ok ⟨d, after, accepted⟩ := by
  simp only [attempt, ran, tried]

theorem findSomeFirst {P : Answer → Prop} {f : Int → Progress (SearchError ε) (Option Answer)}
    {ds : List Int} (sorted : ds.Pairwise order.Earlier)
    (each : ∀ d ∈ ds, ∃ found, (f d).result = .ok found ∧
      order.First (fun a => P a ∧ a.digits.head? = some d) found) :
    ∃ found, (ds.findSomeM? f).result = .ok found ∧
      order.First (fun a => P a ∧ ∃ d ∈ ds, a.digits.head? = some d) found := by
  -- an answer with an earlier digit comes before all answers with a later one
  induction ds with
  | nil =>
    refine ⟨none, rfl, ?_⟩
    intro a starts
    obtain ⟨_, d, mem, _⟩ := starts
    cases mem
  | cons d rest ih =>
    obtain ⟨earlier, sortedRest⟩ := List.pairwise_cons.mp sorted
    obtain ⟨found, result, first⟩ := each d (by simp)
    rw [List.findSomeM?_cons, Progress.thenOfOk result]
    cases found with
    | none =>
      obtain ⟨found, later, firstLater⟩ :=
        ih sortedRest (fun e mem => each e (List.mem_cons_of_mem d mem))
      refine ⟨found, later, DigitOrder.firstCongr ?_ firstLater⟩
      intro a
      constructor
      · intro starts
        obtain ⟨passes, e, mem, head⟩ := starts
        exact ⟨passes, e, List.mem_cons_of_mem d mem, head⟩
      · intro starts
        obtain ⟨passes, e, mem, head⟩ := starts
        rcases List.mem_cons.mp mem with rfl | inRest
        · exact absurd ⟨passes, head⟩ (first a)
        · exact ⟨passes, e, inRest, head⟩
    | some a =>
      obtain ⟨⟨passes, head⟩, least⟩ := first
      refine ⟨some a, rfl, ⟨passes, d, by simp, head⟩, ?_⟩
      intro b starts
      obtain ⟨other, e, mem, headOther⟩ := starts
      rcases List.mem_cons.mp mem with rfl | inRest
      · exact least b ⟨other, headOther⟩
      · obtain ⟨as, startsA⟩ := List.head?_eq_some_iff.mp head
        obtain ⟨bs, startsB⟩ := List.head?_eq_some_iff.mp headOther
        rw [startsA, startsB]
        exact .inr (.rel (earlier e inRest))

theorem passesBelow {d : Int} {after : Registers} {accepted : Bool} {a : Answer}
    (ran : execute segment.instructions [d] before = .ok after)
    (tried : accept position after = .ok accepted)
    (passes : Passes accept position before (segment :: rest) a)
    (head : a.digits.head? = some d) :
    accepted = true ∧
      ∃ below, Passes accept (position + 1) after rest below ∧ a = below.prepend d := by
  cases passes with
  | next choice ranHere acceptedHere below =>
    cases head
    rw [ran] at ranHere
    cases ranHere
    rw [tried] at acceptedHere
    cases acceptedHere
    exact ⟨rfl, _, below, rfl⟩

theorem firstPrepend {d : Int} {after : Registers} {found : Option Answer}
    (choice : d ∈ Interval.digit) (ran : execute segment.instructions [d] before = .ok after)
    (tried : accept position after = .ok true)
    (first : order.First (Passes accept (position + 1) after rest) found) :
    order.First (fun a => Passes accept position before (segment :: rest) a ∧
      a.digits.head? = some d) (found.map (Answer.prepend d)) := by
  cases found with
  | none =>
    intro a starts
    obtain ⟨_, below, passes, _⟩ := passesBelow ran tried starts.1 starts.2
    exact first below passes
  | some best =>
    obtain ⟨passes, least⟩ := first
    refine ⟨⟨.next choice ran tried passes, rfl⟩, ?_⟩
    intro a starts
    obtain ⟨_, below, passesToo, rfl⟩ := passesBelow ran tried starts.1 starts.2
    rcases least below passesToo with rfl | later
    · exact .inl rfl
    · exact .inr (.cons later)

theorem enterFirst {d : Int} {after : Registers} {accepted : Bool} (choice : d ∈ Interval.digit)
    (ran : execute segment.instructions [d] before = .ok after)
    (tried : accept position after = .ok accepted)
    (deeper : accepted = true → ∃ found,
      (explore accept order schedule (position + 1) after rest).result = .ok found ∧
        order.First (Passes accept (position + 1) after rest) found) :
    ∃ found, (enter accept order schedule position rest ⟨d, after, accepted⟩).result = .ok found ∧
      order.First (fun a => Passes accept position before (segment :: rest) a ∧
        a.digits.head? = some d) found := by
  cases accepted with
  | false =>
    refine ⟨none, rfl, ?_⟩
    intro a starts
    cases (passesBelow ran tried starts.1 starts.2).1
  | true =>
    obtain ⟨found, result, first⟩ := deeper rfl
    refine ⟨found.map (Answer.prepend d), ?_, firstPrepend choice ran tried first⟩
    simp only [enter, if_pos]
    rw [Progress.thenOfOk result]
    rfl

theorem exploreFirst (order : DigitOrder) (schedule : Schedule) {segments : List Segment}
    (quiet : Quiet accept position before segments) :
    ∃ found, (explore accept order schedule position before segments).result = .ok found ∧
      order.First (Passes accept position before segments) found := by
  induction segments generalizing position before with
  | nil =>
    refine ⟨some ⟨[], before⟩, by rw [explore]; rfl, .done position before, ?_⟩
    intro b passes
    cases passes
    exact .inl rfl
  | cons segment rest ih =>
    have each : ∀ d ∈ order.digits, ∃ found,
        (attempt accept position before segment d >>=
          enter accept order schedule position rest).result = .ok found ∧
        order.First (fun a => Passes accept position before (segment :: rest) a ∧
          a.digits.head? = some d) found := by
      intro d mem
      have choice := (order.digitRange d).mp mem
      obtain ⟨after, accepted, ran, tried, below⟩ := quiet d choice
      rw [Progress.thenOfOk (attemptAccepted ran tried)]
      exact enterFirst choice ran tried (fun yes => ih (below yes))
    have attempts : ∀ d ∈ order.digits,
        ∃ c, (attempt accept position before segment d).result = .ok c := by
      intro d mem
      obtain ⟨after, accepted, ran, tried, _⟩ := quiet d ((order.digitRange d).mp mem)
      exact ⟨_, attemptAccepted ran tried⟩
    obtain ⟨found, result, first⟩ := findSomeFirst order.digitsSorted each
    refine ⟨found, (exploreEager attempts).trans result, DigitOrder.firstCongr ?_ first⟩
    intro a
    refine ⟨fun both => both.1, fun passes => ⟨passes, ?_⟩⟩
    cases passes with
    | next choice ran accepted below => exact ⟨_, (order.digitRange _).mpr choice, rfl⟩

end Search
end StraightLine
