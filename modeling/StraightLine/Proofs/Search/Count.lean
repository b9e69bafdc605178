import StraightLine.Proofs.Search.Reached
import StraightLine.Proofs.Search.Report

/-! How many trials a sequential search makes. It tries each string that it reaches once: all of
them when it finds nothing, else those up to the first digits of its answer. -/
namespace StraightLine.Search
variable {ε : Type} {accept : Predicate ε} {order : DigitOrder} {position : Nat}
  {before : Registers} {segment : Segment} {rest segments : List Segment}

theorem lastStrings {P : List Int → Prop} {d : Int} {ds : List Int} {a : Answer}
    (earlier : ∀ e ∈ ds, order.Earlier d e) (starts : a.digits.head? = some d) :
    {p | P p ∧ order.Within (some a) p ∧ ∃ e ∈ d :: ds, p.head? = some e} =
      {p | P p ∧ order.Within (some a) p ∧ p.head? = some d} := by
  have beyond : ∀ p, order.Within (some a) p → ∀ e ∈ ds, p.head? ≠ some e :=
    fun p within e mem head =>
      DigitOrder.upToLater (earlier e mem) head starts (within a rfl)
  ext p
  refine and_congr_right fun _ => and_congr_right fun within => ?_
  simpa using fun e mem head => absurd head (beyond p within e mem)

theorem passedStrings {P : List Int → Prop} {d : Int} {ds : List Int} {found : Option Answer}
    (earlier : ∀ e ∈ ds, order.Earlier d e)
    (starts : ∀ a, found = some a → ∃ e ∈ ds, a.digits.head? = some e) :
    {p | P p ∧ order.Within none p ∧ p.head? = some d}.encard +
        {p | P p ∧ order.Within found p ∧ ∃ e ∈ ds, p.head? = some e}.encard =
      {p | P p ∧ order.Within found p ∧ ∃ e ∈ d :: ds, p.head? = some e}.encard := by
  have before : ∀ p, p.head? = some d → order.Within found p := by
    intro p head a answered
    obtain ⟨e, mem, same⟩ := starts a answered
    exact DigitOrder.upToEarlier (earlier e mem) head same
  have apart : Disjoint {p | P p ∧ order.Within none p ∧ p.head? = some d}
      {p | P p ∧ order.Within found p ∧ ∃ e ∈ ds, p.head? = some e} := by
    rw [Set.disjoint_left]
    rintro p ⟨_, _, head⟩ ⟨_, _, e, mem, other⟩
    rw [head] at other
    cases other
    exact (DigitOrder.earlierApart (earlier d mem)).1 rfl
  rw [← Set.encard_union_eq apart]
  congr 1
  ext p
  constructor
  · rintro (⟨holds, _, head⟩ | ⟨holds, within, e, mem, head⟩)
    · exact ⟨holds, before p head, d, by simp, head⟩
    · exact ⟨holds, within, e, List.mem_cons_of_mem d mem, head⟩
  · rintro ⟨holds, within, e, mem, head⟩
    rcases List.mem_cons.mp mem with rfl | later
    · exact .inl ⟨holds, DigitOrder.withinNone p, head⟩
    · exact .inr ⟨holds, within, e, later, head⟩

theorem findCount {P : List Int → Prop} {f : Int → Progress (SearchError ε) (Option Answer)}
    {ds : List Int} {found : Option Answer} (sorted : ds.Pairwise order.Earlier)
    (starts : ∀ d ∈ ds, ∀ a, (f d).result = .ok (some a) → a.digits.head? = some d)
    (each : ∀ d ∈ ds, ∀ found, (f d).result = .ok found →
      {p | P p ∧ order.Within found p ∧ p.head? = some d}.encard = (f d).trials.length)
    (done : (ds.findSomeM? f).result = .ok found) :
    {p | P p ∧ order.Within found p ∧ ∃ d ∈ ds, p.head? = some d}.encard =
      (ds.findSomeM? f).trials.length := by
  induction ds with
  | nil => simp [List.findSomeM?, pure, Progress.finished]
  | cons d rest ih =>
    obtain ⟨earlier, sortedRest⟩ := List.pairwise_cons.mp sorted
    obtain ⟨startsHere, startsRest⟩ := List.forall_mem_cons.mp starts
    obtain ⟨eachHere, eachRest⟩ := List.forall_mem_cons.mp each
    rw [List.findSomeM?_cons] at done ⊢
    obtain ⟨first, here, later⟩ := Progress.thenOk.mp done
    rw [Progress.trialsThen here, List.length_append, Nat.cast_add, ← eachHere first here]
    cases first with
    | some a =>
      cases later
      rw [lastStrings earlier (startsHere a here)]
      exact (add_zero _).symm
    | none =>
      have startsLater : ∀ a, found = some a → ∃ e ∈ rest, a.digits.head? = some e := by
        rintro a rfl
        obtain ⟨e, mem, same⟩ := Progress.findMember later
        exact ⟨e, mem, startsRest e mem a same⟩
      rw [← passedStrings earlier startsLater, ih sortedRest startsRest eachRest later]

theorem digitStarts {d : Int} {a : Answer} (found : (attempt accept position before segment d >>=
      enter accept order .sequential position rest).result = .ok (some a)) :
    a.digits.head? = some d := by
  obtain ⟨c, made, deeper⟩ := Progress.thenOk.mp found
  obtain ⟨rfl, _⟩ := attempted made
  obtain ⟨_, _, _, rfl⟩ := entered deeper
  rfl

theorem rejectedStrings {d : Int} {after : Registers} (choice : d ∈ Interval.digit)
    (ran : execute segment.instructions [d] before = .ok after)
    (rejected : accept position after = .ok false) :
    {p | Reached accept position before (segment :: rest) p ∧ order.Within none p ∧
      p.head? = some d} = {[d]} := by
  ext p
  constructor
  · rintro ⟨reached, _, head⟩
    obtain ⟨q, rfl⟩ := List.head?_eq_some_iff.mp head
    rcases (reachedCons.mp reached).2 with rfl | ⟨again, ranAgain, accepted, _⟩
    · rfl
    · cases ran.symm.trans ranAgain
      cases rejected.symm.trans accepted
  · rintro rfl
    exact ⟨reachedCons.mpr ⟨choice, .inl rfl⟩, DigitOrder.withinNone _, rfl⟩

theorem acceptedStrings {d : Int} {after : Registers} {below : Option Answer}
    (choice : d ∈ Interval.digit) (ran : execute segment.instructions [d] before = .ok after)
    (accepted : accept position after = .ok true) :
    {p | Reached accept position before (segment :: rest) p ∧
        order.Within (below.map (Answer.prepend d)) p ∧ p.head? = some d} =
      insert [d] (List.cons d ''
        {p | Reached accept (position + 1) after rest p ∧ order.Within below p}) := by
  ext p
  constructor
  · rintro ⟨reached, within, head⟩
    obtain ⟨q, rfl⟩ := List.head?_eq_some_iff.mp head
    rcases (reachedCons.mp reached).2 with rfl | ⟨again, ranAgain, _, further⟩
    · exact .inl rfl
    · cases ran.symm.trans ranAgain
      exact .inr ⟨q, ⟨further, DigitOrder.withinPrepend.mp within⟩, rfl⟩
  · rintro (rfl | ⟨q, ⟨further, within⟩, rfl⟩)
    · exact ⟨reachedCons.mpr ⟨choice, .inl rfl⟩,
        DigitOrder.withinPrepend.mpr fun _ _ => DigitOrder.upToNil _, rfl⟩
    · exact ⟨reachedCons.mpr ⟨choice, .inr ⟨after, ran, accepted, further⟩⟩,
        DigitOrder.withinPrepend.mpr within, rfl⟩

theorem digitTrials {d : Int} {found : Option Answer} (choice : d ∈ Interval.digit)
    (below : ∀ after found,
      (explore accept order .sequential (position + 1) after rest).result = .ok found →
        {p | Reached accept (position + 1) after rest p ∧ order.Within found p}.encard =
          (explore accept order .sequential (position + 1) after rest).trials.length)
    (done : (attempt accept position before segment d >>=
      enter accept order .sequential position rest).result = .ok found) :
    {p | Reached accept position before (segment :: rest) p ∧ order.Within found p ∧
        p.head? = some d}.encard =
      (attempt accept position before segment d >>=
        enter accept order .sequential position rest).trials.length := by
  obtain ⟨c, made, entered⟩ := Progress.thenOk.mp done
  obtain ⟨rfl, ran, tried⟩ := attempted made
  rw [Progress.trialsThen made, attemptTrials made, List.singleton_append, List.length_cons]
  obtain ⟨digit, after, accepted⟩ := c
  cases accepted with
  | false =>
    cases entered
    rw [rejectedStrings choice ran tried]
    simp [enter, pure, Progress.finished]
  | true =>
    simp only [enter, if_pos] at entered ⊢
    obtain ⟨deeper, explored, last⟩ := Progress.thenOk.mp entered
    cases last
    have apart : [digit] ∉ List.cons digit ''
        {p | Reached accept (position + 1) after rest p ∧ order.Within deeper p} := by
      rintro ⟨q, ⟨further, _⟩, same⟩
      exact further.nonempty (List.cons.inj same).2
    rw [acceptedStrings choice ran tried, Set.encard_insert_of_notMem apart,
      List.cons_injective.encard_image, below after deeper explored, Progress.trialsThen explored]
    simp [pure, Progress.finished]

theorem exploreCount {found : Option Answer}
    (done : (explore accept order .sequential position before segments).result = .ok found) :
    {p | Reached accept position before segments p ∧ order.Within found p}.encard =
      (explore accept order .sequential position before segments).trials.length := by
  induction segments generalizing position before found with
  | nil =>
    have nothing : {p | Reached accept position before [] p ∧ order.Within found p} = ∅ := by
      ext p
      refine iff_of_false (fun both => ?_) id
      exact both.1.nonempty (List.eq_nil_of_length_eq_zero (Nat.le_zero.mp both.1.fits))
    rw [nothing, explore]
    simp [pure, Progress.finished]
  | cons segment rest ih =>
    rw [exploreSequential] at done ⊢
    rw [← findCount (P := Reached accept position before (segment :: rest)) order.digitsSorted
      (fun _ _ _ => digitStarts)
      (fun d mem _ => digitTrials ((order.digitRange d).mp mem) fun _ _ => ih) done]
    congr 1
    ext p
    refine and_congr_right fun reached => ⟨fun within => ⟨within, ?_⟩, And.left⟩
    obtain ⟨d, q, rfl⟩ := List.exists_cons_of_ne_nil reached.nonempty
    exact ⟨d, (order.digitRange d).mpr (reached.digits d (by simp)), rfl⟩

theorem searchCounts (plan : SearchPlan) (custom : Option (Predicate ε)) {segments : List Segment}
    (nonempty : segments ≠ []) :
    (∀ found,
      (search { plan with schedule := .sequential } custom segments).result = .ok found →
        {p | Reached (predicate plan segments custom) 0 Registers.zero segments p ∧
          plan.order.UpTo found.answer.digits p}.encard = found.evaluations) ∧
    (∀ length evaluations,
      (search { plan with schedule := .sequential } custom segments).result =
          .error (.exhausted length evaluations) →
        ∃ accepted : Nat,
          {q | Accepted (predicate plan segments custom) 0 Registers.zero segments q ∧
            q.length < segments.length}.encard = accepted ∧
          length = segments.length ∧ evaluations = 9 * accepted ∧
          ∀ describe, (SearchError.exhausted length evaluations : SearchError ε).message describe =
            .ok s!"no {length}-digit input is accepted (after {9 * accepted} segment runs)") := by
  have reported := searchScheduled plan custom .sequential nonempty rfl
  rw [reported]
  constructor
  · intro found done
    obtain ⟨explored, count⟩ := reportFound.mp done
    rw [count, ← exploreCount explored]
    simp [DigitOrder.Within]
  · intro length evaluations done
    obtain ⟨explored, rfl, count⟩ := (reportExhausted fun _ => exploreRaises).mp done
    have total : (evaluations : ℕ∞) =
        9 * {q | Accepted (predicate plan segments custom) 0 Registers.zero segments q ∧
          q.length < segments.length}.encard := by
      rw [count, ← exploreCount explored, ← reachedCount]
      simp [DigitOrder.Within]
    have finite : {q | Accepted (predicate plan segments custom) 0 Registers.zero segments q ∧
        q.length < segments.length}.encard ≠ ⊤ := by
      intro infinite
      simp [infinite] at total
    obtain ⟨accepted, counted⟩ := ENat.ne_top_iff_exists.mp finite
    rw [← counted] at total ⊢
    have same : evaluations = 9 * accepted := by exact_mod_cast total
    exact ⟨accepted, rfl, rfl, same, fun _ => by rw [same]; rfl⟩

theorem searchCountsBelowSeven :
    let segments : List Segment := [⟨0, [.read .w]⟩, ⟨1, [.read .x]⟩]
    let accept (last : Int) : Predicate Empty := fun position registers =>
      .ok (if position = 0 then registers.w ≤ 7 else registers.w ≤ 6 ∧ registers.x = last)
    {p | Reached (accept 8) 0 Registers.zero segments p ∧
        DigitOrder.descending.UpTo [6, 8] p}.encard = 15 ∧
      {q | Accepted (accept 0) 0 Registers.zero segments q ∧ q.length < 2}.encard = 8 ∧
      ∃ e, (search SearchPlan.standard (some (accept 0)) segments).result = .error e ∧
        ∀ describe, e.message describe =
          .ok "no 2-digit input is accepted (after 72 segment runs)" := by
  intro segments accept
  have nonempty : segments ≠ [] := by simp [segments]
  have found : (search SearchPlan.standard (some (accept 8)) segments).result =
      .ok ⟨⟨[6, 8], ⟨6, 8, 0, 0⟩⟩, 15⟩ := rfl
  have exhausted : (search SearchPlan.standard (some (accept 0)) segments).result =
      .error (.exhausted 2 72) := rfl
  obtain ⟨accepted, counted, _, total, message⟩ :=
    (searchCounts SearchPlan.standard (some (accept 0)) nonempty).2 2 72 exhausted
  obtain rfl : accepted = 8 := by omega
  have said : s!"no {2}-digit input is accepted (after {9 * 8} segment runs)" =
      "no 2-digit input is accepted (after 72 segment runs)" := by decide +kernel
  exact ⟨(searchCounts SearchPlan.standard (some (accept 8)) nonempty).1 _ found, counted,
    _, exhausted, fun describe => (message describe).trans (congrArg Except.ok said)⟩

end StraightLine.Search
