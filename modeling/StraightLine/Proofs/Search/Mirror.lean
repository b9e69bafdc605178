import StraightLine.Proofs.Search.Report

/-! Searches over two lists of segments. When the same digits lead to registers that a predicate
judges alike, position by position, the two searches go the same way: they find the same digits, or
none, after as many trials. -/
namespace StraightLine.Search
variable {ε : Type} {judge : Nat → Registers → Bool} {order : DigitOrder} {schedule : Schedule}
  {position : Nat} {before others : Registers} {segment twin : Segment}
  {rest twins segments : List Segment}

def certain (judge : Nat → Registers → Bool) : Predicate ε :=
  fun position registers => .ok (judge position registers)

/- The same digits take both lists of segments through, to registers that are judged alike. -/
def Mirrors (judge : Nat → Registers → Bool) :
    Nat → Registers → List Segment → Registers → List Segment → Prop
  | _, _, [], _, [] => True
  | position, before, segment :: rest, others, twin :: twins =>
    ∀ d ∈ Interval.digit, ∃ after opposite, execute segment.instructions [d] before = .ok after ∧
      execute twin.instructions [d] others = .ok opposite ∧
      judge position after = judge position opposite ∧
      Mirrors judge (position + 1) after rest opposite twins
  | _, _, _, _, _ => False

theorem mirrorsSymm (mirrors : Mirrors judge position before segments others twins) :
    Mirrors judge position others twins before segments := by
  induction segments generalizing position before others twins with
  | nil =>
    cases twins with
    | nil => trivial
    | cons twin rest => exact mirrors
  | cons segment rest ih =>
    cases twins with
    | nil => exact mirrors
    | cons twin more =>
      intro d choice
      obtain ⟨after, opposite, ran, follows, alike, later⟩ := mirrors d choice
      exact ⟨opposite, after, follows, ran, alike.symm, ih later⟩

/- Where the first segments complete, so do their twins, and leave what is judged alike. -/
def Follows (judge : Nat → Registers → Bool) (position : Nat) (before : Registers)
    (segments : List Segment) (others : Registers) (twins : List Segment) : Prop :=
  ∀ (k : Nat) (ds : List Int) (after : Registers), k < segments.length →
    (∀ d ∈ ds, d ∈ Interval.digit) →
    execute (code (segments.take (k + 1))) ds before = .ok after →
    ∃ opposite, execute (code (twins.take (k + 1))) ds others = .ok opposite ∧
      judge (position + k) after = judge (position + k) opposite

theorem mirrorsOfFollows (slices : ∀ s ∈ segments, Slice s.instructions)
    (slicesToo : ∀ s ∈ twins, Slice s.instructions) (sameCount : segments.length = twins.length)
    (total : ∀ ds : List Int, ds.length = segments.length → (∀ d ∈ ds, d ∈ Interval.digit) →
      ∃ final, execute (code segments) ds before = .ok final)
    (follows : Follows judge position before segments others twins) :
    Mirrors judge position before segments others twins := by
  induction segments generalizing position before others twins with
  | nil =>
    cases twins with
    | nil => trivial
    | cons twin more => cases sameCount
  | cons segment rest ih =>
    cases twins with
    | nil => cases sameCount
    | cons twin more =>
      obtain ⟨slice, slicesRest⟩ := List.forall_mem_cons.mp slices
      obtain ⟨sliceToo, slicesMore⟩ := List.forall_mem_cons.mp slicesToo
      intro d choice
      obtain ⟨after, ran, totalRest⟩ := totalFirst slice total choice
      -- the segment alone, and its twin alone
      have alone : execute (code [segment]) [d] before = .ok after :=
        (executedCode slice).mpr ⟨after, ran, rfl⟩
      obtain ⟨_, aloneToo, alike⟩ := follows 0 [d] after (by simp) (by simpa using choice) alone
      obtain ⟨opposite, ranToo, last⟩ := (executedCode sliceToo).mp aloneToo
      cases last
      refine ⟨after, opposite, ran, ranToo, alike, ?_⟩
      apply ih slicesRest slicesMore (Nat.succ.inj sameCount) totalRest
      intro k ds deeper within digits run
      have joined : execute (code ((segment :: rest).take (k + 2))) (d :: ds) before = .ok deeper :=
        (executedCode slice).mpr ⟨after, ran, run⟩
      have allDigits := List.forall_mem_cons.mpr ⟨choice, digits⟩
      obtain ⟨reached, joinedToo, alikeLater⟩ := follows (k + 1) (d :: ds) deeper
        (Nat.succ_lt_succ within) allDigits joined
      obtain ⟨_, first, runToo⟩ := (executedCode sliceToo).mp joinedToo
      rw [ranToo] at first
      cases first
      rw [← Nat.add_assoc, Nat.add_right_comm] at alikeLater
      exact ⟨reached, runToo, alikeLater⟩

theorem mirrorsQuiet (mirrors : Mirrors judge position before segments others twins) :
    Quiet (ε := ε) (certain judge) position before segments := by
  induction segments generalizing position before others twins with
  | nil => trivial
  | cons segment rest ih =>
    cases twins with
    | nil => exact mirrors.elim
    | cons twin more =>
      intro d choice
      obtain ⟨after, _, ran, _, _, later⟩ := mirrors d choice
      exact ⟨after, judge position after, ran, rfl, fun _ => ih later⟩

structure Mirrored (judge : Nat → Registers → Bool) (position : Nat) (rest twins : List Segment)
    (c e : Candidate) : Prop where
  digit : c.digit = e.digit
  accepted : c.accepted = e.accepted
  later : Mirrors judge (position + 1) c.registers rest e.registers twins

theorem attemptMirrors
    (mirrors : Mirrors judge position before (segment :: rest) others (twin :: twins)) {d : Int}
    (choice : d ∈ Interval.digit) :
    Progress.Spares (Mirrored judge position rest twins)
      (attempt (ε := ε) (certain judge) position before segment d)
      (attempt (certain judge) position others twin d) := by
  obtain ⟨after, opposite, ran, follows, alike, later⟩ := mirrors d choice
  have made : (attempt (ε := ε) (certain judge) position before segment d).result = _ :=
    attemptAccepted ran rfl
  have madeToo : (attempt (ε := ε) (certain judge) position others twin d).result = _ :=
    attemptAccepted follows rfl
  intro e done
  rw [madeToo] at done
  cases done
  refine ⟨_, made, ⟨rfl, alike, later⟩, ?_⟩
  rw [attemptTrials made, attemptTrials madeToo]
  exact Nat.le_refl 1

def SameDigits (a b : Answer) : Prop := a.digits = b.digits

theorem enterMirrors {c e : Candidate} (mirrored : Mirrored judge position rest twins c e)
    (below : Progress.Spares (Option.Rel SameDigits)
      (explore (ε := ε) (certain judge) order schedule (position + 1) c.registers rest)
      (explore (certain judge) order schedule (position + 1) e.registers twins)) :
    Progress.Spares (Option.Rel SameDigits)
      (enter (ε := ε) (certain judge) order schedule position rest c)
      (enter (certain judge) order schedule position twins e) := by
  unfold enter
  rw [mirrored.accepted, mirrored.digit]
  split
  · refine Progress.sparesThen below fun a b same => ?_
    cases same with
    | none => exact Progress.sparesFinished .none
    | some digits => exact Progress.sparesFinished (.some (congrArg (List.cons e.digit) digits))
  · exact Progress.sparesFinished .none

theorem exploreMirrors (mirrors : Mirrors judge position before segments others twins) :
    Progress.Spares (Option.Rel SameDigits)
      (explore (ε := ε) (certain judge) order schedule position before segments)
      (explore (certain judge) order schedule position others twins) := by
  induction segments generalizing position before others twins with
  | nil =>
    cases twins with
    | nil =>
      rw [explore, explore]
      exact Progress.sparesFinished (.some rfl)
    | cons twin rest => exact mirrors.elim
  | cons segment rest ih =>
    cases twins with
    | nil => exact mirrors.elim
    | cons twin more =>
      have attempts (d : Int) (mem : d ∈ order.digits) :=
        attemptMirrors (ε := ε) mirrors ((order.digitRange d).mp mem)
      have enters (c e : Candidate) (mirrored : Mirrored judge position rest more c e) :
          Progress.Spares (Option.Rel SameDigits)
            (enter (ε := ε) (certain judge) order schedule position rest c)
            (enter (certain judge) order schedule position more e) :=
        enterMirrors mirrored (ih mirrored.later)
      cases schedule with
      | sequential =>
        rw [exploreSequential, exploreSequential]
        have sameDigits : List.Forall₂ (fun d e => d = e ∧ d ∈ order.digits) order.digits
            order.digits := List.forall₂_same.mpr fun d mem => ⟨rfl, mem⟩
        refine Progress.sparesFindRelated sameDigits fun d e same => ?_
        obtain ⟨rfl, mem⟩ := same
        exact Progress.sparesThen (attempts d mem) enters
      | parallel workers =>
        rw [exploreParallel, exploreParallel]
        exact Progress.sparesThen (Progress.sparesMap attempts)
          fun cs es mirrored => Progress.sparesFindRelated mirrored enters

def told (found : Found) : List Int × Nat := (found.answer.digits, found.evaluations)

theorem searchMirrors {plan : SearchPlan} (nonempty : segments ≠ []) (nonemptyToo : twins ≠ [])
    (sameCount : segments.length = twins.length)
    (mirrors : Mirrors judge 0 Registers.zero segments Registers.zero twins) :
    (search (ε := ε) plan (some (certain judge)) segments).result.map told =
      (search plan (some (certain judge)) twins).result.map told := by
  cases runnable : plan.schedule.isRunnable with
  | false => rw [searchIdle nonempty runnable, searchIdle nonemptyToo runnable]
  | true =>
    rw [searchReports nonempty runnable, searchReports nonemptyToo runnable]
    obtain ⟨found, ran, _⟩ := exploreFirst (ε := ε) plan.order plan.schedule (mirrorsQuiet mirrors)
    obtain ⟨other, ranToo, related, fewer⟩ := exploreMirrors (mirrorsSymm mirrors) _ ran
    obtain ⟨_, _, _, more⟩ := exploreMirrors mirrors _ ranToo
    have here : (explored plan (some (certain (ε := ε) judge)) segments).result = .ok found := ran
    have there : (explored plan (some (certain (ε := ε) judge)) twins).result = .ok other := ranToo
    have sameTrials : (explored plan (some (certain (ε := ε) judge)) segments).trials.length =
        (explored plan (some (certain judge)) twins).trials.length := Nat.le_antisymm more fewer
    rw [here, there, sameTrials, sameCount]
    cases related with
    | none => rfl
    | some digits =>
      exact congrArg (fun ds => Except.ok (ds, _)) digits.symm

end StraightLine.Search
