import StraightLine.Proofs.Search.Report

/-! Backtracking against enumeration. A sequential search comes to what a scan of all full digit
sequences comes to, in lexicographic order, when each one is run from the start up to its end, its
first rejection or its first error. The two part where the predicate raises the end of an iteration:
a search turns that into an error of another kind. -/
namespace StraightLine

section
variable {ε α β γ : Type}

theorem findAppend (f : α → Except ε (Option β)) (xs ys : List α) :
    (xs ++ ys).findSomeM? f = xs.findSomeM? f >>= fun found =>
      match found with
      | some b => .ok (some b)
      | none => ys.findSomeM? f := by
  induction xs with
  | nil => rfl
  | cons x rest ih =>
    rw [List.cons_append, List.findSomeM?_cons, List.findSomeM?_cons, ih]
    cases f x with
    | error e => rfl
    | ok found => cases found <;> rfl

theorem findGrouped (f : β → Except ε (Option γ)) (group : α → List β) (xs : List α) :
    (xs.flatMap group).findSomeM? f = xs.findSomeM? fun x => (group x).findSomeM? f := by
  induction xs with
  | nil => rfl
  | cons x rest ih =>
    rw [List.flatMap_cons, findAppend, List.findSomeM?_cons, ih]
    rfl

theorem findMapped (f : β → Except ε (Option γ)) (g : α → β) (xs : List α) :
    (xs.map g).findSomeM? f = xs.findSomeM? fun x => f (g x) := by
  induction xs with
  | nil => rfl
  | cons x rest ih => rw [List.map_cons, List.findSomeM?_cons, List.findSomeM?_cons, ih]

theorem findAll {f : α → Except ε (Option β)} {xs : List α} {result : Except ε (Option β)}
    (nonempty : xs ≠ []) (ends : ∀ b, result ≠ .ok (some b)) (each : ∀ x ∈ xs, f x = result) :
    xs.findSomeM? f = result := by
  induction xs with
  | nil => exact absurd rfl nonempty
  | cons x rest ih =>
    rw [List.findSomeM?_cons, each x (by simp)]
    cases result with
    | error e => rfl
    | ok found =>
      cases found with
      | some b => exact absurd rfl (ends b)
      | none =>
        cases rest with
        | nil => rfl
        | cons y ys => exact ih (by simp) (fun z later => each z (List.mem_cons_of_mem x later))

theorem findRaised {κ : Type} (f : α → Except ε (Option β)) (g : ε → κ) (xs : List α) :
    xs.findSomeM? (fun x => (f x).mapError g) = (xs.findSomeM? f).mapError g := by
  induction xs with
  | nil => rfl
  | cons x rest ih =>
    rw [List.findSomeM?_cons, List.findSomeM?_cons, ih]
    cases f x with
    | error e => rfl
    | ok found => cases found <;> rfl

theorem findThrough (f : α → Except ε (Option β)) (g : β → γ) (xs : List α) :
    xs.findSomeM? (fun x => (f x).map (Option.map g)) = (xs.findSomeM? f).map (Option.map g) := by
  induction xs with
  | nil => rfl
  | cons x rest ih =>
    rw [List.findSomeM?_cons, List.findSomeM?_cons]
    cases f x with
    | error e => rfl
    | ok found =>
      cases found with
      | none => exact ih
      | some b => rfl

end

namespace DigitOrder

def sequences (order : DigitOrder) : Nat → List (List Int)
  | 0 => [[]]
  | n + 1 => order.digits.flatMap fun d => (order.sequences n).map (List.cons d)

theorem sequencesListed (order : DigitOrder) (n : Nat) (ds : List Int) :
    ds ∈ order.sequences n ↔ ds.length = n ∧ ∀ d ∈ ds, 1 ≤ d ∧ d ≤ 9 := by
  induction n generalizing ds with
  | zero =>
    constructor
    · intro mem
      cases List.mem_singleton.mp mem
      exact ⟨rfl, by simp⟩
    · intro all
      exact List.mem_singleton.mpr (List.length_eq_zero_iff.mp all.1)
  | succ n ih =>
    simp only [sequences, List.mem_flatMap, List.mem_map]
    constructor
    · intro mem
      obtain ⟨d, choice, tail, listed, rfl⟩ := mem
      obtain ⟨length, digits⟩ := (ih tail).mp listed
      exact ⟨congrArg Nat.succ length,
        List.forall_mem_cons.mpr ⟨(order.digitRange d).mp choice, digits⟩⟩
    · intro all
      obtain ⟨length, digits⟩ := all
      cases ds with
      | nil => cases length
      | cons d tail =>
        obtain ⟨choice, later⟩ := List.forall_mem_cons.mp digits
        exact ⟨d, (order.digitRange d).mpr choice, tail,
          (ih tail).mpr ⟨Nat.succ.inj length, later⟩, rfl⟩

theorem sequencesSorted (order : DigitOrder) (n : Nat) :
    (order.sequences n).Pairwise (List.Lex order.Earlier) := by
  induction n with
  | zero => exact List.pairwise_singleton _ _
  | succ n ih =>
    rw [sequences, List.pairwise_flatMap]
    constructor
    · intro d _
      exact List.pairwise_map.mpr (ih.imp List.Lex.cons)
    · refine order.digitsSorted.imp fun earlier => ?_
      intro as first bs second
      obtain ⟨_, _, rfl⟩ := List.mem_map.mp first
      obtain ⟨_, _, rfl⟩ := List.mem_map.mp second
      exact .rel earlier

theorem sequencesExist (order : DigitOrder) (n : Nat) : order.sequences n ≠ [] := by
  have ones : ∀ d ∈ List.replicate n (1 : Int), 1 ≤ d ∧ d ≤ 9 := by
    intro d mem
    rw [List.eq_of_mem_replicate mem]
    decide
  exact List.ne_nil_of_mem ((order.sequencesListed n _).mpr ⟨List.length_replicate, ones⟩)

end DigitOrder

/- What a scan of digit sequences fails with: a fault of a run, or what the predicate raised. -/
inductive ScanError (ε : Type)
  | crashed (fault : Fault)
  | predicate (reason : PredicateError ε)
  deriving DecidableEq, Repr

namespace ScanError
variable {ε : Type}

def kind (sort : ε → ErrorKind) : ScanError ε → ErrorKind
  | .crashed fault => fault.kind
  | .predicate reason => reason.kind sort

def message (describe : ε → String) : ScanError ε → Except Text.Overlong String
  | .crashed fault => fault.message
  | .predicate reason => .ok (reason.message describe)

def surfaced : ScanError ε → SearchError ε
  | .crashed fault => .crashed fault
  | .predicate reason => .ofPredicate reason

theorem surfacedAlike {e : ScanError ε} (other : ∀ text, e ≠ .predicate (.iterationEnd text))
    (sort : ε → ErrorKind) (describe : ε → String) :
    e.surfaced.kind sort = e.kind sort ∧ e.surfaced.message describe = e.message describe := by
  cases e with
  | crashed fault => exact ⟨rfl, rfl⟩
  | predicate reason =>
    cases reason with
    | iterationEnd text => exact absurd rfl (other text)
    | exhausted text => exact ⟨rfl, rfl⟩
    | other reason => exact ⟨rfl, rfl⟩

end ScanError

namespace Search
variable {ε : Type}

/- One sequence on its own, from its first digit to the first position that does not accept it. -/
def check (accept : Predicate ε) :
    Nat → Registers → List Segment → List Int → Except (ScanError ε) (Option Registers)
  | position, before, segment :: rest, d :: ds =>
    match execute segment.instructions [d] before with
    | .error crash => .error (.crashed crash.fault)
    | .ok after =>
      match accept position after with
      | .error reason => .error (.predicate reason)
      | .ok false => .ok none
      | .ok true => check accept (position + 1) after rest ds
  | _, registers, _, _ => .ok (some registers)

def judge (accept : Predicate ε) (position : Nat) (before : Registers) (segments : List Segment)
    (ds : List Int) : Except (ScanError ε) (Option Answer) :=
  (check accept position before segments ds).map (Option.map (Answer.mk ds))

def enumerate (accept : Predicate ε) (order : DigitOrder) (segments : List Segment) :
    Except (ScanError ε) (Option Answer) :=
  (order.sequences segments.length).findSomeM? (judge accept 0 Registers.zero segments)

variable {accept : Predicate ε} {order : DigitOrder} {position : Nat} {before : Registers}
  {segment : Segment} {rest : List Segment}

theorem judgeCrashed {d : Int} {crash : Crash}
    (failed : execute segment.instructions [d] before = .error crash) (ds : List Int) :
    judge accept position before (segment :: rest) (d :: ds) = .error (.crashed crash.fault) := by
  simp only [judge, check, failed]
  rfl

theorem judgeRaised {d : Int} {after : Registers} {reason : PredicateError ε}
    (ran : execute segment.instructions [d] before = .ok after)
    (raised : accept position after = .error reason) (ds : List Int) :
    judge accept position before (segment :: rest) (d :: ds) = .error (.predicate reason) := by
  simp only [judge, check, ran, raised]
  rfl

theorem judgeRejected {d : Int} {after : Registers}
    (ran : execute segment.instructions [d] before = .ok after)
    (rejected : accept position after = .ok false) (ds : List Int) :
    judge accept position before (segment :: rest) (d :: ds) = .ok none := by
  simp only [judge, check, ran, rejected]
  rfl

theorem judgeAccepted {d : Int} {after : Registers}
    (ran : execute segment.instructions [d] before = .ok after)
    (accepted : accept position after = .ok true) (ds : List Int) :
    judge accept position before (segment :: rest) (d :: ds) =
      (judge accept (position + 1) after rest ds).map (Option.map (Answer.prepend d)) := by
  simp only [judge, check, ran, accepted]
  cases check accept (position + 1) after rest ds with
  | error e => rfl
  | ok final => cases final <;> rfl

theorem judgeDigit (d : Int)
    (below : ∀ after, (explore accept order .sequential (position + 1) after rest).result =
      ((order.sequences rest.length).findSomeM? (judge accept (position + 1) after rest)).mapError
        ScanError.surfaced) :
    (((order.sequences rest.length).map (List.cons d)).findSomeM?
        (judge accept position before (segment :: rest))).mapError ScanError.surfaced =
      (attempt accept position before segment d >>=
        enter accept order .sequential position rest).result := by
  have exist := order.sequencesExist rest.length
  rw [findMapped]
  cases ran : execute segment.instructions [d] before with
  | error crash =>
    rw [Progress.thenOfError (attemptCrashed ran),
      findAll exist (by simp) (fun ds _ => judgeCrashed ran ds)]
    rfl
  | ok after =>
    cases tried : accept position after with
    | error reason =>
      rw [Progress.thenOfError (attemptRaised ran tried),
        findAll exist (by simp) (fun ds _ => judgeRaised ran tried ds)]
      rfl
    | ok accepted =>
      rw [Progress.thenOfOk (attemptAccepted ran tried)]
      cases accepted with
      | false =>
        rw [findAll exist (by simp) (fun ds _ => judgeRejected ran tried ds)]
        rfl
      | true =>
        simp only [judgeAccepted ran tried, findThrough]
        simp only [enter, if_pos]
        rw [Progress.resultThen, below]
        cases (order.sequences rest.length).findSomeM? (judge accept (position + 1) after rest) <;>
          rfl

theorem exploreEnumerates (accept : Predicate ε) (order : DigitOrder) (position : Nat)
    (before : Registers) (segments : List Segment) :
    (explore accept order .sequential position before segments).result =
      ((order.sequences segments.length).findSomeM?
        (judge accept position before segments)).mapError ScanError.surfaced := by
  induction segments generalizing position before with
  | nil => rw [explore]; rfl
  | cons segment rest ih =>
    rw [exploreSequential, Progress.resultFind, List.length_cons, DigitOrder.sequences, findGrouped,
      ← findRaised]
    congr 1
    funext d
    exact (judgeDigit d (ih (position + 1))).symm

theorem searchEnumeratesInterrupted :
    let segments : List Segment := [⟨0, [.read .w]⟩]
    let accept : Predicate Empty := fun _ _ => .error (.iterationEnd "")
    ∃ scanned searched,
      enumerate accept .descending segments = .error scanned ∧
      (search SearchPlan.standard (some accept) segments).result = .error searched ∧
      scanned.kind Empty.elim = .iterationEnd ∧ searched.kind Empty.elim = .runtime ∧
      searched.message Empty.elim = .ok "generator raised StopIteration" :=
  ⟨.predicate (.iterationEnd ""), .interrupted, rfl, rfl, rfl, rfl, rfl⟩

theorem searchEnumerates (plan : SearchPlan) (custom : Option (Predicate ε))
    {segments : List Segment} (nonempty : segments ≠ []) :
    (∀ ds, ds ∈ plan.order.sequences segments.length ↔
      ds.length = segments.length ∧ ∀ d ∈ ds, 1 ≤ d ∧ d ≤ 9) ∧
    (plan.order.sequences segments.length).Pairwise (List.Lex plan.order.Earlier) ∧
    (∃ n, (search { plan with schedule := .sequential } custom segments).result =
      (enumerate (predicate plan segments custom) plan.order segments).mapError
        ScanError.surfaced >>= report segments.length n) ∧
    ∀ (e : ScanError ε) (sort : ε → ErrorKind) (describe : ε → String),
      ((∀ text, e ≠ .predicate (.iterationEnd text)) →
        e.surfaced.kind sort = e.kind sort ∧ e.surfaced.message describe = e.message describe) ∧
      ∀ text, e = .predicate (.iterationEnd text) →
        e.surfaced.kind sort = .runtime ∧
          e.surfaced.message describe = .ok "generator raised StopIteration" := by
  have reported := searchScheduled plan custom .sequential nonempty rfl
  rw [exploreEnumerates] at reported
  refine ⟨plan.order.sequencesListed _, plan.order.sequencesSorted _, ⟨_, reported⟩, ?_⟩
  intro e sort describe
  refine ⟨fun other => ScanError.surfacedAlike other sort describe, ?_⟩
  rintro text rfl
  exact ⟨rfl, rfl⟩

theorem searchEnumeratesCrash :
    let segments : List Segment := [⟨0, [.read .w]⟩,
      ⟨1, [.read .x, .update .add .x (.const (-5)), .update .div .w (.reg .x)]⟩]
    let accept : Predicate Empty := fun position registers =>
      .ok (if position = 0 then registers.w ≤ 8 else registers.w = 3)
    (search SearchPlan.standard (some accept) segments).result =
      .error (.crashed (.divisionByZero 8)) := by
  intro segments accept
  have scanned : enumerate accept .descending segments = .error (.crashed (.divisionByZero 8)) := by
    rfl
  have nonempty : segments ≠ [] := by simp [segments]
  obtain ⟨_, _, ⟨n, same⟩, _⟩ := searchEnumerates SearchPlan.standard (some accept) nonempty
  exact same.trans (congrArg (fun scan : Except (ScanError Empty) (Option Answer) =>
    scan.mapError ScanError.surfaced >>= report segments.length n) scanned)

end Search
end StraightLine
