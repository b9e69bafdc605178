import StraightLine.Proofs.Search.Exploration

/-! Expanded positions. A parallel search expands a position when it tries the nine digits on the
registers at hand. Counting the expansions leaves the search as it is, and a search that comes to
an end has made nine trials for each of them. -/
namespace StraightLine.Search
variable {ε α β : Type}

abbrev Counting (ε α : Type) := StateT Nat (Progress (SearchError ε)) α

def exploreCounting (accept : Predicate ε) (order : DigitOrder) :
    Nat → Registers → List Segment → Counting ε (Option Answer)
  | _, registers, [] => pure (some ⟨[], registers⟩)
  | position, registers, segment :: rest => do
    modify (· + 1)
    let candidates ← StateT.lift (order.digits.mapM (attempt accept position registers segment))
    candidates.findSomeM? fun c =>
      if c.accepted then do
        let below ← exploreCounting accept order (position + 1) c.registers rest
        return below.map (Answer.prepend c.digit)
      else pure none

/- Without the count, the counting part is the other one. -/
def Erases (x : Counting ε α) (p : Progress (SearchError ε) α) : Prop :=
  ∀ k, Prod.fst <$> x.run k = p

theorem erasesPure (a : α) : Erases (ε := ε) (pure a) (pure a) := fun _ => rfl

theorem erasesThen {x : Counting ε α} {p : Progress (SearchError ε) α} {f : α → Counting ε β}
    {g : α → Progress (SearchError ε) β} (first : Erases x p) (later : ∀ a, Erases (f a) (g a)) :
    Erases (x >>= f) (p >>= g) := by
  intro k
  rw [← first k, StateT.run_bind, map_bind, bind_map_left]
  congr 1
  funext counted
  exact later counted.1 counted.2

theorem erasesFind {f : α → Counting ε (Option β)}
    {g : α → Progress (SearchError ε) (Option β)} (each : ∀ a, Erases (f a) (g a))
    (as : List α) : Erases (as.findSomeM? f) (as.findSomeM? g) := by
  induction as with
  | nil => exact erasesPure none
  | cons a rest ih =>
    rw [List.findSomeM?_cons, List.findSomeM?_cons]
    refine erasesThen (each a) fun found => ?_
    cases found with
    | none => exact ih
    | some b => exact erasesPure (some b)

theorem exploreErased (accept : Predicate ε) (order : DigitOrder) (workers : Option Int)
    (position : Nat) (before : Registers) (segments : List Segment) :
    Erases (exploreCounting accept order position before segments)
      (explore accept order (.parallel workers) position before segments) := by
  induction segments generalizing position before with
  | nil =>
    rw [explore]
    exact erasesPure _
  | cons segment rest ih =>
    rw [exploreParallel, exploreCounting]
    intro k
    refine erasesThen (fun n => ?_) (fun candidates => ?_) (k + 1)
    · simp [StateT.run, StateT.lift]
    · refine erasesFind (fun c => ?_) candidates
      unfold enter
      split
      · exact erasesThen (ih (position + 1) c.registers) fun below => erasesPure _
      · exact erasesPure none

def Ninefold (x : Counting ε α) : Prop :=
  ∀ k a n, (x.run k).result = .ok (a, n) → (x.run k).trials.length + 9 * k = 9 * n

theorem ninefoldPure (a : α) : Ninefold (ε := ε) (pure a) := by
  intro k b n done
  cases done
  exact Nat.zero_add _

theorem ninefoldThen {x : Counting ε α} {f : α → Counting ε β} (first : Ninefold x)
    (later : ∀ a, Ninefold (f a)) : Ninefold (x >>= f) := by
  intro k b n done
  rw [StateT.run_bind] at done ⊢
  obtain ⟨counted, ok, last⟩ := Progress.thenOk.mp done
  have countFirst := first k counted.1 counted.2 ok
  have countLater := later counted.1 counted.2 b n last
  rw [Progress.trialsThen ok, List.length_append]
  omega

theorem ninefoldFind {f : α → Counting ε (Option β)} (each : ∀ a, Ninefold (f a))
    (as : List α) : Ninefold (as.findSomeM? f) := by
  induction as with
  | nil => exact ninefoldPure none
  | cons a rest ih =>
    rw [List.findSomeM?_cons]
    refine ninefoldThen (each a) fun found => ?_
    cases found with
    | none => exact ih
    | some b => exact ninefoldPure (some b)

theorem attemptsTrials {accept : Predicate ε} {position : Nat} {before : Registers}
    {segment : Segment} {ds : List Int} {cs : List Candidate}
    (made : (ds.mapM (attempt accept position before segment)).result = .ok cs) :
    (ds.mapM (attempt accept position before segment)).trials.length = ds.length := by
  induction ds generalizing cs with
  | nil => rfl
  | cons d rest ih =>
    rw [List.mapM_cons] at made ⊢
    obtain ⟨c, first, others⟩ := Progress.thenOk.mp made
    obtain ⟨tail, later, _⟩ := Progress.thenOk.mp others
    rw [Progress.trialsThen first, Progress.trialsThen later, attemptTrials first]
    simp only [List.length_append, ih later]
    exact Nat.add_comm 1 rest.length

theorem digitCount (order : DigitOrder) : order.digits.length = 9 := by cases order <;> rfl

theorem expansionNinefold (accept : Predicate ε) (order : DigitOrder) (position : Nat)
    (before : Registers) (segment : Segment) : Ninefold (do
      modify (· + 1)
      StateT.lift (order.digits.mapM (attempt accept position before segment))) := by
  intro k candidates n done
  change (order.digits.mapM (attempt accept position before segment) >>= fun all =>
    pure (all, k + 1)).result = _ at done
  obtain ⟨all, made, last⟩ := Progress.thenOk.mp done
  cases last
  change (order.digits.mapM (attempt accept position before segment) >>= fun all =>
    pure (all, k + 1)).trials.length + _ = _
  rw [Progress.trialsThen made, List.length_append, attemptsTrials made, digitCount]
  change 9 + 0 + 9 * k = 9 * (k + 1)
  omega

theorem exploreNinefold (accept : Predicate ε) (order : DigitOrder) (position : Nat)
    (before : Registers) (segments : List Segment) :
    Ninefold (exploreCounting accept order position before segments) := by
  induction segments generalizing position before with
  | nil => exact ninefoldPure _
  | cons segment rest ih =>
    rw [exploreCounting, ← bind_assoc]
    refine ninefoldThen (expansionNinefold accept order position before segment) ?_
    intro candidates
    refine ninefoldFind (fun c => ?_) candidates
    split
    · exact ninefoldThen (ih (position + 1) c.registers) fun below => ninefoldPure _
    · exact ninefoldPure none

theorem exploreExpansions {accept : Predicate ε} {order : DigitOrder} {workers : Option Int}
    {position : Nat} {before : Registers} {segments : List Segment} {found : Option Answer}
    (done : (explore accept order (.parallel workers) position before segments).result =
      .ok found) :
    ∃ n, ((exploreCounting accept order position before segments).run 0).result = .ok (found, n) ∧
      (explore accept order (.parallel workers) position before segments).trials.length = 9 * n := by
  have erased := exploreErased accept order workers position before segments 0
  rw [map_eq_pure_bind] at erased
  rw [← erased] at done ⊢
  obtain ⟨counted, ok, last⟩ := Progress.thenOk.mp done
  cases last
  refine ⟨counted.2, ok, ?_⟩
  rw [Progress.trialsThen ok, List.length_append]
  exact exploreNinefold accept order position before segments 0 counted.1 counted.2 ok

end StraightLine.Search
