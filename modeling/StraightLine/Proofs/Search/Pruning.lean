import StraightLine.Proofs.Search.Report

/-! Pruning. A predicate may turn down more than another one, as long as what it turns down leads
nowhere; the search then finds the same answer, with no more trials. The ranges of the code that is
left to run justify this for the standard predicate. -/
namespace StraightLine.Search
variable {ε : Type} {order : DigitOrder} {schedule : Schedule} {strict loose : Predicate ε}
  {position : Nat} {before : Registers} {segment : Segment} {rest segments all : List Segment}

/- The strict predicate accepts no more, and what it turns down alone has no passing continuation. -/
def Tightens (strict loose : Predicate ε) (position : Nat) (rest : List Segment) : Prop :=
  ∀ after accepted, loose position after = .ok accepted →
    ∃ kept, strict position after = .ok kept ∧ (kept = true → accepted = true) ∧
      (accepted = true → kept = false → ∀ a, ¬Passes loose (position + 1) after rest a)

structure Narrows (loose : Predicate ε) (position : Nat) (rest : List Segment)
    (kept tried : Candidate) : Prop where
  digit : kept.digit = tried.digit
  registers : kept.registers = tried.registers
  accepted : kept.accepted = true → tried.accepted = true
  hopeless : tried.accepted = true → kept.accepted = false →
    ∀ a, ¬Passes loose (position + 1) tried.registers rest a

theorem attemptNarrows (tightens : Tightens strict loose position rest) (before : Registers)
    (segment : Segment) (d : Int) :
    Progress.Spares (Narrows loose position rest) (attempt strict position before segment d)
      (attempt loose position before segment d) := by
  intro c made
  obtain ⟨digit, ran, tried⟩ := attempted made
  obtain ⟨kept, asked, accepted, hopeless⟩ := tightens c.registers c.accepted tried
  have same := attemptAccepted ran asked
  refine ⟨_, same, ⟨digit.symm, rfl, accepted, hopeless⟩, ?_⟩
  rw [attemptTrials same, attemptTrials made]
  exact Nat.le_refl 1

theorem enterNarrows {kept tried : Candidate} (narrows : Narrows loose position rest kept tried)
    (below : ∀ after, Progress.Spares Eq (explore strict order schedule (position + 1) after rest)
      (explore loose order schedule (position + 1) after rest)) :
    Progress.Spares Eq (enter strict order schedule position rest kept)
      (enter loose order schedule position rest tried) := by
  by_cases sameVerdict : kept.accepted = tried.accepted
  · have same : kept = tried := by
      cases kept
      cases tried
      cases narrows.digit
      cases narrows.registers
      cases sameVerdict
      rfl
    rw [same]
    exact enterSpares (below tried.registers)
  · -- the loose search goes deeper here and comes back with nothing
    have turnedDown : kept.accepted = false := by
      cases keeps : kept.accepted with
      | false => rfl
      | true => exact absurd (keeps.trans (narrows.accepted keeps).symm) sameVerdict
    have acceptedTried : tried.accepted = true := by
      cases tries : tried.accepted with
      | false => exact absurd (turnedDown.trans tries.symm) sameVerdict
      | true => rfl
    intro found done
    cases found with
    | none =>
      simp only [enter, turnedDown]
      exact ⟨none, rfl, rfl, Nat.zero_le _⟩
    | some a =>
      obtain ⟨_, deeper, explored, _⟩ := entered done
      exact absurd (explorePasses explored) (narrows.hopeless acceptedTried turnedDown deeper)

theorem exploreNarrows
    (tightens : ∀ k segment rest, all.drop k = segment :: rest → Tightens strict loose k rest)
    (suffix : all.drop position = segments) :
    Progress.Spares Eq (explore strict order schedule position before segments)
      (explore loose order schedule position before segments) := by
  induction segments generalizing position before with
  | nil =>
    rw [explore, explore]
    exact Progress.sparesFinished rfl
  | cons segment rest ih =>
    have here := tightens position segment rest suffix
    have attempts := attemptNarrows here before segment
    have enters (kept tried : Candidate) (narrows : Narrows loose position rest kept tried) :=
      enterNarrows narrows
        fun _ => ih (remainingOfSuffix suffix).1
    cases schedule with
    | sequential =>
      rw [exploreSequential, exploreSequential]
      refine Progress.sparesFind (List.forall₂_same.mpr fun d _ => rfl) fun d e same => ?_
      subst same
      exact Progress.sparesThen (attempts d) enters
    | parallel workers =>
      rw [exploreParallel, exploreParallel]
      exact Progress.sparesThen (Progress.sparesMap fun d _ => attempts d)
        fun kept tried narrows => Progress.sparesFind narrows enters

theorem reachesUnpruned {plan : SearchPlan} {after : Registers}
    (reached : SearchPlan.reaches { plan with prune := true } all position after = true) :
    SearchPlan.reaches { plan with prune := false } all position after = true := by
  unfold SearchPlan.reaches at reached ⊢
  split
  · rename_i last
    rwa [if_pos last] at reached
  · rfl

theorem pruneTightens {plan : SearchPlan} (slices : ∀ s ∈ all, Slice s.instructions)
    (suffix : all.drop position = segment :: rest) :
    Tightens (ε := ε) (standard { plan with prune := true } all)
      (standard { plan with prune := false } all) position rest := by
  intro after accepted loose
  cases loose
  refine ⟨_, rfl, reachesUnpruned, ?_⟩
  intro reached turnedDown a passes
  obtain ⟨dropped, remaining⟩ := remainingOfSuffix suffix
  cases rest with
  | nil =>
    -- at the last position both predicates ask for the target itself
    have last := lastOfSuffix suffix
    unfold SearchPlan.reaches at reached turnedDown
    rw [if_pos last] at reached turnedDown
    exact absurd (reached.symm.trans turnedDown) (by simp)
  | cons second others =>
    have later : ∀ s ∈ second :: others, Slice s.instructions := by
      intro s mem
      exact slices s (List.mem_of_mem_drop (dropped ▸ mem))
    have ran := runOfPasses later passes
    have hit := passesTarget dropped passes
    have kept : SearchPlan.reaches { plan with prune := true } all position after = true :=
      reachesOfCompletion (passesDigits passes) (remaining ▸ ran) hit
    exact absurd (kept.symm.trans turnedDown) (by simp)

theorem searchPruned {p : Program} {segments : List Segment} (cut : p.segments = .ok segments)
    (plan : SearchPlan) :
    (∀ found, (search (ε := ε) { plan with prune := false } none segments).result = .ok found →
      ∃ n ≤ found.evaluations,
        (search (ε := ε) { plan with prune := true } none segments).result =
          .ok ⟨found.answer, n⟩) ∧
    (∀ length evaluations,
      (search (ε := ε) { plan with prune := false } none segments).result =
          .error (.exhausted length evaluations) →
        ∃ n ≤ evaluations, (search (ε := ε) { plan with prune := true } none segments).result =
          .error (.exhausted length n)) := by
  obtain ⟨_, _, nonempty, slices⟩ := Program.segmentsCut cut
  have spares : Progress.Spares Eq (explored (ε := ε) { plan with prune := true } none segments)
      (explored { plan with prune := false } none segments) :=
    exploreNarrows (fun _ _ _ suffix => pruneTightens slices suffix) List.drop_zero
  exact searchSpares nonempty id spares

theorem searchPrunedSigned :
    let p : Program := [.read .w, .update .add .z (.reg .w), .update .mul .z (.const (-1)),
      .read .x, .update .add .z (.reg .x)]
    let segments : List Segment := [⟨0, p.take 3⟩, ⟨1, p.drop 3⟩]
    let plan : SearchPlan := { SearchPlan.standard with order := .ascending, target := -1 }
    p.segments = .ok segments ∧
      (search (ε := Empty) { plan with prune := false } none segments).result =
        .ok ⟨⟨[2, 1], ⟨2, 1, 0, -1⟩⟩, 12⟩ ∧
      ∃ n ≤ 12, (search (ε := Empty) { plan with prune := true } none segments).result =
        .ok ⟨⟨[2, 1], ⟨2, 1, 0, -1⟩⟩, n⟩ := by
  intro p segments plan
  have cut : p.segments = .ok segments := rfl
  have done : (search (ε := Empty) { plan with prune := false } none segments).result =
      .ok ⟨⟨[2, 1], ⟨2, 1, 0, -1⟩⟩, 12⟩ := rfl
  exact ⟨cut, done, (searchPruned cut plan).1 _ done⟩

end StraightLine.Search
