import Mathlib.Data.List.Forall2
import StraightLine.Proofs.Search.Progress

/-! Trials of parts of a search against each other. One part does for another when it completes
wherever the other does, with a related value and no more trials; this is kept by sequences, by
attempts made one after the other, and by scans for a first result. -/
namespace StraightLine.Progress
variable {ε α β γ δ κ : Type}

theorem trialsThen {p : Progress ε α} {a : α} (ok : p.result = .ok a)
    (next : α → Progress ε β) : (p >>= next).trials = p.trials ++ (next a).trials := by
  simp only [bind, andThen, ok]

/- One part of a search does for another: wherever the other completes, it completes with a related
value and has made no more trials. -/
def Spares (R : α → β → Prop) (p : Progress ε α) (q : Progress ε β) : Prop :=
  ∀ b, q.result = .ok b → ∃ a, p.result = .ok a ∧ R a b ∧ p.trials.length ≤ q.trials.length

theorem sparesFinished {R : α → β → Prop} {a : α} {b : β} (related : R a b) :
    Spares (ε := ε) R (pure a) (pure b) := by
  intro c done
  cases done
  exact ⟨a, rfl, related, Nat.le_refl _⟩

theorem sparesThen {R : α → β → Prop} {S : γ → δ → Prop} {p : Progress ε α} {q : Progress ε β}
    {f : α → Progress ε γ} {g : β → Progress ε δ} (first : Spares R p q)
    (later : ∀ a b, R a b → Spares S (f a) (g b)) : Spares S (p >>= f) (q >>= g) := by
  intro d done
  obtain ⟨b, doneFirst, doneLater⟩ := thenOk.mp done
  obtain ⟨a, ok, related, fewer⟩ := first b doneFirst
  obtain ⟨c, okLater, relatedLater, fewerLater⟩ := later a b related d doneLater
  refine ⟨c, (thenOfOk ok f).trans okLater, relatedLater, ?_⟩
  rw [trialsThen ok, trialsThen doneFirst, List.length_append, List.length_append]
  exact Nat.add_le_add fewer fewerLater

theorem sparesMap {R : α → β → Prop} {f : δ → Progress ε α} {g : δ → Progress ε β} {ds : List δ}
    (each : ∀ d ∈ ds, Spares R (f d) (g d)) :
    Spares (List.Forall₂ R) (ds.mapM f) (ds.mapM g) := by
  induction ds with
  | nil => exact sparesFinished .nil
  | cons d rest ih =>
    obtain ⟨first, others⟩ := List.forall_mem_cons.mp each
    rw [List.mapM_cons, List.mapM_cons]
    refine sparesThen first fun a b related => ?_
    refine sparesThen (ih others) fun as bs relatedLater => ?_
    exact sparesFinished (.cons related relatedLater)

theorem sparesFindRelated {R : α → β → Prop} {S : γ → κ → Prop} {f : α → Progress ε (Option γ)}
    {g : β → Progress ε (Option κ)} {as : List α} {bs : List β} (related : List.Forall₂ R as bs)
    (each : ∀ a b, R a b → Spares (Option.Rel S) (f a) (g b)) :
    Spares (Option.Rel S) (as.findSomeM? f) (bs.findSomeM? g) := by
  induction related with
  | nil => exact sparesFinished .none
  | cons head _ ih =>
    rw [List.findSomeM?_cons, List.findSomeM?_cons]
    refine sparesThen (each _ _ head) fun found other same => ?_
    cases same with
    | none => exact ih
    | some relatedFound => exact sparesFinished (.some relatedFound)

theorem relatedEqual : Option.Rel (α := γ) Eq = Eq := by
  funext a b
  apply propext
  constructor
  · intro related
    cases related with
    | none => rfl
    | some same => exact congrArg some same
  · intro same
    subst same
    cases a with
    | none => exact .none
    | some c => exact .some rfl

theorem sparesFind {R : α → β → Prop} {f : α → Progress ε (Option γ)}
    {g : β → Progress ε (Option γ)} {as : List α} {bs : List β} (related : List.Forall₂ R as bs)
    (each : ∀ a b, R a b → Spares Eq (f a) (g b)) :
    Spares Eq (as.findSomeM? f) (bs.findSomeM? g) := by
  rw [← relatedEqual] at each ⊢
  exact sparesFindRelated related each

theorem sparesSelf (p : Progress ε α) : Spares Eq p p :=
  fun a done => ⟨a, done, rfl, Nat.le_refl _⟩

theorem sparesEager {f : δ → Progress ε α} {g h : α → Progress ε (Option γ)}
    (each : ∀ a, Spares Eq (g a) (h a)) (ds : List δ) :
    Spares Eq (ds.findSomeM? fun d => f d >>= g) (ds.mapM f >>= fun as => as.findSomeM? h) := by
  induction ds with
  | nil => exact sparesFinished rfl
  | cons d rest ih =>
    rw [List.findSomeM?_cons, List.mapM_cons, bind_assoc, bind_assoc]
    refine sparesThen (sparesSelf (f d)) fun a b same => ?_
    subst same
    rw [bind_assoc]
    intro found done
    obtain ⟨as, made, entered⟩ := thenOk.mp done
    rw [pure_bind, List.findSomeM?_cons] at entered
    obtain ⟨first, doneFirst, later⟩ := thenOk.mp entered
    obtain ⟨entry, okFirst, same, fewer⟩ := each a first doneFirst
    subst same
    rw [trialsThen made, pure_bind, List.findSomeM?_cons, trialsThen doneFirst]
    rw [thenOfOk okFirst, trialsThen okFirst]
    cases entry with
    | some c =>
      refine ⟨found, later, rfl, ?_⟩
      simp only [List.length_append]
      omega
    | none =>
      obtain ⟨last, okRest, same, fewerRest⟩ := ih found ((thenOfOk made _).trans later)
      rw [trialsThen made] at fewerRest
      refine ⟨last, okRest, same, ?_⟩
      simp only [List.length_append] at fewerRest ⊢
      omega

/- A part that ends without a result is matched by one that ends so after as many trials. -/
def Exhausts (p q : Progress ε (Option α)) : Prop :=
  p.result = .ok none → q.result = .ok none ∧ q.trials.length = p.trials.length

theorem exhaustsEager {f : δ → Progress ε α} {g h : α → Progress ε (Option γ)}
    (each : ∀ a, Exhausts (g a) (h a)) (ds : List δ) :
    Exhausts (ds.findSomeM? fun d => f d >>= g) (ds.mapM f >>= fun as => as.findSomeM? h) := by
  induction ds with
  | nil => exact fun done => ⟨done, rfl⟩
  | cons d rest ih =>
    rw [List.findSomeM?_cons, List.mapM_cons, bind_assoc, bind_assoc]
    intro done
    obtain ⟨a, okFirst, later⟩ := thenOk.mp done
    obtain ⟨first, entered, last⟩ := thenOk.mp later
    cases first with
    | some c => cases last
    | none =>
      obtain ⟨gone, sameFirst⟩ := each a entered
      obtain ⟨goneRest, sameRest⟩ := ih last
      obtain ⟨as, made, _⟩ := thenOk.mp goneRest
      rw [thenOfOk made] at goneRest
      rw [trialsThen made] at sameRest
      rw [thenOfOk okFirst, trialsThen okFirst, trialsThen okFirst, trialsThen entered, bind_assoc,
        thenOfOk made, trialsThen made, pure_bind, List.findSomeM?_cons, thenOfOk gone,
        trialsThen gone]
      refine ⟨goneRest, ?_⟩
      simp only [List.length_append] at sameRest ⊢
      omega

end StraightLine.Progress
