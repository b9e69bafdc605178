import StraightLine.Search.Progress

/-! Results of parts of a search in sequence, apart from the trials they make. -/
namespace StraightLine.Progress
variable {ε α β δ : Type}

theorem thenOfOk {p : Progress ε α} {a : α} (ok : p.result = .ok a) (next : α → Progress ε β) :
    (p >>= next).result = (next a).result := by
  simp only [bind, andThen, ok]

theorem thenOfError {p : Progress ε α} {e : ε} (failed : p.result = .error e)
    (next : α → Progress ε β) : (p >>= next).result = .error e := by
  simp only [bind, andThen, failed]

theorem thenOk {p : Progress ε α} {next : α → Progress ε β} {b : β} :
    (p >>= next).result = .ok b ↔ ∃ a, p.result = .ok a ∧ (next a).result = .ok b := by
  cases done : p.result with
  | error e => simp [thenOfError done]
  | ok a => simp [thenOfOk done]

theorem thenFails {p : Progress ε α} {next : α → Progress ε β} {e : ε} :
    (p >>= next).result = .error e ↔
      p.result = .error e ∨ ∃ a, p.result = .ok a ∧ (next a).result = .error e := by
  cases done : p.result with
  | error raised => simp [thenOfError done]
  | ok a => simp [thenOfOk done]

theorem resultThen (p : Progress ε α) (next : α → Progress ε β) :
    (p >>= next).result = p.result >>= fun a => (next a).result := by
  cases done : p.result with
  | error e => rw [thenOfError done]; rfl
  | ok a => rw [thenOfOk done]; rfl

theorem mapFails {f : δ → Progress ε α} {ds : List δ} {e : ε}
    (failed : (ds.mapM f).result = .error e) : ∃ d ∈ ds, (f d).result = .error e := by
  induction ds with
  | nil => cases failed
  | cons d rest ih =>
    rw [List.mapM_cons] at failed
    rcases thenFails.mp failed with first | ⟨a, _, others⟩
    · exact ⟨d, by simp, first⟩
    · rcases thenFails.mp others with later | ⟨_, _, last⟩
      · obtain ⟨b, mem, same⟩ := ih later
        exact ⟨b, List.mem_cons_of_mem d mem, same⟩
      · cases last

theorem mapOk {f : δ → Progress ε α} {ds : List δ}
    (each : ∀ d ∈ ds, ∃ a, (f d).result = .ok a) : ∃ as, (ds.mapM f).result = .ok as := by
  cases made : (ds.mapM f).result with
  | ok as => exact ⟨as, rfl⟩
  | error e =>
    obtain ⟨d, mem, failed⟩ := mapFails made
    obtain ⟨a, ok⟩ := each d mem
    rw [failed] at ok
    cases ok

theorem mapThenFind {f : δ → Progress ε α} {g : α → Progress ε (Option β)} {ds : List δ}
    (each : ∀ d ∈ ds, ∃ a, (f d).result = .ok a) :
    (ds.mapM f >>= fun as => as.findSomeM? g).result =
      (ds.findSomeM? fun d => f d >>= g).result := by
  induction ds with
  | nil => rfl
  | cons d rest ih =>
    obtain ⟨a, first⟩ := each d (by simp)
    have later : ∀ e ∈ rest, ∃ b, (f e).result = .ok b :=
      fun e mem => each e (List.mem_cons_of_mem d mem)
    obtain ⟨as, others⟩ := mapOk later
    have same := ih later
    rw [thenOfOk others] at same
    have gathered : ((d :: rest).mapM f).result = .ok (a :: as) := by
      rw [List.mapM_cons, thenOfOk first, thenOfOk others]
      rfl
    rw [thenOfOk gathered, List.findSomeM?_cons, List.findSomeM?_cons]
    cases entered : (g a).result with
    | error e =>
      have sequential := (thenOfOk first g).trans entered
      rw [thenOfError entered, thenOfError sequential]
    | ok found =>
      have sequential := (thenOfOk first g).trans entered
      rw [thenOfOk entered, thenOfOk sequential]
      cases found with
      | none => exact same
      | some b => rfl

theorem mapMember {f : δ → Progress ε α} {ds : List δ} {as : List α}
    (made : (ds.mapM f).result = .ok as) : ∀ a ∈ as, ∃ d ∈ ds, (f d).result = .ok a := by
  induction ds generalizing as with
  | nil => cases made; simp
  | cons d rest ih =>
    rw [List.mapM_cons] at made
    obtain ⟨a, first, others⟩ := thenOk.mp made
    obtain ⟨tail, later, last⟩ := thenOk.mp others
    cases last
    intro b mem
    rcases List.mem_cons.mp mem with rfl | inTail
    · exact ⟨d, by simp, first⟩
    · obtain ⟨e, inRest, same⟩ := ih later b inTail
      exact ⟨e, List.mem_cons_of_mem d inRest, same⟩

theorem findMember {f : δ → Progress ε (Option β)} {ds : List δ} {b : β}
    (found : (ds.findSomeM? f).result = .ok (some b)) :
    ∃ d ∈ ds, (f d).result = .ok (some b) := by
  induction ds with
  | nil => cases found
  | cons d rest ih =>
    rw [List.findSomeM?_cons] at found
    obtain ⟨first, same, later⟩ := thenOk.mp found
    cases first with
    | none =>
      obtain ⟨e, mem, last⟩ := ih later
      exact ⟨e, List.mem_cons_of_mem d mem, last⟩
    | some a => exact ⟨d, by simp, same.trans later⟩

theorem findFails {f : δ → Progress ε (Option β)} {ds : List δ} {e : ε}
    (failed : (ds.findSomeM? f).result = .error e) : ∃ d ∈ ds, (f d).result = .error e := by
  induction ds with
  | nil => cases failed
  | cons d rest ih =>
    rw [List.findSomeM?_cons] at failed
    rcases thenFails.mp failed with first | ⟨first, _, later⟩
    · exact ⟨d, by simp, first⟩
    · cases first with
      | none =>
        obtain ⟨b, mem, same⟩ := ih later
        exact ⟨b, List.mem_cons_of_mem d mem, same⟩
      | some a => cases later

theorem resultFind (f : δ → Progress ε (Option β)) (ds : List δ) :
    (ds.findSomeM? f).result = ds.findSomeM? fun d => (f d).result := by
  induction ds with
  | nil => rfl
  | cons d rest ih =>
    rw [List.findSomeM?_cons, List.findSomeM?_cons, resultThen]
    cases (f d).result with
    | error e => rfl
    | ok found =>
      cases found with
      | none => exact ih
      | some b => rfl

end StraightLine.Progress
