import Mathlib.Algebra.Group.Nat.Defs
import StraightLine.Text.Line
import StraightLine.Text.Numeral
import StraightLine.Text.Word

/-! Numerals, written and read. The plain form of a number that can be written reads as that number,
and only numbers that can be written are read. -/
namespace StraightLine.Text.Numeral

theorem writableBelow {n : Int} : isWritable n = true ↔ n.natAbs < 10 ^ digitLimit := by
  rw [isWritable, decide_eq_true_eq]
  exact Nat.length_toDigits_le_iff (by decide) (by decide)

theorem renderWritable {n : Int} (writable : isWritable n = true) :
    render n = .ok (String.ofList (text n)) := if_pos writable

theorem valueAppend (ds : List Nat) (d : Nat) : value (ds ++ [d]) = 10 * value ds + d := by
  simp [value]

theorem plainDigits (n : Nat) :
    ∃ ds, Nat.toDigits 10 n = ds.map Nat.digitChar ∧ (∀ d ∈ ds, d < 10) ∧ value ds = n := by
  induction n using Nat.strongRecOn with
  | ind n ih =>
    rw [Nat.toDigits_eq_if (by decide)]
    split
    · rename_i small
      exact ⟨[n], rfl, by simpa using small, by simp [value]⟩
    · obtain ⟨ds, written, small, total⟩ := ih (n / 10) (by omega)
      refine ⟨ds ++ [n % 10], by simp [written], ?_, ?_⟩
      · intro d mem
        rcases List.mem_append.mp mem with earlier | last
        · exact small d earlier
        · rw [List.mem_singleton.mp last]
          omega
      · rw [valueAppend, total]
        omega

theorem digitUnsigned {d : Nat} (small : d < 10) :
    d.digitChar ≠ '+' ∧ d.digitChar ≠ '-' ∧ isBlank d.digitChar = false := by
  match d, small with
  | 0, _ | 1, _ | 2, _ | 3, _ | 4, _ | 5, _ | 6, _ | 7, _ | 8, _ | 9, _ => decide

theorem digitsRead {ds : List Nat} (nonempty : ds ≠ []) (small : ∀ d ∈ ds, d < 10) :
    digits? (ds.map Nat.digitChar) = some ds := by
  induction ds with
  | nil => exact absurd rfl nonempty
  | cons d rest ih =>
    have first := DecimalDigit.valueDigitChar (small d (by simp))
    cases rest with
    | nil => simp [digits?, first]
    | cons e more =>
      have others := ih (by simp) (fun k later => small k (List.mem_cons_of_mem d later))
      rw [List.map_cons] at others
      simp [digits?, first, others]

theorem naturalRead {n : Nat} (few : n < 10 ^ digitLimit) :
    natural? (Nat.toDigits 10 n) = some n := by
  obtain ⟨ds, written, small, total⟩ := plainDigits n
  have nonempty : ds ≠ [] := by
    intro empty
    rw [empty] at written
    exact Nat.toDigits_ne_nil written
  have length : ds.length ≤ digitLimit := by
    rw [← List.length_map Nat.digitChar, ← written]
    exact (Nat.length_toDigits_le_iff (by decide) (by decide)).mpr few
  rw [written, natural?, digitsRead nonempty small]
  change (if ds.length ≤ digitLimit then some (value ds) else none) = some n
  rw [if_pos length, total]

theorem unsignedRead (n : Nat) :
    read? (Nat.toDigits 10 n) = (natural? (Nat.toDigits 10 n)).map Int.ofNat := by
  obtain ⟨ds, written, small, _⟩ := plainDigits n
  cases ds with
  | nil => exact absurd written Nat.toDigits_ne_nil
  | cons d rest =>
    obtain ⟨noPlus, noMinus, _⟩ := digitUnsigned (small d (by simp))
    rw [written, List.map_cons]
    unfold read?
    split
    · rename_i same
      exact absurd (List.cons.inj same).1 noPlus
    · rename_i same
      exact absurd (List.cons.inj same).1 noMinus
    · rfl

theorem textRead {n : Int} (writable : isWritable n = true) : read? (text n) = some n := by
  have natural := naturalRead (writableBelow.mp writable)
  unfold text
  split
  · have same : -(n.natAbs : Int) = n := by omega
    rw [read?, natural]
    exact congrArg some same
  · have same : (n.natAbs : Int) = n := by omega
    rw [unsignedRead, natural]
    exact congrArg some same

theorem appendedBelow {ds : List Nat} (small : ∀ d ∈ ds, d < 10) (start : Nat) :
    ds.foldl (fun n d => 10 * n + d) start < (start + 1) * 10 ^ ds.length := by
  induction ds generalizing start with
  | nil => simp
  | cons d rest ih =>
    have first : d < 10 := small d (by simp)
    have others := ih (fun k later => small k (List.mem_cons_of_mem d later)) (10 * start + d)
    have room : (10 * start + d + 1) * 10 ^ rest.length ≤ ((start + 1) * 10) * 10 ^ rest.length :=
      Nat.mul_le_mul_right _ (by omega)
    rw [List.foldl_cons, List.length_cons, Nat.pow_succ', ← Nat.mul_assoc]
    exact Nat.lt_of_lt_of_le others room

theorem digitsBelowTen {cs : List Char} {ds : List Nat} (read : digits? cs = some ds) :
    ∀ d ∈ ds, d < 10 := by
  fun_induction digits? cs generalizing ds with
  | case1 => cases read
  | case2 c rest ih =>
    obtain ⟨d, digit, others⟩ := Option.bind_eq_some_iff.mp read
    have first := DecimalDigit.valueBelowTen digit
    have joined {tail : List Nat} (small : ∀ k ∈ tail, k < 10) : ∀ k ∈ d :: tail, k < 10 :=
      List.forall_mem_cons.mpr ⟨first, small⟩
    split at others
    · cases others
      exact joined nofun
    · obtain ⟨tail, later, rfl⟩ := Option.map_eq_some_iff.mp others
      exact joined (ih later)
    · obtain ⟨tail, later, rfl⟩ := Option.map_eq_some_iff.mp others
      rename_i notUnderscore
      split at ih
      · contradiction
      · rename_i same
        exact absurd (List.cons.inj same).1 notUnderscore
      · rename_i same
        exact joined (ih (same ▸ later))

theorem naturalBelow {cs : List Char} {n : Nat} (read : natural? cs = some n) :
    n < 10 ^ digitLimit := by
  obtain ⟨ds, digits, counted⟩ := Option.bind_eq_some_iff.mp read
  split at counted
  · rename_i few
    cases counted
    have below := appendedBelow (digitsBelowTen digits) 0
    rw [Nat.zero_add, Nat.one_mul] at below
    exact Nat.lt_of_lt_of_le below (Nat.pow_le_pow_right (by decide) few)
  · cases counted

theorem readWritable {cs : List Char} {n : Int} (read : read? cs = some n) :
    isWritable n = true := by
  have signed : ∃ body k, natural? body = some k ∧ n.natAbs = k := by
    unfold read? at read
    split at read
    all_goals
      obtain ⟨k, natural, rfl⟩ := Option.map_eq_some_iff.mp read
      exact ⟨_, k, natural, by simp⟩
  obtain ⟨body, k, natural, same⟩ := signed
  rw [writableBelow, same]
  exact naturalBelow natural

theorem textWord (n : Int) : IsWord (text n) := by
  obtain ⟨ds, written, small, _⟩ := plainDigits n.natAbs
  have digits : ∀ c ∈ Nat.toDigits 10 n.natAbs, isBlank c = false := by
    intro c mem
    rw [written] at mem
    obtain ⟨d, listed, rfl⟩ := List.mem_map.mp mem
    exact (digitUnsigned (small d listed)).2.2
  unfold text
  split
  · refine ⟨by simp, ?_⟩
    intro c mem
    rcases List.mem_cons.mp mem with rfl | later
    · decide
    · exact digits c later
  · exact ⟨Nat.toDigits_ne_nil, digits⟩

end StraightLine.Text.Numeral
