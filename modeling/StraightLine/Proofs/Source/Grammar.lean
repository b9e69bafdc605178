import StraightLine.Proofs.Source.RoundTrip

/-! The grammar of a line. The words of an instruction are its mnemonic, a register and, for an
update, a register or a numeral. Words that are no instruction fail a first check, in the order:
reserved mnemonic, unknown mnemonic, number of arguments, register, operand. -/
namespace StraightLine

theorem Register.unknownWord {s : List Char} : ofWord? s = none ↔ ∀ r : Register, s ≠ r.word := by
  constructor
  · intro unread r same
    rw [same, r.wordRead] at unread
    cases unread
  · intro others
    cases read : ofWord? s with
    | none => rfl
    | some r => exact absurd (wordSource read) (others r)

theorem Opcode.unknownWord {s : List Char} : ofWord? s = none ↔ ∀ code : Opcode, s ≠ code.word := by
  constructor
  · intro unread code same
    rw [same, code.wordRead] at unread
    cases unread
  · intro others
    cases read : ofWord? s with
    | none => rfl
    | some code => exact absurd (wordSource read) (others code)

namespace Operand

inductive Spells : List Char → Operand → Prop
  | register (r : Register) : Spells r.word (.reg r)
  | numeral {word : List Char} {n : Int} (read : Text.Numeral.read? word = some n) :
      Spells word (.const n)

theorem spelled {word : List Char} {src : Operand} : ofWord? word = some src ↔ Spells word src := by
  constructor
  · intro read
    unfold ofWord? at read
    split at read
    · rename_i r register
      cases read
      rw [Register.wordSource register]
      exact .register r
    · obtain ⟨n, numeral, rfl⟩ := Option.map_eq_some_iff.mp read
      exact .numeral numeral
  · intro spells
    cases spells with
    | register r => exact registerRead r
    | numeral read => exact numeralRead read

theorem unspelled {word : List Char} : ofWord? word = none ↔ ∀ src, ¬ Spells word src := by
  constructor
  · intro unread src spells
    rw [spelled.mpr spells] at unread
    cases unread
  · intro others
    cases read : ofWord? word with
    | none => rfl
    | some src => exact absurd (spelled.mp read) (others src)

end Operand

namespace Instruction

inductive Spells : List (List Char) → Instruction → Prop
  | read (dst : Register) : Spells [Opcode.inp.word, dst.word] (.read dst)
  | update {op : Operation} (writable : op ≠ .set) (dst : Register) {word : List Char}
      {src : Operand} (operand : Operand.Spells word src) :
      Spells [(Opcode.update op).word, dst.word, word] (.update op dst src)

inductive Fails : List (List Char) → Complaint → Prop
  | reserved (arguments : List (List Char)) : Fails ((Opcode.update .set).word :: arguments) .reserved
  | unknownOpcode {mnemonic : List Char} (unknown : ∀ code : Opcode, mnemonic ≠ code.word)
      (arguments : List (List Char)) : Fails (mnemonic :: arguments) (.unknownOpcode mnemonic)
  | argumentCount {code : Opcode} (writable : code ≠ .update .set) {arguments : List (List Char)}
      (count : arguments.length ≠ code.arity) :
      Fails (code.word :: arguments) (.argumentCount code arguments.length)
  | unknownRegister {code : Opcode} (writable : code ≠ .update .set) {target : List Char}
      {others : List (List Char)} (count : (target :: others).length = code.arity)
      (unknown : ∀ r : Register, target ≠ r.word) :
      Fails (code.word :: target :: others) (.unknownRegister target)
  | badOperand {op : Operation} (writable : op ≠ .set) (dst : Register) {word : List Char}
      (bad : ∀ src, ¬ Operand.Spells word src) :
      Fails [(Opcode.update op).word, dst.word, word] (.badOperand word)

theorem readArguments (arguments : List (List Char)) :
    ofWords (Opcode.inp.word :: arguments) = match arguments with
      | [target] =>
        match Register.ofWord? target with
        | none => .error (.unknownRegister target)
        | some dst => .ok (.read dst)
      | _ => .error (.argumentCount .inp arguments.length) := rfl

theorem updateArguments {op : Operation} (writable : op ≠ .set) (arguments : List (List Char)) :
    ofWords ((Opcode.update op).word :: arguments) = match arguments with
      | [target, operand] =>
        match Register.ofWord? target with
        | none => .error (.unknownRegister target)
        | some dst =>
          match Operand.ofWord? operand with
          | none => .error (.badOperand operand)
          | some src => .ok (.update op dst src)
      | _ => .error (.argumentCount (.update op) arguments.length) := by
  cases op with
  | set => exact absurd rfl writable
  | _ => rfl

theorem spellsRead {ws : List (List Char)} {i : Instruction} (spells : Spells ws i) :
    ofWords ws = .ok i := by
  cases spells with
  | read dst => simp only [readArguments, Register.wordRead]
  | update writable dst operand =>
    simp only [updateArguments writable, Register.wordRead, Operand.spelled.mpr operand]

theorem failsRead {ws : List (List Char)} {c : Complaint} (fails : Fails ws c) :
    ofWords ws = .error c := by
  cases fails with
  | reserved arguments => rfl
  | unknownOpcode unknown arguments => simp only [ofWords, Opcode.unknownWord.mpr unknown]
  | @argumentCount code writable arguments count =>
    cases code with
    | inp =>
      rw [readArguments]
      split
      · exact absurd rfl count
      · rfl
    | update op =>
      rw [updateArguments fun same => writable (congrArg _ same)]
      split
      · exact absurd rfl count
      · rfl
  | @unknownRegister code writable target others count unknown =>
    cases code with
    | inp =>
      cases List.length_eq_zero_iff.mp (Nat.succ.inj count)
      simp only [readArguments, Register.unknownWord.mpr unknown]
    | update op =>
      obtain ⟨operand, rfl⟩ := List.length_eq_one_iff.mp (Nat.succ.inj count)
      simp only [updateArguments fun same => writable (congrArg _ same),
        Register.unknownWord.mpr unknown]
  | badOperand writable dst bad =>
    simp only [updateArguments writable, Register.wordRead, Operand.unspelled.mpr bad]

theorem judged {ws : List (List Char)} (nonempty : ws ≠ []) :
    (∃ i, Spells ws i) ∨ ∃ c, Fails ws c := by
  obtain ⟨mnemonic, arguments, rfl⟩ := List.exists_cons_of_ne_nil nonempty
  cases known : Opcode.ofWord? mnemonic with
  | none => exact .inr ⟨_, .unknownOpcode (Opcode.unknownWord.mp known) arguments⟩
  | some code =>
    cases Opcode.wordSource known
    by_cases reserved : code = .update .set
    · subst reserved
      exact .inr ⟨_, .reserved arguments⟩
    by_cases count : arguments.length = code.arity
    · cases arguments with
      | nil => cases code <;> cases count
      | cons target others =>
        cases register : Register.ofWord? target with
        | none => exact .inr ⟨_, .unknownRegister reserved count (Register.unknownWord.mp register)⟩
        | some dst =>
          cases Register.wordSource register
          cases code with
          | inp =>
            cases List.length_eq_zero_iff.mp (Nat.succ.inj count)
            exact .inl ⟨_, .read dst⟩
          | update op =>
            have writable : op ≠ .set := fun same => reserved (congrArg _ same)
            obtain ⟨word, rfl⟩ := List.length_eq_one_iff.mp (Nat.succ.inj count)
            cases operand : Operand.ofWord? word with
            | none => exact .inr ⟨_, .badOperand writable dst (Operand.unspelled.mp operand)⟩
            | some src => exact .inl ⟨_, .update writable dst (Operand.spelled.mp operand)⟩
    · exact .inr ⟨_, .argumentCount reserved count⟩

end Instruction
end StraightLine
