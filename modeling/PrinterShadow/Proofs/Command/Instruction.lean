import PrinterShadow.Command.Instruction

/-!
The words that make a command ask for a linear move, for homing or for a tool: a G word decides, and
a tool word alone counts only where there is neither a G word nor an M word.
-/

namespace PrinterShadow

namespace Instruction

variable {w w' : Words} {number : Nat} {toUpper : Bool} {tool : Int32}

theorem ofG_eq_linearMove (h : ofG w number = .linearMove w') :
    (number = 0 ∨ number = 1) ∧ w' = w := by
  unfold ofG at h
  split at h
  · exact ⟨.inl rfl, (linearMove.inj h).symm⟩
  · exact ⟨.inr rfl, (linearMove.inj h).symm⟩
  all_goals nomatch h

theorem ofG_eq_home (h : ofG w number = .home w' toUpper) :
    (if toUpper then number = 162 else number = 28 ∨ number = 161) ∧ w' = w := by
  unfold ofG at h
  split at h
  case h_3 | h_4 | h_5 =>
    obtain ⟨rfl, rfl⟩ := home.inj h
    simp
  all_goals nomatch h

theorem ofG_eq_setPosition (h : ofG w number = .setPosition w') : number = 92 ∧ w' = w := by
  unfold ofG at h
  split at h
  case h_8 => exact ⟨rfl, (setPosition.inj h).symm⟩
  all_goals nomatch h

theorem ofG_ne_selectTool : ofG w number ≠ .selectTool tool := by
  unfold ofG
  split <;> nofun

theorem ofM_ne_linearMove (cmd : Command) : ofM cmd number ≠ .linearMove w := by
  unfold ofM
  split <;> nofun

theorem ofM_ne_home (cmd : Command) : ofM cmd number ≠ .home w toUpper := by
  unfold ofM
  split <;> nofun

theorem ofM_ne_setPosition (cmd : Command) : ofM cmd number ≠ .setPosition w := by
  unfold ofM
  split <;> nofun

theorem ofM_ne_selectTool (cmd : Command) : ofM cmd number ≠ .selectTool tool := by
  unfold ofM
  split <;> nofun

end Instruction

namespace Command

variable {cmd : Command} {w : Words} {toUpper : Bool} {tool : Int32}

theorem instruction_of_g {g : UInt16} (h : cmd.g = some g) :
    cmd.instruction = .ofG cmd.words g.toNat := by
  simp only [instruction, h]

theorem instruction_eq_linearMove_iff :
    cmd.instruction = .linearMove w ↔ (cmd.g = some 0 ∨ cmd.g = some 1) ∧ w = cmd.words := by
  constructor
  · intro h
    unfold instruction at h
    split at h
    case h_1 g hg =>
      obtain ⟨hnumber, hw⟩ := Instruction.ofG_eq_linearMove h
      rw [hg]
      exact ⟨by simpa [← UInt16.toNat_inj] using hnumber, hw⟩
    case h_2 => exact absurd h (Instruction.ofM_ne_linearMove cmd)
    all_goals nomatch h
  · rintro ⟨hg | hg, rfl⟩
    all_goals rw [instruction_of_g hg]; rfl

theorem instruction_eq_home_iff :
    cmd.instruction = .home w toUpper ↔
      (if toUpper then cmd.g = some 162 else cmd.g = some 28 ∨ cmd.g = some 161) ∧
        w = cmd.words := by
  constructor
  · intro h
    unfold instruction at h
    split at h
    case h_1 g hg =>
      obtain ⟨hnumber, hw⟩ := Instruction.ofG_eq_home h
      rw [hg]
      exact ⟨by simpa [← UInt16.toNat_inj] using hnumber, hw⟩
    case h_2 => exact absurd h (Instruction.ofM_ne_home cmd)
    all_goals nomatch h
  · rintro ⟨hg, rfl⟩
    cases toUpper with
    | false => rcases hg with hg | hg <;> rw [instruction_of_g hg] <;> rfl
    | true => rw [instruction_of_g hg]; rfl

theorem exists_instruction_eq_home_iff :
    (∃ toUpper, cmd.instruction = .home w toUpper) ↔
      (cmd.g = some 28 ∨ cmd.g = some 161 ∨ cmd.g = some 162) ∧ w = cmd.words := by
  simp only [instruction_eq_home_iff, Bool.exists_bool, if_true, Bool.false_eq_true, if_false,
    ← or_and_right, or_assoc]

theorem instruction_eq_setPosition_iff :
    cmd.instruction = .setPosition w ↔ cmd.g = some 92 ∧ w = cmd.words := by
  constructor
  · intro h
    unfold instruction at h
    split at h
    case h_1 g hg =>
      obtain ⟨hnumber, hw⟩ := Instruction.ofG_eq_setPosition h
      rw [hg]
      exact ⟨by simpa [← UInt16.toNat_inj] using hnumber, hw⟩
    case h_2 => exact absurd h (Instruction.ofM_ne_setPosition cmd)
    all_goals nomatch h
  · rintro ⟨hg, rfl⟩
    rw [instruction_of_g hg]
    rfl

theorem instruction_eq_selectTool_iff :
    cmd.instruction = .selectTool tool ↔
      cmd.g = none ∧ cmd.m = none ∧ cmd.tool = some tool := by
  constructor
  · intro h
    unfold instruction at h
    split at h
    case h_1 => exact absurd h Instruction.ofG_ne_selectTool
    case h_2 => exact absurd h (Instruction.ofM_ne_selectTool cmd)
    case h_3 hg hm htool =>
      rw [hg, hm, htool, Instruction.selectTool.inj h]
      exact ⟨rfl, rfl, rfl⟩
    case h_4 => nomatch h
  · rintro ⟨hg, hm, htool⟩
    simp only [instruction, hg, hm, htool]

end Command

end PrinterShadow
