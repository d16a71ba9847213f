import Mathlib.Algebra.Group.Int.Defs
import Mathlib.Algebra.Group.Nat.Defs
import URiscV.Spec.Execute

/-!
# Results and transfers of the execute stage

EX on a decoded word, for any address of the instruction and any operands that are
forwarded to it, against RV32I. The transfers of control are those of RV32I. So are the
results of integer instructions, except for shifts by a register: `rv_alu` takes six
bits of the amount and not five, so that a set bit 5 shifts everything out, which is
right only if the RV32I shift leaves nothing either (`AmountOk`).

## Key results

- `shiftOk_iff`: when six bits of the amount do what five do
- `exResult_eq_iff`: integer results
- `transfer_eq`: transfers of control
-/

namespace URiscV.Hdl

open Rv32i (Instr IntOp BranchOp decode immI immB immU immJ branchOp?)

/-! ## Shift amounts -/

/-- Bit 5 of the amount `b` is clear, or the shift of `a` by its low five bits leaves
    only zeros, or (arithmetically) only copies of the sign. -/
def AmountOk (a b : Word) : IntOp → Prop
  | .sll => b.getLsbD 5 = false ∨ 2 ^ 32 ∣ a.toNat * 2 ^ (b.toNat % 32)
  | .srl => b.getLsbD 5 = false ∨ a.toNat < 2 ^ (b.toNat % 32)
  | .sra => b.getLsbD 5 = false ∨
      -2 ^ (b.toNat % 32) ≤ a.toInt ∧ a.toInt < 2 ^ (b.toNat % 32)
  | _ => True

instance (a b : Word) : (op : IntOp) → Decidable (AmountOk a b op)
  | .sll => inferInstanceAs (Decidable (_ ∨ _))
  | .srl => inferInstanceAs (Decidable (_ ∨ _))
  | .sra => inferInstanceAs (Decidable (_ ∨ _ ∧ _))
  | .add | .sub | .slt | .sltu | .xor | .or | .and => inferInstanceAs (Decidable True)

/-- A set bit 5 makes the amount at least 32. -/
theorem le_mod_of_getLsbD {b : Word} (h : b.getLsbD 5 = true) : 32 ≤ b.toNat % 64 := by
  rw [BitVec.getLsbD, Nat.testBit_eq_decide_div_mod_eq] at h
  simp at h
  omega

/-- A shift by 32 or more leaves copies of the sign. -/
theorem ediv_of_lt {z d : Int} (hz : -d ≤ z) (hz' : z < d) : z / d = if z < 0 then -1 else 0 := by
  have hd : 0 < d := by omega
  by_cases hneg : z < 0
  · rw [if_pos hneg]
    exact ((Int.ediv_emod_unique hd).mpr ⟨(by omega : z + d + d * -1 = z), by omega, by omega⟩).1
  · rw [if_neg hneg]
    exact ((Int.ediv_emod_unique hd).mpr ⟨(by omega : z + d * 0 = z), by omega, by omega⟩).1

/-- A floor quotient is 0 or -1 exactly in range. -/
theorem ediv_eq_sign_iff {z d : Int} (hd : 0 < d) :
    z / d = (if z < 0 then -1 else 0) ↔ -d ≤ z ∧ z < d := by
  refine ⟨fun h => ?_, fun h => ediv_of_lt h.1 h.2⟩
  have hsplit := Int.mul_ediv_add_emod z d
  have hge := Int.emod_nonneg z (Int.ne_of_gt hd)
  have hlt := Int.emod_lt_of_pos z hd
  by_cases hneg : z < 0
  · rw [h, if_pos hneg] at hsplit
    omega
  · rw [h, if_neg hneg] at hsplit
    omega

/-- When a shift by too much is the shift by `s`. -/
theorem sshiftRight_eq_iff {a : Word} {m s : Nat} (hm : 32 ≤ m) :
    a.sshiftRight m = a.sshiftRight s ↔ -2 ^ s ≤ a.toInt ∧ a.toInt < 2 ^ s := by
  have hbig : (2 ^ 32 : Int) ≤ 2 ^ m := by
    exact_mod_cast Nat.pow_le_pow_right (by omega) hm
  have hle := BitVec.le_toInt a
  have hlt := BitVec.toInt_lt (x := a)
  have hsmall : a.toInt / ((2 ^ m : Nat) : Int) = if a.toInt < 0 then -1 else 0 := by
    apply ediv_of_lt
    · push_cast; omega
    · push_cast; omega
  have hpos : (0 : Int) < ((2 ^ s : Nat) : Int) := by exact_mod_cast Nat.two_pow_pos s
  rw [← BitVec.toInt_inj, BitVec.toInt_sshiftRight, BitVec.toInt_sshiftRight,
    Int.shiftRight_eq_div_pow, Int.shiftRight_eq_div_pow, hsmall, eq_comm, ediv_eq_sign_iff hpos]
  push_cast
  rfl

/-- Six bits of the amount do what five do. -/
theorem shiftOk_iff {a b : Word} {op : IntOp} : shiftOk a b op = true ↔ AmountOk a b op := by
  -- the amount of the core differs only when bit 5 is set
  cases hbit : b.getLsbD 5 with
  | false =>
    have hlt := toNat_mod_of_getLsbD hbit
    rw [shiftOk_of_bit5 hlt]
    cases op with
    | sll | srl | sra => exact ⟨fun _ => .inl hbit, fun _ => rfl⟩
    | add | sub | slt | sltu | xor | or | and => exact ⟨fun _ => trivial, fun _ => rfl⟩
  | true =>
    have hge := le_mod_of_getLsbD hbit
    cases op with
    | sll =>
      rw [shiftOk, beq_iff_eq, AmountOk, hbit, BitVec.shiftLeft_eq_zero hge, eq_comm,
        ← BitVec.toNat_inj, BitVec.toNat_shiftLeft, Nat.shiftLeft_eq]
      simp [Nat.dvd_iff_mod_eq_zero]
    | srl =>
      rw [shiftOk, beq_iff_eq, AmountOk, hbit, BitVec.ushiftRight_eq_zero hge, eq_comm,
        ← BitVec.toNat_inj, BitVec.toNat_ushiftRight, Nat.shiftRight_eq_div_pow]
      simp [Nat.div_eq_zero_iff]
    | sra =>
      rw [shiftOk, beq_iff_eq, AmountOk, hbit, sshiftRight_eq_iff hge]
      simp
    | add | sub | slt | sltu | xor | or | and => simp [shiftOk, AmountOk]

/-! ## Integer results -/

/-- The RV32I result of an integer instruction at `p` with source values `a` and `b`. -/
def integerResult (p a b : Word) : Instr → Option Word
  | .lui _ imm => some imm
  | .auipc _ imm => some (p + imm)
  | .opImm op _ _ imm => some (op.eval a imm)
  | .op op _ _ _ => some (op.eval a b)
  | _ => none

/-- The instruction is no shift by a register that `rv_alu` gets wrong. -/
def RegShiftOk (a b : Word) : Instr → Prop
  | .op op _ _ _ => AmountOk a b op
  | _ => True

/-- **Integer results.** Take a legal OP, OP-IMM, LUI or AUIPC word `w`, any address `p`
    and any two source values. The EX result is the one of RV32I exactly when `w` is no
    shift by a register with bit 5 set, or one that leaves nothing anyway. -/
theorem exResult_eq_iff (x p a b v1 v2 : Word) {w : Word} {i : Instr} {r : Word}
    (hdec : decode w = some i) (hres : integerResult p v1 v2 i = some r) :
    (RvExu.out x (RvIdu.decode p w a b) v1 v2).exResult = r ↔ RegShiftOk v1 v2 i := by
  unfold decode at hdec
  split at hdec
  case h_1 hop =>
    -- LUI
    cases hdec
    cases hres
    have hctrl := ctrl_of_opcode hop
    have himm : rvImmgen w = immU w := rvImmgen_of_opcode hop
    rw [out_decode hctrl himm]
    exact ⟨fun _ => trivial, fun _ => rfl⟩
  case h_2 hop =>
    -- AUIPC
    cases hdec
    cases hres
    have hctrl := ctrl_of_opcode hop
    have himm : rvImmgen w = immU w := rvImmgen_of_opcode hop
    rw [out_decode hctrl himm]
    exact ⟨fun _ => trivial, fun _ => BitVec.add_comm _ _⟩
  case h_8 hop =>
    -- OP-IMM
    obtain ⟨op, hopi, rfl⟩ := Option.map_eq_some_iff.mp hdec
    cases hres
    have hctrl := ctrl_of_opcode hop
    have himm : rvImmgen w = immI w := rvImmgen_of_opcode hop
    have hout := out_decode hctrl himm x p a b v1 v2
    rw [hout]
    simp only [rvDatapathCtrl, rvAluCtrl_opImmOp hopi, if_true,
      rvAlu_eq_eval (shiftOk_opImm hopi v1)]
    exact ⟨fun _ => trivial, fun _ => rfl⟩
  case h_9 hop =>
    -- OP
    obtain ⟨op, hopr, rfl⟩ := Option.map_eq_some_iff.mp hdec
    cases hres
    have hctrl := ctrl_of_opcode hop
    have himm : rvImmgen w = 0 := rvImmgen_of_opcode hop
    have hout := out_decode hctrl himm x p a b v1 v2
    rw [hout]
    simp only [rvDatapathCtrl, rvAluCtrl_opOp hopr, Bool.false_eq_true, if_false]
    rw [RegShiftOk, ← shiftOk_iff]
    exact rvAlu_eq_eval_iff x
  -- the other instructions have no integer result
  case h_3 => cases hdec; cases hres
  case h_4 | h_6 | h_7 =>
    split at hdec
    · cases hdec; cases hres
    · cases hdec
  case h_5 =>
    obtain ⟨op, -, rfl⟩ := Option.map_eq_some_iff.mp hdec
    cases hres
  case h_10 => cases hdec

/-- `addi x1, x2, -1` at address 8: bit 30 is one of the immediate. -/
theorem exResult_addi :
    (RvExu.out 0 (RvIdu.decode 8 0xfff10093 0 0) 7 0).exResult = 6 :=
  (exResult_eq_iff 0 8 0 0 7 0 (by decide : decode 0xfff10093 = some (.opImm .add 1 2 (-1)))
    (by decide)).mpr trivial

/-- `sll x3, x1, x2` shifts a one by 32, which is the RV32I shift by 0, to zero. -/
theorem exResult_sll_ne :
    decode 0x002091b3 = some (.op .sll 3 1 2) ∧
    integerResult 0 1 32 (.op .sll 3 1 2) = some 1 ∧
    (RvExu.out 0 (RvIdu.decode 0 0x002091b3 0 0) 1 32).exResult ≠ 1 :=
  ⟨by decide, by decide, by decide⟩

/-! ## Transfers of control -/

/-- The fields of a branch. -/
theorem decode_branch {w : Word} {op : BranchOp} {rs1 rs2 : BitVec 5} {imm : Word}
    (h : decode w = some (.branch op rs1 rs2 imm)) :
    Rv32i.opcode w = 0b1100011 ∧ branchOp? (Rv32i.funct3 w) = some op ∧ imm = immB w := by
  unfold decode at h
  split at h
  case h_5 hop =>
    obtain ⟨op', hbr, heq⟩ := Option.map_eq_some_iff.mp h
    cases heq
    exact ⟨hop, hbr, rfl⟩
  all_goals simp at h

/-- The fields of a `jal`. -/
theorem decode_jal {w : Word} {rd : BitVec 5} {imm : Word} (h : decode w = some (.jal rd imm)) :
    Rv32i.opcode w = 0b1101111 ∧ imm = immJ w := by
  unfold decode at h
  split at h
  case h_3 hop =>
    cases h
    exact ⟨hop, rfl⟩
  all_goals simp at h

/-- The fields of a `jalr`. -/
theorem decode_jalr {w : Word} {rd rs1 : BitVec 5} {imm : Word}
    (h : decode w = some (.jalr rd rs1 imm)) : Rv32i.opcode w = 0b1100111 ∧ imm = immI w := by
  unfold decode at h
  split at h
  case h_4 hop =>
    split at h
    · cases h
      exact ⟨hop, rfl⟩
    · cases h
  all_goals simp at h

/-- A redirect needs one of the three transfer opcodes. -/
theorem pcSrc_of_opcode_ne {w : Word} (hb : Rv32i.opcode w ≠ 0b1100011)
    (hj : Rv32i.opcode w ≠ 0b1101111) (hr : Rv32i.opcode w ≠ 0b1100111)
    (x p a b v1 v2 : Word) : (RvExu.out x (RvIdu.decode p w a b) v1 v2).pcSrc = false := by
  rw [out_decode (ctrl_of_opcode rfl) rfl]
  unfold rvDatapathCtrl
  split
  case h_4 h => exact absurd h hr
  case h_6 h => exact absurd h hb
  case h_7 h => exact absurd h hj
  all_goals rfl

section Transfer

variable (x p a b v1 v2 : Word) {w : Word}

/-- A branch compares its operands and writes no register. -/
theorem transfer_branch {op : BranchOp} {rs1 rs2 : BitVec 5} {imm : Word}
    (h : decode w = some (.branch op rs1 rs2 imm)) :
    (RvExu.out x (RvIdu.decode p w a b) v1 v2).pcSrc = op.taken v1 v2 ∧
      (RvExu.out x (RvIdu.decode p w a b) v1 v2).pcBranchTarget = p + imm ∧
      (RvIdu.decode p w a b).ctrl.regwrite = false := by
  obtain ⟨hop, hbr, rfl⟩ := decode_branch h
  have hctrl : rvDatapathCtrl (ifidOpcode w) = { branch := true, aluOp := 0b01 } :=
    ctrl_of_opcode hop
  have himm : rvImmgen w = immB w := rvImmgen_of_opcode hop
  have hout := out_decode hctrl himm x p a b v1 v2
  refine ⟨?_, ?_, ?_⟩
  · rw [hout]
    simp only [Bool.false_eq_true, if_false, branchTaken_eq_taken hbr, Bool.true_and,
      Bool.or_false]
  · rw [hout]
    exact BitVec.add_comm _ _
  · show (rvDatapathCtrl (ifidOpcode w)).regwrite = false
    rw [hctrl]

/-- JAL goes to an address relative to its own, and links. -/
theorem transfer_jal {rd : BitVec 5} {imm : Word} (h : decode w = some (.jal rd imm)) :
    (RvExu.out x (RvIdu.decode p w a b) v1 v2).pcSrc = true ∧
      (RvExu.out x (RvIdu.decode p w a b) v1 v2).pcBranchTarget = p + imm ∧
      (RvExu.out x (RvIdu.decode p w a b) v1 v2).exResult = p + 4 ∧
      (RvIdu.decode p w a b).ctrl.regwrite = true := by
  obtain ⟨hop, rfl⟩ := decode_jal h
  have hctrl : rvDatapathCtrl (ifidOpcode w) =
      { jump := true, regwrite := true, resultSrc := 0b11 } := ctrl_of_opcode hop
  have himm : rvImmgen w = immJ w := rvImmgen_of_opcode hop
  have hout := out_decode hctrl himm x p a b v1 v2
  refine ⟨?_, ?_, ?_, ?_⟩
  · rw [hout]; rfl
  · rw [hout]
    exact BitVec.add_comm _ _
  · rw [hout]; rfl
  · show (rvDatapathCtrl (ifidOpcode w)).regwrite = true
    rw [hctrl]

/-- JALR goes to the sum of its register and its immediate, and links. -/
theorem transfer_jalr {rd rs1 : BitVec 5} {imm : Word}
    (h : decode w = some (.jalr rd rs1 imm)) :
    (RvExu.out x (RvIdu.decode p w a b) v1 v2).pcSrc = true ∧
      (RvExu.out x (RvIdu.decode p w a b) v1 v2).pcBranchTarget = (v1 + imm) &&& ~~~1#32 ∧
      (RvExu.out x (RvIdu.decode p w a b) v1 v2).exResult = p + 4 ∧
      (RvIdu.decode p w a b).ctrl.regwrite = true := by
  obtain ⟨hop, rfl⟩ := decode_jalr h
  have hctrl : rvDatapathCtrl (ifidOpcode w) =
      { jump := true, jalr := true, alusrc := true, regwrite := true, resultSrc := 0b11,
        aluOp := 0b11 } := ctrl_of_opcode hop
  have himm : rvImmgen w = immI w := rvImmgen_of_opcode hop
  have hout := out_decode hctrl himm x p a b v1 v2
  refine ⟨?_, ?_, ?_, ?_⟩
  · rw [hout]; rfl
  · rw [hout]; rfl
  · rw [hout]; rfl
  · show (rvDatapathCtrl (ifidOpcode w)).regwrite = true
    rw [hctrl]

end Transfer

/-- **Transfers of control.** Take any word `w` at any address `p` and any two operands
    `v1` and `v2` presented at EX.

    * A branch redirects when RV32I takes it, to `p` plus its immediate, and writes no
      register.
    * JAL redirects to `p` plus its immediate, JALR to the sum of the first operand and
      its immediate with bit 0 cleared, and both deliver `p + 4` for a register.
    * No other opcode redirects. -/
theorem transfer_eq (x p a b v1 v2 w : Word) :
    let idex := RvIdu.decode p w a b
    let o := RvExu.out x idex v1 v2
    (∀ op rs1 rs2 imm, decode w = some (.branch op rs1 rs2 imm) →
      o.pcSrc = op.taken v1 v2 ∧ o.pcBranchTarget = p + imm ∧ idex.ctrl.regwrite = false) ∧
    (∀ rd imm, decode w = some (.jal rd imm) →
      o.pcSrc = true ∧ o.pcBranchTarget = p + imm ∧ o.exResult = p + 4 ∧
        idex.ctrl.regwrite = true) ∧
    (∀ rd rs1 imm, decode w = some (.jalr rd rs1 imm) →
      o.pcSrc = true ∧ o.pcBranchTarget = (v1 + imm) &&& ~~~1#32 ∧ o.exResult = p + 4 ∧
        idex.ctrl.regwrite = true) ∧
    (Rv32i.opcode w ≠ 0b1100011 → Rv32i.opcode w ≠ 0b1101111 → Rv32i.opcode w ≠ 0b1100111 →
      o.pcSrc = false) := by
  intro idex o
  refine ⟨fun op rs1 rs2 imm h => ?_, fun rd imm h => ?_, fun rd rs1 imm h => ?_,
    fun hb hj hr => ?_⟩
  · exact transfer_branch x p a b v1 v2 h
  · exact transfer_jal x p a b v1 v2 h
  · exact transfer_jalr x p a b v1 v2 h
  · exact pcSrc_of_opcode_ne hb hj hr x p a b v1 v2

/-- `blt x1, x2, -8` at address 4 with a negative first operand: the target wraps around. -/
theorem transfer_blt :
    (RvExu.out 0 (RvIdu.decode 4 0xfe20cce3 0 0) 0xffffffff 0).pcSrc = true ∧
    (RvExu.out 0 (RvIdu.decode 4 0xfe20cce3 0 0) 0xffffffff 0).pcBranchTarget = 0xfffffffc := by
  have hblt := (transfer_eq 0 4 0 0 0xffffffff 0 0xfe20cce3).1 .blt 1 2 (-8) (by decide)
  exact ⟨hblt.1.trans (by decide), hblt.2.1.trans (by decide)⟩

end URiscV.Hdl
