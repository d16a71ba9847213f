import URiscV.Spec.BackEnd

/-!
# One instruction, against RV32I

The decoder, immediate generator, ALU and result muxes of the core, on a word of
the RV32I subset, against the effect that the interpreter gives the instruction.
They agree with one exception: `rv_alu` shifts by `in2[5:0]`, so a shift by a
register whose bit 5 is set is not the RV32I shift (`shiftOk`).

## Key results

- `rvAlu_eq_eval`: the ALU on an integer operation
- `executesAs_of_decode`: registers, stores and control transfer of one instruction
- `step_of_executesAs`: one step of `Arch` against one step of the interpreter
-/

namespace URiscV.Hdl

open Rv32i (Instr IntOp BranchOp State readReg decode effect transfers immI immS immB immU immJ
  opImmOp? opOp? branchOp?)

/-! ## ALU operations -/

/-- The ALU operation of an integer operation. -/
def toAluOp : IntOp → AluOp
  | .add => .add
  | .sub => .sub
  | .sll => .sll
  | .slt => .slt
  | .sltu => .sltu
  | .xor => .xor
  | .srl => .srl
  | .sra => .sra
  | .or => .or
  | .and => .and

/-- A shift of `a` by the low six bits of `b` is the shift by its low five bits. -/
def shiftOk (a b : Word) : IntOp → Bool
  | .sll => a <<< (b.toNat % 64) == a <<< (b.toNat % 32)
  | .srl => a >>> (b.toNat % 64) == a >>> (b.toNat % 32)
  | .sra => a.sshiftRight (b.toNat % 64) == a.sshiftRight (b.toNat % 32)
  | _ => true

/-- Bit 5 of the amount being clear is enough. -/
theorem shiftOk_of_bit5 {b : Word} (h : b.toNat % 64 < 32) (a : Word) (op : IntOp) :
    shiftOk a b op = true := by
  have hmod : b.toNat % 64 = b.toNat % 32 := by omega
  cases op <;> simp [shiftOk, hmod]

/-- The ALU computes the integer operation except for a shift by a wrong amount. -/
theorem rvAlu_eq_eval_iff {a b : Word} {op : IntOp} (x : Word) :
    rvAlu x a b (some (toAluOp op)) = op.eval a b ↔ shiftOk a b op = true := by
  have hamt : (b.extractLsb' 0 6).toNat = b.toNat % 64 := by simp
  cases op <;> simp only [toAluOp, rvAlu, IntOp.eval, shiftOk, hamt, beq_iff_eq]
  case slt => cases a.slt b <;> decide
  case sltu => cases a.ult b <;> decide

/-- The ALU computes the operation, apart from large shifts. -/
theorem rvAlu_eq_eval {a b : Word} {op : IntOp} (h : shiftOk a b op = true) (x : Word) :
    rvAlu x a b (some (toAluOp op)) = op.eval a b :=
  (rvAlu_eq_eval_iff x).mpr h

/-- The ALU control of OP. -/
theorem rvAluCtrl_opOp {f3 : BitVec 3} {f7 : BitVec 7} {op : IntOp} (h : opOp? f3 f7 = some op) :
    rvAluCtrl (f7.extractLsb' 5 1 ++ f3) 0b10 = some (toAluOp op) := by
  unfold opOp? at h
  split at h
  · subst_vars; revert h op f3; decide
  · split at h
    · subst_vars; revert h op f3; decide
    · simp at h

/-- OP-IMM: the shifts fix `imm[11:5]`, elsewhere `funct7` is part of the
    immediate. -/
theorem opImmOp_eq_some {f3 : BitVec 3} {f7 : BitVec 7} {op : IntOp}
    (h : opImmOp? f3 f7 = some op) :
    (op = .sll ∧ f3 = 0b001 ∧ f7 = 0) ∨ (op = .srl ∧ f3 = 0b101 ∧ f7 = 0) ∨
      (op = .sra ∧ f3 = 0b101 ∧ f7 = 0b0100000) ∨
      (f3 ≠ 0b001 ∧ f3 ≠ 0b101 ∧ opImmOp? f3 0 = some op ∧
        op ≠ .sll ∧ op ≠ .srl ∧ op ≠ .sra) := by
  unfold opImmOp? at h
  split at h
  case h_2 =>
    split at h
    · simp_all
    · simp at h
  case h_6 =>
    split at h
    · simp_all
    · split at h
      · simp_all
      · simp at h
  all_goals
    cases h
    simp_all [opImmOp?]

/-- The ALU control of OP-IMM. -/
theorem rvAluCtrl_opImmOp {f3 : BitVec 3} {f7 : BitVec 7} {op : IntOp}
    (h : opImmOp? f3 f7 = some op) :
    rvAluCtrl (f7.extractLsb' 5 1 ++ f3) 0b00 = some (toAluOp op) := by
  have hsplit : ∀ (f3 : BitVec 3) (b : BitVec 1), f3 ≠ 0b001 → f3 ≠ 0b101 →
      rvAluCtrl (b ++ f3) 0b00 = (opImmOp? f3 0).map toAluOp := by decide
  obtain ⟨rfl, rfl, rfl⟩ | ⟨rfl, rfl, rfl⟩ | ⟨rfl, rfl, rfl⟩ | ⟨h1, h5, h0, -⟩ := opImmOp_eq_some h
  · decide
  · decide
  · decide
  · rw [hsplit f3 _ h1 h5, h0, Option.map_some]

/-- A word whose bit 5 is clear is below 32 modulo 64. -/
theorem toNat_mod_of_getLsbD {b : Word} (h : b.getLsbD 5 = false) : b.toNat % 64 < 32 := by
  rw [BitVec.getLsbD, Nat.testBit_eq_decide_div_mod_eq] at h
  simp at h
  omega

/-- The shift immediates RV32I allows are below 32. -/
theorem shiftOk_opImm {w : Word} {op : IntOp}
    (h : opImmOp? (Rv32i.funct3 w) (Rv32i.funct7 w) = some op) (a : Word) :
    shiftOk a (immI w) op = true := by
  have hbit : (immI w).getLsbD 5 = (Rv32i.funct7 w).getLsbD 0 := by
    rw [immI, Rv32i.funct7, BitVec.getLsbD_signExtend]
    simp [BitVec.getElem_extractLsb']
  -- bit 5 of the immediate is bit 0 of `funct7`, which is zero in a legal shift
  -- bit 5 of the immediate is bit 0 of `funct7`, which is zero in a legal shift
  have hclear (h7 : (Rv32i.funct7 w).getLsbD 0 = false) : shiftOk a (immI w) op = true :=
    shiftOk_of_bit5 (toNat_mod_of_getLsbD (hbit.trans h7)) a op
  obtain ⟨-, -, h7⟩ | ⟨-, -, h7⟩ | ⟨-, -, h7⟩ | ⟨-, -, -, h1, h2, h3⟩ := opImmOp_eq_some h
  · exact hclear (by rw [h7]; rfl)
  · exact hclear (by rw [h7]; rfl)
  · exact hclear (by rw [h7]; rfl)
  · cases op <;> trivial

/-! ## Branches -/

/-- The flags of the ALU decide a branch. -/
theorem branchTaken_eq_taken {f3 : BitVec 3} {op : BranchOp} (h : branchOp? f3 = some op)
    (a b : Word) : RvExu.branchTaken f3 (rvAluFlags a b) = op.taken a b := by
  unfold branchOp? at h
  split at h <;> cases h <;>
    simp [RvExu.branchTaken, rvAluFlags, BranchOp.taken, BitVec.sle_eq_not_slt,
      BitVec.ule_eq_not_ult, bne]

/-- The JALR target: the ALU result with bit 0 cleared. -/
theorem clearBit0 (a : Word) : a.extractLsb' 1 31 ++ 0#1 = a &&& ~~~1#32 := by
  apply BitVec.eq_of_getLsbD_eq
  intro i hi
  rw [BitVec.getLsbD_append, BitVec.getLsbD_and, BitVec.getLsbD_not, BitVec.getLsbD_one]
  rcases i with _ | i
  · simp
  · have hlt : i < 31 := by omega
    have hlt' : i + 1 < 32 := hi
    simp [hlt, hlt', Nat.add_comm]

/-! ## Decoding -/

/-- The control signals depend on the opcode only. -/
theorem ctrl_of_opcode {w : Word} {op : BitVec 7} (h : Rv32i.opcode w = op) :
    rvDatapathCtrl (ifidOpcode w) = rvDatapathCtrl op := by rw [← h]; rfl

/-- `rv_immgen` builds the immediate of the format of each opcode. -/
theorem rvImmgen_of_opcode {w : Word} {op : BitVec 7} : Rv32i.opcode w = op → rvImmgen w =
    match op with
    | 0b1101111#7 => immJ w
    | 0b1100111#7 => immI w
    | 0b0010011#7 => immI w
    | 0b0000011#7 => immI w
    | 0b0100011#7 => immS w
    | 0b1100011#7 => immB w
    | 0b0110111#7 => immU w
    | 0b0010111#7 => immU w
    | _ => 0 := by
  rintro rfl
  have hU : (immU w).signExtend 32 = immU w := BitVec.signExtend_eq _
  rw [← hU]
  rfl

/-- The memory wraps where that of the interpreter does. -/
theorem wordAddr_eq_wordIndex (d : Nat) (addr : Word) :
    Sram.wordAddr (2 ^ d) 32 addr = Rv32i.wordIndex (2 ^ d) addr := by
  rw [Sram.wordAddr_eq, Rv32i.wordIndex, clog2, Nat.clog_pow 2 d (by omega)]

/-! ## One instruction -/

/-- Registers and data memory of an interpreter state. -/
def archOf (σ : State) : Arch := ⟨σ.x, σ.mem⟩

/-- The instruction is no shift that `rv_alu` gets wrong. -/
def shiftsOk (σ : State) : Instr → Bool
  | .op op rd rs1 rs2 => rd == 0 || shiftOk (readReg σ.x rs1) (readReg σ.x rs2) op
  | _ => true

section Instruction

variable {d : Nat} {σ : State} {w : Word} {i : Instr}

/-- Register write and store of an instruction, a write to `x0` left out. -/
def isaRetire (dmemDepth : Nat) (σ : State) (i : Instr) : Retire where
  regWrite := (effect dmemDepth σ i).regWrite.filter fun p => p.1 != 0
  store := (effect dmemDepth σ i).store

/-- The core does with the word what RV32I does with the instruction: it
    transfers control, to the right address, exactly when the instruction does,
    and it writes and stores the same. -/
structure ExecutesAs (dmemDepth : Nat) (x : Word) (σ : State) (w : Word) (i : Instr) : Prop where
  pcSrc : ((archOf σ).ex x (σ.pc, w)).pcSrc = transfers σ i
  target : transfers σ i = true →
    ((archOf σ).ex x (σ.pc, w)).pcBranchTarget = (effect dmemDepth σ i).nextPc
  retire : (archOf σ).retire dmemDepth x (σ.pc, w) = isaRetire dmemDepth σ i

/-- A write to `x0` is none. -/
theorem regEvent_true (rd : BitVec 5) (v : Word) :
    regEvent true rd v = (some (rd, v)).filter fun p => p.1 != 0 := by
  by_cases h : rd = 0#5 <;> simp [regEvent, Option.filter, h]

/-- The function fields as the core takes them. -/
theorem alucontrol_eq (w : Word) : w.extractLsb' 30 1 ++ w.extractLsb' 12 3 =
    (Rv32i.funct7 w).extractLsb' 5 1 ++ Rv32i.funct3 w := by
  rw [Rv32i.funct7, BitVec.extractLsb'_extractLsb'_add (by omega)]
  rfl

/-- And `funct3` in them. -/
theorem alucontrol_funct3 (w : Word) :
    (w.extractLsb' 30 1 ++ w.extractLsb' 12 3).extractLsb' 0 3 = Rv32i.funct3 w := by
  rw [BitVec.extractLsb'_append_eq_of_add_le (by omega)]
  apply BitVec.eq_of_getLsbD_eq
  intro i hi
  simp [Rv32i.funct3, hi]

/-- EX on the decoded word at `p`, with its control bits and its immediate, for any
    operands `v1` and `v2` that are forwarded to it. -/
theorem out_decode {c : DatapathCtrl} {imm : Word} (hctrl : rvDatapathCtrl (ifidOpcode w) = c)
    (himm : rvImmgen w = imm) (x p a b v1 v2 : Word) :
    RvExu.out x (RvIdu.decode p w a b) v1 v2 =
      let aluB := if c.alusrc then imm else v2
      let aluOut := rvAlu x v1 aluB
        (rvAluCtrl ((Rv32i.funct7 w).extractLsb' 5 1 ++ Rv32i.funct3 w) c.aluOp)
      { pcSrc := (c.branch && RvExu.branchTaken (Rv32i.funct3 w) (rvAluFlags v1 aluB)) || c.jump
        pcBranchTarget := if c.jalr then aluOut &&& ~~~1#32 else imm + p
        exResult :=
          match c.resultSrc with
          | 0b00#2 => aluOut
          | 0b01#2 => imm
          | 0b10#2 => imm + p
          | _ => p + 4 } := by
  subst hctrl himm
  simp only [← clearBit0, ← alucontrol_eq]
  rw [← alucontrol_funct3]
  rfl

/-- What EX computes with the registers of the interpreter. -/
theorem ex_eq_out {c : DatapathCtrl} {imm : Word} (hctrl : rvDatapathCtrl (ifidOpcode w) = c)
    (himm : rvImmgen w = imm) (x : Word) :
    (archOf σ).ex x (σ.pc, w) =
      let a := readReg σ.x (Rv32i.rs1 w)
      let b := readReg σ.x (Rv32i.rs2 w)
      let aluB := if c.alusrc then imm else b
      let aluOut := rvAlu x a aluB
        (rvAluCtrl ((Rv32i.funct7 w).extractLsb' 5 1 ++ Rv32i.funct3 w) c.aluOp)
      { pcSrc := (c.branch && RvExu.branchTaken (Rv32i.funct3 w) (rvAluFlags a aluB)) || c.jump
        pcBranchTarget := if c.jalr then aluOut &&& ~~~1#32 else imm + σ.pc
        exResult :=
          match c.resultSrc with
          | 0b00#2 => aluOut
          | 0b01#2 => imm
          | 0b10#2 => imm + σ.pc
          | _ => σ.pc + 4 } :=
  out_decode hctrl himm x _ _ _ _ _

/-- The effect of a word that neither loads nor stores. -/
theorem retire_of_alu {c : DatapathCtrl} (hctrl : rvDatapathCtrl (ifidOpcode w) = c)
    (hload : c.memtoreg = false) (hstore : c.memwrite = false) (x : Word) :
    (archOf σ).retire (2 ^ d) x (σ.pc, w) =
      { regWrite :=
          regEvent c.regwrite (Rv32i.rd w) ((archOf σ).ex x (σ.pc, w)).exResult } := by
  subst hctrl
  simp only [Arch.retire, Hdl.retire, Arch.idex, RvIdu.decode, hload, hstore, memResult, storeEvent]
  rfl

/-- Every instruction of the subset executes as the interpreter says. -/
theorem executesAs_of_decode (h : decode w = some i) (hsh : shiftsOk σ i = true) (x : Word) :
    ExecutesAs (2 ^ d) x σ w i := by
  unfold decode at h
  split at h
  case h_1 hop =>
    -- LUI
    cases h
    have hctrl : rvDatapathCtrl (ifidOpcode w) = { regwrite := true, resultSrc := 0b01 } :=
      ctrl_of_opcode hop
    have himm : rvImmgen w = immU w := rvImmgen_of_opcode hop
    have hex := @ex_eq_out σ w _ _ hctrl himm x
    constructor
    · rw [hex]; rfl
    · simp [transfers]
    · rw [retire_of_alu hctrl rfl rfl, hex, regEvent_true]; rfl
  case h_2 hop =>
    -- AUIPC
    cases h
    have hctrl : rvDatapathCtrl (ifidOpcode w) = { regwrite := true, resultSrc := 0b10 } :=
      ctrl_of_opcode hop
    have himm : rvImmgen w = immU w := rvImmgen_of_opcode hop
    have hex := @ex_eq_out σ w _ _ hctrl himm x
    constructor
    · rw [hex]; rfl
    · simp [transfers]
    · rw [retire_of_alu hctrl rfl rfl, hex, regEvent_true]
      rw [isaRetire, effect, BitVec.add_comm σ.pc (immU w)]
      rfl
  case h_3 hop =>
    -- JAL
    cases h
    have hctrl : rvDatapathCtrl (ifidOpcode w) =
        { jump := true, regwrite := true, resultSrc := 0b11 } := ctrl_of_opcode hop
    have himm : rvImmgen w = immJ w := rvImmgen_of_opcode hop
    have hex := @ex_eq_out σ w _ _ hctrl himm x
    constructor
    · rw [hex]; rfl
    · intro _; rw [hex]; exact BitVec.add_comm _ _
    · rw [retire_of_alu hctrl rfl rfl, hex, regEvent_true]; rfl
  case h_4 hop =>
    -- JALR
    obtain ⟨-, rfl⟩ : Rv32i.funct3 w = 0 ∧ Instr.jalr (Rv32i.rd w) (Rv32i.rs1 w) (immI w) = i := by
      simpa using h
    have hctrl : rvDatapathCtrl (ifidOpcode w) =
        { jump := true, jalr := true, alusrc := true, regwrite := true, resultSrc := 0b11,
          aluOp := 0b11 } := ctrl_of_opcode hop
    have himm : rvImmgen w = immI w := rvImmgen_of_opcode hop
    have hex := @ex_eq_out σ w _ _ hctrl himm x
    constructor
    · rw [hex]; rfl
    · intro _; rw [hex]; rfl
    · rw [retire_of_alu hctrl rfl rfl, hex, regEvent_true]; rfl
  case h_5 hop =>
    -- branches
    obtain ⟨op, hbr, rfl⟩ := Option.map_eq_some_iff.mp h
    have hctrl : rvDatapathCtrl (ifidOpcode w) = { branch := true, aluOp := 0b01 } :=
      ctrl_of_opcode hop
    have himm : rvImmgen w = immB w := rvImmgen_of_opcode hop
    have hex := @ex_eq_out σ w _ _ hctrl himm x
    constructor
    · rw [hex]
      simp only [Bool.false_eq_true, if_false, branchTaken_eq_taken hbr, transfers, Bool.true_and,
        Bool.or_false]
    · intro ht
      rw [hex]
      simp only [transfers] at ht
      simp only [effect, ht, if_true, BitVec.add_comm, Bool.false_eq_true, if_false]
    · rw [retire_of_alu hctrl rfl rfl]; rfl
  case h_6 hop =>
    -- LW
    obtain ⟨-, rfl⟩ : Rv32i.funct3 w = 0b010 ∧
        Instr.lw (Rv32i.rd w) (Rv32i.rs1 w) (immI w) = i := by simpa using h
    have hctrl : rvDatapathCtrl (ifidOpcode w) =
        { alusrc := true, memtoreg := true, regwrite := true, memread := true, aluOp := 0b11 } :=
      ctrl_of_opcode hop
    have himm : rvImmgen w = immI w := rvImmgen_of_opcode hop
    have hex := @ex_eq_out σ w _ _ hctrl himm x
    constructor
    · rw [hex]; rfl
    · simp [transfers]
    · simp only [Arch.retire, Hdl.retire, Arch.idex, RvIdu.decode, hctrl, hex, memResult,
        wordAddr_eq_wordIndex, regEvent_true, storeEvent]
      rfl
  case h_7 hop =>
    -- SW
    obtain ⟨-, rfl⟩ : Rv32i.funct3 w = 0b010 ∧
        Instr.sw (Rv32i.rs1 w) (Rv32i.rs2 w) (immS w) = i := by simpa using h
    have hctrl : rvDatapathCtrl (ifidOpcode w) =
        { alusrc := true, memwrite := true, aluOp := 0b11 } := ctrl_of_opcode hop
    have himm : rvImmgen w = immS w := rvImmgen_of_opcode hop
    have hex := @ex_eq_out σ w _ _ hctrl himm x
    constructor
    · rw [hex]; rfl
    · simp [transfers]
    · simp only [Arch.retire, Hdl.retire, Arch.idex, RvIdu.decode, hctrl, hex]
      rfl
  case h_8 hop =>
    -- OP-IMM
    obtain ⟨op, hopi, rfl⟩ := Option.map_eq_some_iff.mp h
    have hctrl : rvDatapathCtrl (ifidOpcode w) = { alusrc := true, regwrite := true } :=
      ctrl_of_opcode hop
    have himm : rvImmgen w = immI w := rvImmgen_of_opcode hop
    have hex := @ex_eq_out σ w _ _ hctrl himm x
    constructor
    · rw [hex]; rfl
    · simp [transfers]
    · rw [retire_of_alu hctrl rfl rfl, hex, regEvent_true]
      simp only [rvAluCtrl_opImmOp hopi, if_true, rvAlu_eq_eval (shiftOk_opImm hopi _)]
      rfl
  case h_9 hop =>
    -- OP
    obtain ⟨op, hopr, rfl⟩ := Option.map_eq_some_iff.mp h
    have hctrl : rvDatapathCtrl (ifidOpcode w) = { regwrite := true, aluOp := 0b10 } :=
      ctrl_of_opcode hop
    have himm : rvImmgen w = 0 := rvImmgen_of_opcode hop
    have hex := @ex_eq_out σ w _ _ hctrl himm x
    constructor
    · rw [hex]; rfl
    · simp [transfers]
    · rw [retire_of_alu hctrl rfl rfl, hex]
      by_cases hrd : Rv32i.rd w = 0#5
      · -- a result for `x0` is dropped on both sides
        simp [isaRetire, effect, regEvent, Option.filter, hrd]
      · have hok : shiftOk (readReg σ.x (Rv32i.rs1 w)) (readReg σ.x (Rv32i.rs2 w)) op = true := by
          simpa [shiftsOk, hrd] using hsh
        simp only [regEvent_true, rvAluCtrl_opOp hopr, Bool.false_eq_true, if_false,
          rvAlu_eq_eval hok]
        rfl
  case h_10 => cases h

/-- The effect of an instruction, in the terms of the core. -/
theorem apply_isaRetire (σ : State) (i : Instr) :
    (archOf σ).apply (2 ^ d) (isaRetire (2 ^ d) σ i) =
      archOf ((effect (2 ^ d) σ i).apply (2 ^ d) σ) := by
  simp only [Arch.apply, archOf, Rv32i.Effect.apply, isaRetire, Arch.mk.injEq]
  constructor
  · cases (effect (2 ^ d) σ i).regWrite with
    | none => rfl
    | some p =>
      by_cases hrd : p.1 = 0#5 <;> simp [Option.filter, applyReg, Rv32i.writeReg, hrd]
  · cases (effect (2 ^ d) σ i).store with
    | none => rfl
    | some p =>
      have hlt : Rv32i.wordIndex (2 ^ d) p.1 < 2 ^ d := Nat.mod_lt _ (Nat.two_pow_pos d)
      simp [applyStore, wordAddr_eq_wordIndex, Sram.write, hlt]

/-- One step of `Arch` on the word is one step of the interpreter. -/
theorem step_of_executesAs {x : Word} (h : ExecutesAs (2 ^ d) x σ w i) :
    (archOf σ).step (2 ^ d) x (σ.pc, w) = archOf ((effect (2 ^ d) σ i).apply (2 ^ d) σ) := by
  rw [Arch.step, h.retire, apply_isaRetire]

end Instruction

end URiscV.Hdl
