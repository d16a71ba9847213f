import URiscV.Hdl.Common

/-!
# CPU components

The combinational blocks of `hdl/cpu/components`, the main decoder
`rv_datapath_ctrl` and the register file, for `DW = 32`. Instruction fields are
the part-selects the RTL takes; `w.extractLsb' lo n` is `w[lo +: n]`.
-/

namespace URiscV.Hdl

/-! ## Instruction fields -/

def ifidOpcode (i : Word) : BitVec 7 := i.extractLsb' 0 7
def ifidRd (i : Word) : BitVec 5 := i.extractLsb' 7 5
def ifidRs1 (i : Word) : BitVec 5 := i.extractLsb' 15 5
def ifidRs2 (i : Word) : BitVec 5 := i.extractLsb' 20 5

/-! ## Immediate generation -/

/-- `rv_immgen`. -/
def rvImmgen (in_ : Word) : Word :=
  match in_.extractLsb' 0 7 with
  -- J-Type
  | 0b1101111#7 => (in_.extractLsb' 31 1 ++ in_.extractLsb' 12 8 ++ in_.extractLsb' 20 1 ++
      in_.extractLsb' 21 10 ++ 0#1).signExtend 32
  -- I-Type JALR, imm, load
  | 0b1100111#7 => (in_.extractLsb' 20 12).signExtend 32
  | 0b0010011#7 => (in_.extractLsb' 20 12).signExtend 32
  | 0b0000011#7 => (in_.extractLsb' 20 12).signExtend 32
  -- S-Type
  | 0b0100011#7 => (in_.extractLsb' 25 7 ++ in_.extractLsb' 7 5).signExtend 32
  -- B-Type
  | 0b1100011#7 => (in_.extractLsb' 31 1 ++ in_.extractLsb' 7 1 ++ in_.extractLsb' 25 6 ++
      in_.extractLsb' 8 4 ++ 0#1).signExtend 32
  -- U-Type LUI, AUIPC
  | 0b0110111#7 => (in_.extractLsb' 12 20 ++ 0#12).signExtend 32
  | 0b0010111#7 => (in_.extractLsb' 12 20 ++ 0#12).signExtend 32
  | _ => 0

/-! ## Main decoder -/

/-- The outputs of `rv_datapath_ctrl`, all low by default. -/
structure DatapathCtrl where
  aluOp : BitVec 2 := 0b00
  branch : Bool := false
  jump : Bool := false
  jalr : Bool := false
  resultSrc : BitVec 2 := 0b00
  memread : Bool := false
  memtoreg : Bool := false
  memwrite : Bool := false
  alusrc : Bool := false
  regwrite : Bool := false
deriving DecidableEq, Repr

/-- `rv_datapath_ctrl`. -/
def rvDatapathCtrl (opcode : BitVec 7) : DatapathCtrl :=
  match opcode with
  -- RV32I_R_OPCODE
  | 0b0110011#7 => { regwrite := true, aluOp := 0b10 }
  -- RV32I_I_ALSL_OPCODE
  | 0b0010011#7 => { alusrc := true, regwrite := true }
  -- RV32I_I_LOAD_OPCODE
  | 0b0000011#7 =>
    { alusrc := true, memtoreg := true, regwrite := true, memread := true, aluOp := 0b11 }
  -- RV32I_I_JALR_OPCODE
  | 0b1100111#7 =>
    { jump := true, jalr := true, alusrc := true, regwrite := true, resultSrc := 0b11,
      aluOp := 0b11 }
  -- RV32I_S_OPCODE
  | 0b0100011#7 => { alusrc := true, memwrite := true, aluOp := 0b11 }
  -- RV32I_B_OPCODE
  | 0b1100011#7 => { branch := true, aluOp := 0b01 }
  -- RV32I_J_OPCODE
  | 0b1101111#7 => { jump := true, regwrite := true, resultSrc := 0b11 }
  -- RV32I_U_LUI_OPCODE
  | 0b0110111#7 => { regwrite := true, resultSrc := 0b01 }
  -- RV32I_U_AUIPC_OPCODE
  | 0b0010111#7 => { regwrite := true, resultSrc := 0b10 }
  | _ => {}

/-! ## ALU -/

/-- `alu_op_e`; the value `4'bxxxx` the controller emits for an undefined
    operation is `none` below. -/
inductive AluOp where
  | and | or | add | sll | srl | sra | sub | slt | xor | sltu | nor
deriving DecidableEq, Repr

/-- `rv_alu_ctrl`; `control` is `{funct7[5], funct3}`. -/
def rvAluCtrl (control : BitVec 4) (aluOp : BitVec 2) : Option AluOp :=
  let funct3 := control.extractLsb' 0 3
  let control3 := control.getLsbD 3
  if aluOp = 0b11 then some .add -- LOAD/STORE address
  else if aluOp = 0b01 then some .sub
  else if aluOp = 0b10 ∧ control3 = false ∧ funct3 = 0b000 then some .add
  else if aluOp = 0b10 ∧ control3 = true ∧ funct3 = 0b000 then some .sub
  else if aluOp = 0b10 ∧ control3 = false ∧ funct3 = 0b111 then some .and
  else if aluOp = 0b10 ∧ control3 = false ∧ funct3 = 0b110 then some .or
  else if aluOp = 0b10 ∧ control3 = false ∧ funct3 = 0b001 then some .sll
  else if aluOp = 0b10 ∧ control3 = false ∧ funct3 = 0b101 then some .srl
  else if aluOp = 0b10 ∧ control3 = true ∧ funct3 = 0b101 then some .sra
  else if aluOp = 0b10 ∧ funct3 = 0b100 ∧ control3 = false then some .xor
  else if aluOp = 0b10 ∧ funct3 = 0b010 ∧ control3 = false then some .slt
  else if aluOp = 0b10 ∧ funct3 = 0b011 ∧ control3 = false then some .sltu
  else if aluOp = 0b00 ∧ funct3 = 0b000 then some .add
  else if aluOp = 0b00 ∧ funct3 = 0b001 then some .sll
  else if aluOp = 0b00 ∧ funct3 = 0b010 then some .slt
  else if aluOp = 0b00 ∧ funct3 = 0b011 then some .sltu
  else if aluOp = 0b00 ∧ funct3 = 0b101 ∧ control3 = false then some .srl
  else if aluOp = 0b00 ∧ funct3 = 0b101 ∧ control3 = true then some .sra
  else if aluOp = 0b00 ∧ funct3 = 0b111 then some .and
  else if aluOp = 0b00 ∧ funct3 = 0b110 then some .or
  else if aluOp = 0b00 ∧ funct3 = 0b100 then some .xor
  else none

/-- The `out` port of `rv_alu`; `x` stands for the bits of an undefined
    operation. Shift amounts are the six bits `in2[5:0]`. -/
def rvAlu (x in1 in2 : Word) (aluOp : Option AluOp) : Word :=
  match aluOp with
  | some .and => in1 &&& in2
  | some .or => in1 ||| in2
  | some .add => in1 + in2
  | some .sll => in1 <<< (in2.extractLsb' 0 6).toNat
  | some .srl => in1 >>> (in2.extractLsb' 0 6).toNat
  | some .sra => in1.sshiftRight (in2.extractLsb' 0 6).toNat
  | some .sub => in1 - in2
  | some .sltu => (BitVec.ofBool (in1.ult in2)).setWidth 32
  | some .slt => (BitVec.ofBool (in1.slt in2)).setWidth 32
  | some .nor => ~~~(in1 ||| in2)
  | some .xor => in1 ^^^ in2
  | none => x

/-- The comparison flags of `rv_alu`. -/
structure AluFlags where
  equalFlag : Bool
  lessFlag : Bool
  greaterEqFlag : Bool
  unsignedLessFlag : Bool
  unsignedGreaterEqFlag : Bool

def rvAluFlags (in1 in2 : Word) : AluFlags where
  equalFlag := in1 == in2
  lessFlag := in1.slt in2
  greaterEqFlag := in2.sle in1
  unsignedLessFlag := in1.ult in2
  unsignedGreaterEqFlag := in2.ule in1

/-! ## Forwarding and hazards -/

/-- The forwarding selects of `rv_fwdu`: `2'b10` takes EX/MEM, `2'b01` MEM/WB. -/
structure FwduOut where
  forwardA : BitVec 2
  forwardB : BitVec 2

/-- The select of one operand in `rv_fwdu`. -/
def forwardSel (idexRs exmRd mwbRd : BitVec 5) (exmRegwrite mwbRegwrite : Bool) : BitVec 2 :=
  -- the younger of two producers goes first
  -- the younger of two producers goes first
  if exmRegwrite && exmRd != 0 && exmRd == idexRs then 0b10
  else if mwbRegwrite && mwbRd != 0 && mwbRd == idexRs then 0b01
  else 0b00

/-- `rv_fwdu`. -/
def rvFwdu (idexRs1 idexRs2 exmRd mwbRd : BitVec 5) (exmRegwrite mwbRegwrite : Bool) : FwduOut where
  forwardA := forwardSel idexRs1 exmRd mwbRd exmRegwrite mwbRegwrite
  forwardB := forwardSel idexRs2 exmRd mwbRd exmRegwrite mwbRegwrite

/-- The outputs of `rv_hdu`. -/
structure HduOut where
  pcWrite : Bool
  ifidWrite : Bool
  hazardFlag : Bool

/-- `rv_hdu`. -/
def rvHdu (ifidRs1 ifidRs2 idexRd : BitVec 5) (memRead : Bool) : HduOut :=
  if memRead && (idexRd == ifidRs1 || idexRd == ifidRs2) then
    { hazardFlag := true, ifidWrite := false, pcWrite := false }
  else
    { hazardFlag := false, ifidWrite := true, pcWrite := true }

/-- The pc is held in the cycle of a hazard. -/
@[simp] theorem rvHdu_pcWrite (r1 r2 rd : BitVec 5) (mr : Bool) :
    (rvHdu r1 r2 rd mr).pcWrite = !(rvHdu r1 r2 rd mr).hazardFlag := by
  unfold rvHdu; split <;> rfl

/-- And so is IF/ID. -/
@[simp] theorem rvHdu_ifidWrite (r1 r2 rd : BitVec 5) (mr : Bool) :
    (rvHdu r1 r2 rd mr).ifidWrite = !(rvHdu r1 r2 rd mr).hazardFlag := by
  unfold rvHdu; split <;> rfl

/-- The hazard unit fires exactly on a load whose destination is a source field
    of the instruction in ID. -/
theorem rvHdu_hazardFlag (r1 r2 rd : BitVec 5) (mr : Bool) :
    (rvHdu r1 r2 rd mr).hazardFlag = (mr && (rd == r1 || rd == r2)) := by
  unfold rvHdu; split <;> simp_all

/-! ## Register file -/

/-- `rv_regfile` at a clock edge with `rst` (synchronous, active high). -/
def rvRegfile (X : BitVec 5 → Word) (rst write : Bool) (writeR : BitVec 5) (writeData : Word) :
    BitVec 5 → Word :=
  let writeDataProtected := if writeR = 0 then 0 else writeData
  if rst then fun _ => 0
  else if write then Function.update X writeR writeDataProtected
  else X

end URiscV.Hdl
