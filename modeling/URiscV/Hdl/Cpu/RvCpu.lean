import URiscV.Hdl.Cpu.Components

/-!
# The five-stage pipeline

`rv_cpu` with its stage modules `rv_ifu`, `rv_idu`, `rv_exu`, `rv_memu` and
`rv_wbu`, for `DW = 32`. The state holds one record per stage module with the
registers that module owns; the wires between stages are functions of the state.

`RvCpu.clk` is one positive clock edge. The registers built from `dffr` and its
variants have an asynchronous reset: while `rst_n` is low they already hold
their `RESET` value when the edge arrives. `pc_prev`, the two SRAMs and the
register file have no asynchronous reset and sample at the edge.
-/

namespace URiscV.Hdl

/-! ## Pipeline registers -/

/-- The ID/EX pipeline registers. `ctrl` holds the ten control registers that a
    load-use stall flushes as well. -/
structure IdEx where
  imm : Word
  pcPlusShimm : Word
  pcPlus4 : Word
  a : Word
  b : Word
  rs1 : BitVec 5
  rs2 : BitVec 5
  rd : BitVec 5
  alucontrol : BitVec 4
  ctrl : DatapathCtrl

/-- `RESET` and `FLUSH_VAL` of every ID/EX register. -/
def IdEx.zero : IdEx where
  imm := 0
  pcPlusShimm := 0
  pcPlus4 := 0
  a := 0
  b := 0
  rs1 := 0
  rs2 := 0
  rd := 0
  alucontrol := 0
  ctrl := {}

/-- The EX/MEM pipeline registers. -/
structure ExMem where
  aluout : Word
  muxb : Word
  rd : BitVec 5
  regwrite : Bool
  memtoreg : Bool
  memread : Bool
  memwrite : Bool

def ExMem.zero : ExMem where
  aluout := 0
  muxb := 0
  rd := 0
  regwrite := false
  memtoreg := false
  memread := false
  memwrite := false

/-- The MEM/WB pipeline registers; `mwb_dout` is the output register of `u_dmem`. -/
structure MemWb where
  aluout : Word
  rd : BitVec 5
  regwrite : Bool
  memtoreg : Bool

def MemWb.zero : MemWb where
  aluout := 0
  rd := 0
  regwrite := false
  memtoreg := false

/-! ## `rv_ifu` -/

/-- Registers of `rv_ifu`. -/
structure RvIfu where
  pcR : Word
  pcPrev : Word
  uImem : Sram 32
  pcSrcD1 : Bool
  ifidPc : Word
  ifidI : Word

namespace RvIfu

/-- Asynchronous reset. -/
def asyncReset (s : RvIfu) : RvIfu :=
  { s with pcR := 0, pcSrcD1 := false, ifidPc := 0, ifidI := 0 }

/-- `pc_out`, the address presented to the instruction memory. -/
def pcOut (s : RvIfu) (ifFlush : Bool) : Word := if ifFlush then s.pcPrev else s.pcR

/-- `rv_ifu` at a clock edge. -/
def clk (imemDepth : Nat) (rstN pcWrite pcSrc ifidWrite ifFlush : Bool) (pcBranchTarget : Word)
    (s : RvIfu) : RvIfu :=
  let pcIncremented := s.pcR + 4
  let pcNext := if pcSrc then pcBranchTarget else pcIncremented
  -- `pc_prev` and the SRAM have no enable: they move on during a stall
  -- `pc_prev` and the SRAM have no enable: they move on during a stall
  { pcPrev := s.pcR
    pcR := dffre 0 rstN pcWrite pcNext s.pcR
    uImem := s.uImem.clk imemDepth (s.pcOut ifFlush) 0 true false true
    pcSrcD1 := dffr false rstN pcSrc
    ifidPc := dffre 0 rstN ifidWrite s.pcPrev s.ifidPc
    ifidI := dffreSyncFlush 0 0 rstN ifidWrite (ifFlush || pcSrc || s.pcSrcD1) s.uImem.dataOut
      s.ifidI }

end RvIfu

/-! ## `rv_idu` -/

/-- Registers of `rv_idu`. -/
structure RvIdu where
  X : BitVec 5 → Word
  idex : IdEx

namespace RvIdu

def asyncReset (s : RvIdu) : RvIdu := { s with idex := IdEx.zero }

/-- Operand read with the WB-to-ID bypass (`id_rs1_val`, `id_rs2_val`). -/
def idRsVal (s : RvIdu) (writeData : Word) (mwbRd : BitVec 5) (mwbRegwrite : Bool)
    (rs : BitVec 5) : Word :=
  -- the write in WB reaches the register file only at the edge
  -- the write in WB reaches the register file only at the edge
  let mwbRegwriteNonX0 := mwbRegwrite && mwbRd != 0
  if mwbRegwriteNonX0 && mwbRd == rs then writeData else s.X rs

/-- `u_hdu` on the instruction in ID and the one in EX. -/
def uHdu (s : RvIdu) (ifidI : Word) : HduOut :=
  rvHdu (ifidRs1 ifidI) (ifidRs2 ifidI) s.idex.rd s.idex.ctrl.memread

/-- The `din` values of the ID/EX registers for the instruction `ifidI` at
    `ifidPc` with operands `a` and `b`. -/
def decode (ifidPc ifidI a b : Word) : IdEx where
  imm := rvImmgen ifidI
  pcPlusShimm := rvImmgen ifidI + ifidPc
  pcPlus4 := ifidPc + 4
  a := a
  b := b
  rs1 := ifidRs1 ifidI
  rs2 := ifidRs2 ifidI
  rd := ifidRd ifidI
  alucontrol := ifidI.extractLsb' 30 1 ++ ifidI.extractLsb' 12 3
  ctrl := rvDatapathCtrl (ifidOpcode ifidI)

/-- The ID/EX registers at a clock edge: every register is flushed by
    `id_flush`, the control registers by `hazard_flag` too. -/
def idexClk (rstN idFlush hazardFlag : Bool) (din : IdEx) : IdEx where
  rs1 := dffrSyncFlush 0 0 rstN idFlush din.rs1
  rs2 := dffrSyncFlush 0 0 rstN idFlush din.rs2
  rd := dffrSyncFlush 0 0 rstN idFlush din.rd
  a := dffrSyncFlush 0 0 rstN idFlush din.a
  b := dffrSyncFlush 0 0 rstN idFlush din.b
  alucontrol := dffrSyncFlush 0 0 rstN idFlush din.alucontrol
  imm := dffrSyncFlush 0 0 rstN idFlush din.imm
  pcPlusShimm := dffrSyncFlush 0 0 rstN idFlush din.pcPlusShimm
  pcPlus4 := dffrSyncFlush 0 0 rstN idFlush din.pcPlus4
  ctrl := dffrSyncFlush {} {} rstN (idFlush || hazardFlag) din.ctrl

/-- Outside the reset, a flush comes before a bubble. -/
theorem idexClk_true (idFlush hazardFlag : Bool) (din : IdEx) :
    idexClk true idFlush hazardFlag din =
      if idFlush then IdEx.zero
      else if hazardFlag then { din with ctrl := {} }
      else din := by
  cases idFlush <;> cases hazardFlag <;> rfl

/-- `rv_idu` at a clock edge. -/
def clk (rstN : Bool) (ifidI ifidPc writeData : Word) (mwbRd : BitVec 5) (mwbRegwrite : Bool)
    (idFlush : Bool) (s : RvIdu) : RvIdu where
  X := rvRegfile s.X (!rstN) mwbRegwrite mwbRd writeData
  idex := idexClk rstN idFlush (s.uHdu ifidI).hazardFlag
    (decode ifidPc ifidI (s.idRsVal writeData mwbRd mwbRegwrite (ifidRs1 ifidI))
      (s.idRsVal writeData mwbRd mwbRegwrite (ifidRs2 ifidI)))

end RvIdu

/-! ## `rv_exu` -/

namespace RvExu

/-- Forwarding multiplexer of one operand. -/
def forwardMux (x : Word) (forward : BitVec 2) (idexVal writeData exmAluout : Word) : Word :=
  match forward with
  | 0b00#2 => idexVal
  | 0b01#2 => writeData
  | 0b10#2 => exmAluout
  | _ => x

/-- `branch_taken`. -/
def branchTaken (funct3 : BitVec 3) (flags : AluFlags) : Bool :=
  match funct3 with
  | 0#3 => flags.equalFlag -- beq
  | 1#3 => !flags.equalFlag -- bne
  | 4#3 => flags.lessFlag -- blt (signed)
  | 5#3 => flags.greaterEqFlag -- bge
  | 6#3 => flags.unsignedLessFlag -- bltu
  | 7#3 => flags.unsignedGreaterEqFlag -- bgeu
  | _ => false

/-- The combinational results of EX. -/
structure Out where
  pcSrc : Bool
  pcBranchTarget : Word
  exResult : Word

/-- EX on the ID/EX registers once the operands are forwarded: `aluA` is the
    ALU's first operand, `idexMuxb` the second before the immediate mux. -/
def out (x : Word) (idex : IdEx) (aluA idexMuxb : Word) : Out :=
  let aluB := if idex.ctrl.alusrc then idex.imm else idexMuxb
  let aluOut := rvAlu x aluA aluB (rvAluCtrl idex.alucontrol idex.ctrl.aluOp)
  let taken := branchTaken (idex.alucontrol.extractLsb' 0 3) (rvAluFlags aluA aluB)
  { pcSrc := (idex.ctrl.branch && taken) || idex.ctrl.jump
    pcBranchTarget :=
      if idex.ctrl.jalr then aluOut.extractLsb' 1 31 ++ 0#1 else idex.pcPlusShimm
    exResult :=
      match idex.ctrl.resultSrc with
      | 0b00#2 => aluOut
      | 0b01#2 => idex.imm
      | 0b10#2 => idex.pcPlusShimm
      | _ => idex.pcPlus4 }

/-- The EX/MEM registers at a clock edge. -/
def clk (rstN : Bool) (idex : IdEx) (idexMuxb exResult : Word) : ExMem where
  aluout := dffr 0 rstN exResult
  muxb := dffr 0 rstN idexMuxb
  rd := dffr 0 rstN idex.rd
  regwrite := dffr false rstN idex.ctrl.regwrite
  memtoreg := dffr false rstN idex.ctrl.memtoreg
  memread := dffr false rstN idex.ctrl.memread
  memwrite := dffr false rstN idex.ctrl.memwrite

end RvExu

/-! ## `rv_memu` and `rv_wbu` -/

/-- Registers of `rv_memu`. -/
structure RvMemu where
  uDmem : Sram 32
  mwb : MemWb

namespace RvMemu

def asyncReset (s : RvMemu) : RvMemu := { s with mwb := MemWb.zero }

/-- `rv_memu` at a clock edge. -/
def clk (dmemDepth : Nat) (rstN : Bool) (exm : ExMem) (s : RvMemu) : RvMemu where
  uDmem := s.uDmem.clk dmemDepth exm.aluout exm.muxb true exm.memwrite exm.memread
  mwb :=
    { aluout := dffr 0 rstN exm.aluout
      rd := dffr 0 rstN exm.rd
      regwrite := dffr false rstN exm.regwrite
      memtoreg := dffr false rstN exm.memtoreg }

end RvMemu

/-- `rv_wbu`. -/
def rvWbu (mwbDout mwbAluout : Word) (mwbMemtoreg : Bool) : Word :=
  if mwbMemtoreg then mwbDout else mwbAluout

/-! ## `rv_cpu` -/

/-- All registers and memories of `rv_cpu`. -/
structure RvCpu where
  uIfu : RvIfu
  uIdu : RvIdu
  uExu : ExMem
  uMemu : RvMemu

namespace RvCpu

/-- The `rst_n`-low value of every register with an asynchronous reset. -/
def asyncReset (s : RvCpu) : RvCpu where
  uIfu := s.uIfu.asyncReset
  uIdu := s.uIdu.asyncReset
  uExu := ExMem.zero
  uMemu := s.uMemu.asyncReset

section Wires

variable (s : RvCpu)

/-- `write_data`, the output of `u_wbu`. -/
def writeData : Word :=
  rvWbu s.uMemu.uDmem.dataOut s.uMemu.mwb.aluout s.uMemu.mwb.memtoreg

/-- `u_fwdu`. -/
def uFwdu : FwduOut :=
  rvFwdu s.uIdu.idex.rs1 s.uIdu.idex.rs2 s.uExu.rd s.uMemu.mwb.rd s.uExu.regwrite
    s.uMemu.mwb.regwrite

/-- `alu_a`, the forwarded first operand of EX. -/
def aluA (x : Word) : Word :=
  RvExu.forwardMux x s.uFwdu.forwardA s.uIdu.idex.a s.writeData s.uExu.aluout

/-- `idex_muxb`, the forwarded second register operand of EX. -/
def idexMuxb (x : Word) : Word :=
  RvExu.forwardMux x s.uFwdu.forwardB s.uIdu.idex.b s.writeData s.uExu.aluout

/-- The outputs of EX; `x` supplies the undefined bits of this cycle. -/
def exOut (x : Word) : RvExu.Out := RvExu.out x s.uIdu.idex (s.aluA x) (s.idexMuxb x)

def pcSrc (x : Word) : Bool := (s.exOut x).pcSrc
def pcBranchTarget (x : Word) : Word := (s.exOut x).pcBranchTarget

/-- `hazard_flag`. -/
def hazardFlag : Bool := (s.uIdu.uHdu s.uIfu.ifidI).hazardFlag

end Wires

/-- One edge of every register, from the values present before it. -/
def edge (imemDepth dmemDepth : Nat) (rstN : Bool) (x : Word) (s : RvCpu) : RvCpu :=
  let pcSrc := s.pcSrc x
  let idFlush := pcSrc
  let ifFlush := pcSrc
  { uIfu := s.uIfu.clk imemDepth rstN (s.uIdu.uHdu s.uIfu.ifidI).pcWrite pcSrc
      (s.uIdu.uHdu s.uIfu.ifidI).ifidWrite ifFlush (s.pcBranchTarget x)
    uIdu := s.uIdu.clk rstN s.uIfu.ifidI s.uIfu.ifidPc s.writeData s.uMemu.mwb.rd
      s.uMemu.mwb.regwrite idFlush
    uExu := RvExu.clk rstN s.uIdu.idex (s.idexMuxb x) (s.exOut x).exResult
    uMemu := s.uMemu.clk dmemDepth rstN s.uExu }

/-- `rv_cpu` at a positive clock edge. `x` supplies the undefined bits of the
    cycle the edge ends. -/
def clk (imemDepth dmemDepth : Nat) (rstN : Bool) (x : Word) (s : RvCpu) : RvCpu :=
  edge imemDepth dmemDepth rstN x (if rstN then s else s.asyncReset)

end RvCpu

end URiscV.Hdl
