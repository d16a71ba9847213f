import URiscV.ForStd.Clocked
import URiscV.Hdl.Cpu.RvCpu

/-!
# One clock edge of the pipeline

What an edge with `rst_n` high does to each group of registers, and the state a
reset of at least one edge leaves. Later modules use these equations and never
unfold `RvCpu.clk`.
-/

namespace URiscV.Hdl.RvCpu

variable {imemDepth dmemDepth : Nat}

/-! ## Reset -/

/-- The state after a reset of at least one clock edge, for given contents of
    the two memories. -/
def boot (imem dmem : Nat → Word) : RvCpu where
  uIfu :=
    { pcR := 0, pcPrev := 0, uImem := { memory := imem, dataOut := imem 0 }, pcSrcD1 := false,
      ifidPc := 0, ifidI := 0 }
  uIdu := { X := fun _ => 0, idex := IdEx.zero }
  uExu := ExMem.zero
  uMemu := { uDmem := { memory := dmem, dataOut := 0 }, mwb := MemWb.zero }

/-- One edge with `rst_n` low. -/
theorem clk_reset (x : Word) (s : RvCpu) :
    s.clk imemDepth dmemDepth false x = boot s.uIfu.uImem.memory s.uMemu.uDmem.memory := by
  have hsrc : s.asyncReset.pcSrc x = false := rfl
  have hw : Sram.wordAddr imemDepth 32 0#32 = 0 := by simp [Sram.wordAddr]
  simp only [clk, edge, hsrc, Bool.false_eq_true, if_false]
  simp [boot, RvIfu.clk, RvIdu.clk, RvMemu.clk, RvExu.clk, RvIdu.idexClk, rvRegfile, asyncReset,
    RvIfu.asyncReset, RvIdu.asyncReset, RvMemu.asyncReset, RvIfu.pcOut, Sram.clk, Sram.read,
    IdEx.zero, ExMem.zero, MemWb.zero, hw]

/-- A reset of any number of edges, at least one, leaves `boot`. -/
theorem run_reset (xs : Nat → Word) (s : RvCpu) (k : Nat) :
    Clocked.run (clk imemDepth dmemDepth false) xs s (k + 1) =
      boot s.uIfu.uImem.memory s.uMemu.uDmem.memory := by
  induction k with
  | zero => exact clk_reset _ _
  | succ k ih => rw [Clocked.run_succ, ih, clk_reset]; rfl

/-- A hazard holds the pc. -/
theorem uHdu_pcWrite (s : RvCpu) : (s.uIdu.uHdu s.uIfu.ifidI).pcWrite = !s.hazardFlag :=
  rvHdu_pcWrite _ _ _ _

/-- And IF/ID. -/
theorem uHdu_ifidWrite (s : RvCpu) : (s.uIdu.uHdu s.uIfu.ifidI).ifidWrite = !s.hazardFlag :=
  rvHdu_ifidWrite _ _ _ _

/-! ## The front end at an edge -/

section Edge

variable (x : Word) (s : RvCpu)

/-- A one-edge successor with `rst_n` high. -/
abbrev next (imemDepth dmemDepth : Nat) (x : Word) (s : RvCpu) : RvCpu :=
  s.clk imemDepth dmemDepth true x

/-- The pc of the word that is being fetched. -/
@[simp] theorem next_pcPrev : (s.next imemDepth dmemDepth x).uIfu.pcPrev = s.uIfu.pcR := rfl

/-- The pc waits, is redirected, or goes on. -/
theorem next_pcR : (s.next imemDepth dmemDepth x).uIfu.pcR =
    if s.hazardFlag then s.uIfu.pcR
    else if s.pcSrc x then s.pcBranchTarget x else s.uIfu.pcR + 4 := by
  simp only [next, clk, edge, RvIfu.clk, if_true, dffre_true, uHdu_pcWrite]
  cases s.hazardFlag <;> simp

/-- The program does not change. -/
@[simp] theorem next_imem : (s.next imemDepth dmemDepth x).uIfu.uImem.memory =
    s.uIfu.uImem.memory := by
  simp [next, clk, edge, RvIfu.clk, Sram.clk]

/-- The word that is fetched. -/
theorem next_imemOut : (s.next imemDepth dmemDepth x).uIfu.uImem.dataOut =
    s.uIfu.uImem.memory
      (Sram.wordAddr imemDepth 32 (if s.pcSrc x then s.uIfu.pcPrev else s.uIfu.pcR)) := by
  simp [next, clk, edge, RvIfu.clk, RvIfu.pcOut, Sram.clk, Sram.read]

/-- A redirect is remembered for a cycle. -/
@[simp] theorem next_pcSrcD1 : (s.next imemDepth dmemDepth x).uIfu.pcSrcD1 = s.pcSrc x := rfl

/-- The pc in IF/ID. -/
theorem next_ifidPc : (s.next imemDepth dmemDepth x).uIfu.ifidPc =
    if s.hazardFlag then s.uIfu.ifidPc else s.uIfu.pcPrev := by
  simp only [next, clk, edge, RvIfu.clk, if_true, dffre_true, uHdu_ifidWrite]
  cases s.hazardFlag <;> simp

/-- The word in IF/ID is flushed, held, or the one fetched. -/
theorem next_ifidI : (s.next imemDepth dmemDepth x).uIfu.ifidI =
    if s.pcSrc x || s.uIfu.pcSrcD1 then 0
    else if s.hazardFlag then s.uIfu.ifidI else s.uIfu.uImem.dataOut := by
  simp only [next, clk, edge, RvIfu.clk, if_true, dffreSyncFlush_true, Bool.or_self,
    uHdu_ifidWrite]
  cases s.hazardFlag <;> simp

/-! ## The back end at an edge -/

/-- The register file is written from WB. -/
theorem next_X : (s.next imemDepth dmemDepth x).uIdu.X =
    rvRegfile s.uIdu.X false s.uMemu.mwb.regwrite s.uMemu.mwb.rd s.writeData := rfl

/-- The ID/EX input of the instruction in IF/ID. -/
def idexDin (s : RvCpu) : IdEx :=
  RvIdu.decode s.uIfu.ifidPc s.uIfu.ifidI
    (s.uIdu.idRsVal s.writeData s.uMemu.mwb.rd s.uMemu.mwb.regwrite (ifidRs1 s.uIfu.ifidI))
    (s.uIdu.idRsVal s.writeData s.uMemu.mwb.rd s.uMemu.mwb.regwrite (ifidRs2 s.uIfu.ifidI))

/-- ID/EX after an edge: empty behind a redirect, a bubble under a stall, the
    decoded instruction otherwise. -/
theorem next_idex : (s.next imemDepth dmemDepth x).uIdu.idex =
    if s.pcSrc x then IdEx.zero
    else if s.hazardFlag then { s.idexDin with ctrl := {} }
    else s.idexDin :=
  RvIdu.idexClk_true _ _ _

/-- What EX passes on to MEM. -/
theorem next_exm : (s.next imemDepth dmemDepth x).uExu =
    { aluout := (s.exOut x).exResult, muxb := s.idexMuxb x, rd := s.uIdu.idex.rd,
      regwrite := s.uIdu.idex.ctrl.regwrite, memtoreg := s.uIdu.idex.ctrl.memtoreg,
      memread := s.uIdu.idex.ctrl.memread, memwrite := s.uIdu.idex.ctrl.memwrite } := rfl

/-- What MEM passes on to WB. -/
theorem next_mwb : (s.next imemDepth dmemDepth x).uMemu.mwb =
    { aluout := s.uExu.aluout, rd := s.uExu.rd, regwrite := s.uExu.regwrite,
      memtoreg := s.uExu.memtoreg } := rfl

/-- The data memory is accessed from MEM. -/
theorem next_dmem : (s.next imemDepth dmemDepth x).uMemu.uDmem =
    s.uMemu.uDmem.clk dmemDepth s.uExu.aluout s.uExu.muxb true s.uExu.memwrite s.uExu.memread := rfl

end Edge

/-! ## Control bits -/

/-- `rv_datapath_ctrl` drives at most one of: a memory read (whose result goes
    to a register), a control transfer; and a load never stores. -/
structure CtrlOk (c : DatapathCtrl) : Prop where
  memread_of_memtoreg : c.memtoreg = true → c.memread = true
  not_transfer_of_memread : c.memread = true → c.branch = false ∧ c.jump = false

/-- The control signals of a bubble are consistent. -/
theorem ctrlOk_zero : CtrlOk {} := by constructor <;> simp

/-- And so are those of the decoder. -/
theorem ctrlOk_rvDatapathCtrl (opcode : BitVec 7) : CtrlOk (rvDatapathCtrl opcode) := by
  unfold rvDatapathCtrl
  split <;> constructor <;> simp

/-- A redirect needs a branch or a jump in EX. -/
theorem transfer_of_pcSrc {x : Word} {s : RvCpu} (h : s.pcSrc x = true) :
    s.uIdu.idex.ctrl.branch = true ∨ s.uIdu.idex.ctrl.jump = true := by
  simp only [pcSrc, exOut, RvExu.out, Bool.or_eq_true, Bool.and_eq_true] at h
  exact h.imp (·.1) id

/-- With no branch and no jump in EX there is no redirect. -/
theorem pcSrc_eq_false {x : Word} {s : RvCpu} (hb : s.uIdu.idex.ctrl.branch = false)
    (hj : s.uIdu.idex.ctrl.jump = false) : s.pcSrc x = false := by
  simp [pcSrc, exOut, RvExu.out, hb, hj]

/-- A hazard is a load in EX whose register is named in IF/ID. -/
theorem hazardFlag_eq (s : RvCpu) : s.hazardFlag =
    (s.uIdu.idex.ctrl.memread && (s.uIdu.idex.rd == ifidRs1 s.uIfu.ifidI ||
      s.uIdu.idex.rd == ifidRs2 s.uIfu.ifidI)) :=
  rvHdu_hazardFlag _ _ _ _

/-- Without a load in EX there is none. -/
theorem hazardFlag_eq_false {s : RvCpu} (h : s.uIdu.idex.ctrl.memread = false) :
    s.hazardFlag = false := by
  simp [hazardFlag_eq, h]

/-- The ID/EX control bits stay decoder outputs (or zero) along every edge. -/
theorem next_ctrlOk {x : Word} {s : RvCpu} :
    CtrlOk (s.next imemDepth dmemDepth x).uIdu.idex.ctrl := by
  rw [next_idex]
  split
  · exact ctrlOk_zero
  · split
    · exact ctrlOk_zero
    · exact ctrlOk_rvDatapathCtrl _

/-- A stall and a redirect exclude each other. -/
theorem hazardFlag_of_pcSrc {x : Word} {s : RvCpu} (hok : CtrlOk s.uIdu.idex.ctrl)
    (h : s.pcSrc x = true) : s.hazardFlag = false := by
  apply hazardFlag_eq_false
  by_contra hm
  have hx := hok.not_transfer_of_memread (by simpa using hm)
  rcases transfer_of_pcSrc h with hb | hj
  · rw [hx.1] at hb; cases hb
  · rw [hx.2] at hj; cases hj

end URiscV.Hdl.RvCpu
