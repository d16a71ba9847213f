import URiscV.Spec.Pipeline
import URiscV.Rv32i.Isa
import URiscV.ForStd.BitVec

/-!
# The back end executes its issue stream in order

The *issue stream* is the sequence of `(ifid_pc, ifid_i)` pairs latched into
ID/EX in the cycles without flush and stall. `Arch.step` executes one such pair
on registers and data memory alone, with the core's own decoder, immediate
generator and ALU.

The proof drains the pipeline: the instructions in WB, MEM and EX each hold at
most one pending register write and one pending store, and applying what is
pending to the register file and the data memory gives the architectural state
(`drained`). A clock edge moves every pending effect one stage on, so the
drained state changes by exactly the instruction that issues.

## Key results

- `aluA_eq_readReg` / `idexMuxb_eq_readReg`: forwarding delivers the drained registers
- `drained_next`: one edge against one step of `Arch`
- `drained_run`: a whole run against the issue stream
-/

namespace URiscV.Hdl

open Rv32i (readReg writeReg)

/-! ## Sequential execution of one stream element -/

/-- A pair of `ifid_pc` and `ifid_i`. -/
abbrev Elem := Word × Word

/-- Registers and data memory. -/
structure Arch where
  X : BitVec 5 → Word
  dmem : Nat → Word

/-- What an instruction does once it is past EX. -/
structure Retire where
  regWrite : Option (BitVec 5 × Word) := none
  store : Option (Word × Word) := none

/-- A register write, unless disabled or aimed at `x0`. -/
def regEvent (regwrite : Bool) (rd : BitVec 5) (v : Word) : Option (BitVec 5 × Word) :=
  if regwrite && rd != 0 then some (rd, v) else none

def storeEvent (memwrite : Bool) (addr v : Word) : Option (Word × Word) :=
  if memwrite then some (addr, v) else none

/-- The value a MEM/WB pair writes back: the word read when `memtoreg`, the EX
    result otherwise. -/
def memResult (dmemDepth : Nat) (dmem : Nat → Word) (memtoreg memread memwrite : Bool)
    (aluout : Word) : Word :=
  if memtoreg then
    if !memwrite && memread then dmem (Sram.wordAddr dmemDepth 32 aluout) else 0
  else aluout

def applyReg (e : Option (BitVec 5 × Word)) (X : BitVec 5 → Word) : BitVec 5 → Word :=
  match e with
  | some (rd, v) => writeReg X rd v
  | none => X

def applyStore (dmemDepth : Nat) (e : Option (Word × Word)) (dmem : Nat → Word) : Nat → Word :=
  match e with
  | some (addr, v) => Sram.write dmemDepth dmem true (Sram.wordAddr dmemDepth 32 addr) v
  | none => dmem

/-- Effect of an instruction whose ID/EX registers are `idex`, with EX result
    `exResult` and store data `muxb`, on the data memory `dmem`. -/
def retire (dmemDepth : Nat) (dmem : Nat → Word) (idex : IdEx) (exResult muxb : Word) : Retire where
  regWrite := regEvent idex.ctrl.regwrite idex.rd
    (memResult dmemDepth dmem idex.ctrl.memtoreg idex.ctrl.memread idex.ctrl.memwrite exResult)
  store := storeEvent idex.ctrl.memwrite exResult muxb

namespace Arch

/-- The two register operands of a stream element. -/
def operand1 (a : Arch) (e : Elem) : Word := readReg a.X (ifidRs1 e.2)
def operand2 (a : Arch) (e : Elem) : Word := readReg a.X (ifidRs2 e.2)

/-- The ID/EX value of a stream element. -/
def idex (a : Arch) (e : Elem) : IdEx :=
  RvIdu.decode e.1 e.2 (a.operand1 e) (a.operand2 e)

/-- EX on a stream element. -/
def ex (x : Word) (a : Arch) (e : Elem) : RvExu.Out :=
  RvExu.out x (a.idex e) (a.operand1 e) (a.operand2 e)

/-- Effect of a stream element. -/
def retire (dmemDepth : Nat) (x : Word) (a : Arch) (e : Elem) : Retire :=
  Hdl.retire dmemDepth a.dmem (a.idex e) (a.ex x e).exResult (a.operand2 e)

def apply (dmemDepth : Nat) (r : Retire) (a : Arch) : Arch where
  X := applyReg r.regWrite a.X
  dmem := applyStore dmemDepth r.store a.dmem

/-- Execute one stream element. -/
def step (dmemDepth : Nat) (x : Word) (a : Arch) (e : Elem) : Arch :=
  apply dmemDepth (a.retire dmemDepth x e) a

/-- Execute a stream. -/
def run (dmemDepth : Nat) (x : Word) (a : Arch) (es : List Elem) : Arch :=
  es.foldl (step dmemDepth x) a

/-- An instruction without effect. -/
@[simp] theorem apply_none (dmemDepth : Nat) (a : Arch) : apply dmemDepth {} a = a := rfl

/-- No instruction, no change. -/
@[simp] theorem run_nil (dmemDepth : Nat) (x : Word) (a : Arch) : a.run dmemDepth x [] = a := rfl

/-- Instructions are executed one after the other. -/
theorem run_append (dmemDepth : Nat) (x : Word) (a : Arch) (es es' : List Elem) :
    a.run dmemDepth x (es ++ es') = (a.run dmemDepth x es).run dmemDepth x es' :=
  List.foldl_append

end Arch

/-! ## The issue stream -/

namespace RvCpu

/-- ID/EX takes the instruction in IF/ID at the coming edge. -/
def issues (x : Word) (s : RvCpu) : Bool := !s.pcSrc x && !s.hazardFlag

/-- The pair that issues in this cycle, if any. -/
def issue (x : Word) (s : RvCpu) : List Elem :=
  if s.issues x then [(s.uIfu.ifidPc, s.uIfu.ifidI)] else []

/-- The issue stream of the first `n` cycles after `s`. -/
def issueStream (imemDepth dmemDepth : Nat) (xs : Nat → Word) (s : RvCpu) (n : Nat) : List Elem :=
  Clocked.log issue (next imemDepth dmemDepth) xs s n

/-- The instruction that issues in the last of `n + 1` cycles comes last. -/
theorem issueStream_succ (imemDepth dmemDepth : Nat) (xs : Nat → Word) (s : RvCpu) (n : Nat) :
    issueStream imemDepth dmemDepth xs s (n + 1) =
      issueStream imemDepth dmemDepth xs s n ++
        issue (xs n) (Clocked.run (next imemDepth dmemDepth) xs s n) := rfl

/-! ## Pending effects -/

section Pending

variable (dmemDepth : Nat) (x : Word) (s : RvCpu)

/-- The register write in WB. -/
def wbWrite : Option (BitVec 5 × Word) :=
  regEvent s.uMemu.mwb.regwrite s.uMemu.mwb.rd s.writeData

/-- The effect in MEM. -/
def memRetire : Retire where
  regWrite := regEvent s.uExu.regwrite s.uExu.rd
    (memResult dmemDepth s.uMemu.uDmem.memory s.uExu.memtoreg s.uExu.memread s.uExu.memwrite
      s.uExu.aluout)
  store := storeEvent s.uExu.memwrite s.uExu.aluout s.uExu.muxb

/-- Data memory once MEM is done. -/
def memDmem : Nat → Word := applyStore dmemDepth (s.memRetire dmemDepth).store s.uMemu.uDmem.memory

/-- The effect in EX. -/
def exRetire : Retire :=
  retire dmemDepth (s.memDmem dmemDepth) s.uIdu.idex (s.exOut x).exResult (s.idexMuxb x)

/-- Registers once WB is done, once MEM is done too, once EX is done too. -/
def wbX : BitVec 5 → Word := applyReg s.wbWrite s.uIdu.X
def memX : BitVec 5 → Word := applyReg (s.memRetire dmemDepth).regWrite s.wbX
def exX : BitVec 5 → Word := applyReg (s.exRetire dmemDepth x).regWrite (s.memX dmemDepth)

/-- The architectural state of the pipeline: everything past ID completed. -/
def drained : Arch where
  X := s.exX dmemDepth x
  dmem := applyStore dmemDepth (s.exRetire dmemDepth x).store (s.memDmem dmemDepth)

end Pending

/-! ## Moving the pending effects one stage on -/

/-- `x0` holds zero and the ID/EX control bits come from the decoder. -/
structure BackEndInv (s : RvCpu) : Prop where
  x0 : s.uIdu.X 0 = 0
  ctrl : CtrlOk s.uIdu.idex.ctrl

section Step

variable {imemDepth dmemDepth : Nat} {x x' : Word} {s : RvCpu}

/-- The invariant holds behind a reset. -/
theorem backEndInv_boot (imem dmem : Nat → Word) : BackEndInv (boot imem dmem) :=
  ⟨rfl, ctrlOk_zero⟩

/-- The register file takes the write in WB. -/
theorem next_X_eq_wbX (h0 : s.uIdu.X 0 = 0) :
    (s.next imemDepth dmemDepth x).uIdu.X = s.wbX := by
  rw [next_X]
  simp only [rvRegfile, wbX, wbWrite, regEvent, Bool.false_eq_true, if_false]
  cases s.uMemu.mwb.regwrite with
  | false => rfl
  | true =>
    by_cases hrd : s.uMemu.mwb.rd = 0#5
    · -- the protected write of zero to `x0` changes nothing
      have hupd : Function.update s.uIdu.X 0#5 0#32 = s.uIdu.X := by
        have h0' : s.uIdu.X 0#5 = 0#32 := h0
        rw [← h0']; exact Function.update_eq_self _ _
      simp [hrd, applyReg, hupd]
    · simp [hrd, applyReg, writeReg]

/-- One cycle keeps it. -/
theorem BackEndInv.next (h : BackEndInv s) : BackEndInv (s.next imemDepth dmemDepth x) := by
  refine ⟨?_, next_ctrlOk⟩
  rw [next_X]
  simp only [rvRegfile, Bool.false_eq_true, if_false]
  split
  · by_cases hrd : s.uMemu.mwb.rd = 0#5
    · simp [hrd]
    · have hne : (0 : BitVec 5) ≠ s.uMemu.mwb.rd := Ne.symm hrd
      rw [Function.update_of_ne hne]; exact h.x0
  · exact h.x0

/-- `write_data` in the next cycle is the result of the instruction now in MEM. -/
theorem next_writeData : (s.next imemDepth dmemDepth x).writeData =
    memResult dmemDepth s.uMemu.uDmem.memory s.uExu.memtoreg s.uExu.memread s.uExu.memwrite
      s.uExu.aluout := by
  simp only [writeData, next_mwb, next_dmem, rvWbu, memResult, Sram.clk, Sram.read, Bool.true_and]
  cases s.uExu.memtoreg <;> cases s.uExu.memwrite <;> cases s.uExu.memread <;> simp

/-- What is in MEM gets to WB. -/
theorem next_wbWrite :
    (s.next imemDepth dmemDepth x).wbWrite = (s.memRetire dmemDepth).regWrite := by
  simp only [wbWrite, next_writeData, next_mwb, memRetire]

/-- The store in MEM is performed. -/
theorem next_dmem_eq_memDmem :
    (s.next imemDepth dmemDepth x).uMemu.uDmem.memory = s.memDmem dmemDepth := by
  simp only [next_dmem, Sram.clk, memDmem, memRetire, storeEvent, Bool.true_and]
  cases s.uExu.memwrite <;> simp [applyStore]

/-- What is in EX gets to MEM. -/
theorem next_memRetire :
    (s.next imemDepth dmemDepth x).memRetire dmemDepth = s.exRetire dmemDepth x := by
  simp only [memRetire, exRetire, retire, next_dmem_eq_memDmem, next_exm]

/-- The data memory behind MEM is then the one behind the store of EX. -/
theorem next_memDmem : (s.next imemDepth dmemDepth x).memDmem dmemDepth =
    (s.drained dmemDepth x).dmem := by
  simp only [memDmem, next_memRetire, next_dmem_eq_memDmem, drained]

/-- The registers behind the write-back, one cycle later. -/
theorem next_wbX (h0 : s.uIdu.X 0 = 0) :
    (s.next imemDepth dmemDepth x).wbX = s.memX dmemDepth := by
  simp only [wbX, next_wbWrite, next_X_eq_wbX h0, memX]

/-- And those behind MEM. -/
theorem next_memX (h0 : s.uIdu.X 0 = 0) :
    (s.next imemDepth dmemDepth x).memX dmemDepth = (s.drained dmemDepth x).X := by
  simp only [memX, next_memRetire, next_wbX h0, drained, exX]

/-! ## Forwarding -/

/-- Reading a register after a pending write. -/
theorem readReg_applyReg (we : Bool) (rd r : BitVec 5) (v : Word) (X : BitVec 5 → Word) :
    readReg (applyReg (regEvent we rd v) X) r =
      if we && rd != 0 && rd == r then v else readReg X r := by
  cases we with
  | false => simp [regEvent, applyReg]
  | true =>
    by_cases hrd : rd = 0#5
    · simp [regEvent, applyReg, hrd]
    · by_cases hr : rd = r
      · subst hr; simp [regEvent, applyReg, hrd, readReg, writeReg]
      · simp [regEvent, applyReg, hrd, hr, readReg, writeReg, Function.update_of_ne (Ne.symm hr)]

/-- The forwarding multiplexer under the select of `rv_fwdu`. -/
theorem forwardMux_forwardSel (idexRs exmRd mwbRd : BitVec 5) (exmW mwbW : Bool)
    (idexVal wd exmAluout : Word) :
    RvExu.forwardMux x (forwardSel idexRs exmRd mwbRd exmW mwbW) idexVal wd exmAluout =
      if exmW && exmRd != 0 && exmRd == idexRs then exmAluout
      else if mwbW && mwbRd != 0 && mwbRd == idexRs then wd
      else idexVal := by
  unfold forwardSel
  split
  · rfl
  · split <;> rfl

/-- The forwarded value of a source register `rs` of the instruction that
    issues, read one cycle later in EX. The three cases are its producer being
    one, two or three instructions ahead; without a stall the one ahead is not a
    load into `rs`. -/
theorem forward_eq_readReg (h : BackEndInv s) (rs : BitVec 5)
    (hload : s.uIdu.idex.ctrl.memread = true → s.uIdu.idex.rd ≠ rs) :
    RvExu.forwardMux x' (forwardSel rs (s.next imemDepth dmemDepth x).uExu.rd
        (s.next imemDepth dmemDepth x).uMemu.mwb.rd (s.next imemDepth dmemDepth x).uExu.regwrite
        (s.next imemDepth dmemDepth x).uMemu.mwb.regwrite)
      (s.uIdu.idRsVal s.writeData s.uMemu.mwb.rd s.uMemu.mwb.regwrite rs)
      (s.next imemDepth dmemDepth x).writeData (s.next imemDepth dmemDepth x).uExu.aluout =
      readReg (s.drained dmemDepth x).X rs := by
  rw [forwardMux_forwardSel, next_writeData, next_exm, next_mwb]
  have hX : readReg s.uIdu.X rs = s.uIdu.X rs := by
    unfold readReg
    split
    · next hrs => rw [hrs, h.x0]
    · rfl
  simp only [drained, exX, exRetire, retire, memX, memRetire, wbX, wbWrite, readReg_applyReg,
    RvIdu.idRsVal, hX]
  split
  · -- producer in EX: it is not a load, so its result is the EX result
    next hex =>
    have hrd : s.uIdu.idex.rd = rs := by simp at hex; exact hex.2
    have hmr : s.uIdu.idex.ctrl.memtoreg = false := by
      by_contra hm
      exact hload (h.ctrl.memread_of_memtoreg (by simpa using hm)) hrd
    simp [memResult, hmr]
  -- producer in MEM or WB, or none in flight: the selects agree as they stand
  -- producer in MEM or WB, or none in flight: the selects agree as they stand
  · rfl

/-- A stall-free cycle has no load in EX whose destination is a source field of
    the instruction in ID. -/
theorem rd_ne_of_no_hazard (hz : s.hazardFlag = false)
    (hm : s.uIdu.idex.ctrl.memread = true) :
    s.uIdu.idex.rd ≠ ifidRs1 s.uIfu.ifidI ∧ s.uIdu.idex.rd ≠ ifidRs2 s.uIfu.ifidI := by
  simpa [hazardFlag_eq, hm] using hz

/-- An instruction that issues is latched in ID/EX. -/
theorem next_idex_of_issues (hi : s.issues x = true) :
    (s.next imemDepth dmemDepth x).uIdu.idex = s.idexDin := by
  simp only [issues, Bool.and_eq_true, Bool.not_eq_true'] at hi
  simp [next_idex, hi.1, hi.2]

/-- The first operand in EX is the drained value of `rs1`. -/
theorem aluA_eq_readReg (h : BackEndInv s) (hi : s.issues x = true) :
    (s.next imemDepth dmemDepth x).aluA x' =
      (s.drained dmemDepth x).operand1 (s.uIfu.ifidPc, s.uIfu.ifidI) := by
  have hz : s.hazardFlag = false := by simp [issues] at hi; exact hi.2
  have key := @forward_eq_readReg imemDepth dmemDepth x x' s h (ifidRs1 s.uIfu.ifidI)
    fun hm => (rd_ne_of_no_hazard hz hm).1
  rw [aluA, uFwdu, next_idex_of_issues hi]
  exact key

/-- The second register operand in EX is the drained value of `rs2`. -/
theorem idexMuxb_eq_readReg (h : BackEndInv s) (hi : s.issues x = true) :
    (s.next imemDepth dmemDepth x).idexMuxb x' =
      (s.drained dmemDepth x).operand2 (s.uIfu.ifidPc, s.uIfu.ifidI) := by
  have hz : s.hazardFlag = false := by simp [issues] at hi; exact hi.2
  have key := @forward_eq_readReg imemDepth dmemDepth x x' s h (ifidRs2 s.uIfu.ifidI)
    fun hm => (rd_ne_of_no_hazard hz hm).2
  rw [idexMuxb, uFwdu, next_idex_of_issues hi]
  exact key

/-! ## One edge against one step of `Arch` -/

/-- EX on the instruction that issued in the previous cycle. -/
theorem exOut_eq_ex (h : BackEndInv s) (hi : s.issues x = true) :
    (s.next imemDepth dmemDepth x).exOut x' =
      (s.drained dmemDepth x).ex x' (s.uIfu.ifidPc, s.uIfu.ifidI) := by
  rw [exOut, aluA_eq_readReg h hi, idexMuxb_eq_readReg h hi, next_idex_of_issues hi]
  -- EX does not look at the latched operands `idex_a` and `idex_b`
  rfl

/-- The effect in EX of the instruction that issued in the previous cycle. -/
theorem next_exRetire_of_issues (h : BackEndInv s) (hi : s.issues x = true) :
    (s.next imemDepth dmemDepth x).exRetire dmemDepth x' =
      (s.drained dmemDepth x).retire dmemDepth x' (s.uIfu.ifidPc, s.uIfu.ifidI) := by
  rw [exRetire, next_memDmem, exOut_eq_ex h hi, idexMuxb_eq_readReg h hi, next_idex_of_issues hi]
  rfl

/-- ID/EX holds no control bit after a cycle that issues nothing. -/
theorem next_ctrl_of_not_issues (hi : s.issues x = false) :
    (s.next imemDepth dmemDepth x).uIdu.idex.ctrl = {} := by
  rw [next_idex]
  cases hp : s.pcSrc x with
  | true => rfl
  | false =>
    have hz : s.hazardFlag = true := by simpa [issues, hp] using hi
    simp [hz]

/-- A bubble has no effect. -/
theorem exRetire_of_ctrl_zero (hc : s.uIdu.idex.ctrl = {}) : s.exRetire dmemDepth x = {} := by
  simp [exRetire, retire, hc, regEvent, storeEvent]

/-- A slot without control bits does not redirect. -/
theorem pcSrc_of_ctrl_zero (hc : s.uIdu.idex.ctrl = {}) : s.pcSrc x = false :=
  pcSrc_eq_false (by rw [hc]) (by rw [hc])

/-- Draining the pipeline ends with the instruction in EX. -/
theorem drained_eq_apply (s : RvCpu) : s.drained dmemDepth x =
    (Arch.mk (s.memX dmemDepth) (s.memDmem dmemDepth)).apply dmemDepth (s.exRetire dmemDepth x) :=
  rfl

/-- **One edge.** The drained state executes the instruction that issues, and
    nothing else. -/
theorem drained_next (h : BackEndInv s) :
    (s.next imemDepth dmemDepth x).drained dmemDepth x' =
      (s.drained dmemDepth x).run dmemDepth x' (s.issue x) := by
  -- what was in EX is in MEM now, so only the effect of the new EX slot is left
  -- what was in EX is in MEM now, so only the effect of the new EX slot is left
  rw [drained_eq_apply, next_memX h.x0, next_memDmem]
  cases hi : s.issues x with
  | true =>
    rw [next_exRetire_of_issues h hi]
    simp [issue, hi, Arch.run, Arch.step]
  | false =>
    rw [exRetire_of_ctrl_zero (next_ctrl_of_not_issues hi)]
    simp [issue, hi, Arch.run]

end Step

/-! ## Undefined operations -/

/-- The ALU operation of a word is defined. -/
def AluDefined (w : Word) : Prop :=
  (rvAluCtrl (w.extractLsb' 30 1 ++ w.extractLsb' 12 3)
    (rvDatapathCtrl (ifidOpcode w)).aluOp).isSome = true

/-- EX on a word with a defined operation does not depend on the `x` bits. -/
theorem out_of_aluDefined {w : Word} (hw : AluDefined w) (x x' pc a b v1 v2 : Word) :
    RvExu.out x (RvIdu.decode pc w a b) v1 v2 = RvExu.out x' (RvIdu.decode pc w a b) v1 v2 := by
  obtain ⟨op, hop⟩ := Option.isSome_iff_exists.mp hw
  simp only [RvExu.out, RvIdu.decode, hop]
  cases op <;> rfl

/-- Only the R-type control class has undefined operations. -/
theorem aluDefined_of_aluOp {w : Word} (h : (rvDatapathCtrl (ifidOpcode w)).aluOp ≠ 0b10) :
    AluDefined w := by
  have hall : ∀ op : BitVec 2, op ≠ 0b10 → ∀ c : BitVec 4, (rvAluCtrl c op).isSome = true := by
    decide
  exact hall _ h _

/-- Only OP uses all of `funct7`. -/
theorem opcode_of_aluOp {opcode : BitVec 7} (h : (rvDatapathCtrl opcode).aluOp = 0b10) :
    opcode = 0b0110011 := by
  unfold rvDatapathCtrl at h
  split at h <;> first | rfl | simp at h

/-- The R-type operations the base instruction set defines are defined in
    `rv_alu_ctrl`. -/
theorem rvAluCtrl_of_opOp {f3 : BitVec 3} {f7 : BitVec 7}
    (h : (Rv32i.opOp? f3 f7).isSome = true) :
    (rvAluCtrl (f7.extractLsb' 5 1 ++ f3) 0b10).isSome = true := by
  unfold Rv32i.opOp? at h
  split at h
  · subst_vars; revert f3; decide
  · split at h
    · subst_vars; revert f3; decide
    · simp at h

/-- Legal words and the all-zero word have a defined ALU operation. -/
theorem aluDefined_of_isLegal {w : Word} (h : Rv32i.isLegal w = true ∨ w = 0) : AluDefined w := by
  by_cases hop : (rvDatapathCtrl (ifidOpcode w)).aluOp = 0b10
  · have hopc : Rv32i.opcode w = 0b0110011#7 := opcode_of_aluOp hop
    rcases h with h | rfl
    · have hsome : (Rv32i.opOp? (Rv32i.funct3 w) (Rv32i.funct7 w)).isSome = true := by
        simpa [Rv32i.isLegal, Rv32i.decode, hopc] using h
      have hbit : w.extractLsb' 30 1 = (Rv32i.funct7 w).extractLsb' 5 1 := by
        rw [Rv32i.funct7, BitVec.extractLsb'_extractLsb'_add (by omega)]
      rw [AluDefined, hop, hbit]
      exact rvAluCtrl_of_opOp hsome
    · exact absurd hopc (by decide)
  · exact aluDefined_of_aluOp hop

section Legal

variable {dmemDepth : Nat} {e : Elem}

/-- A defined operation does not depend on the unknown value of the ALU. -/
theorem ex_of_aluDefined (h : AluDefined e.2) (x x' : Word) (a : Arch) :
    a.ex x e = a.ex x' e :=
  out_of_aluDefined h x x' _ _ _ _ _

/-- Nor does its effect on the registers and the memory. -/
theorem step_of_aluDefined (h : AluDefined e.2) (x x' : Word) (a : Arch) :
    a.step dmemDepth x e = a.step dmemDepth x' e := by
  simp only [Arch.step, Arch.retire, ex_of_aluDefined h x x' a]

/-- Nor does that of a program of such operations. -/
theorem run_of_aluDefined {es : List Elem} (h : ∀ e ∈ es, AluDefined e.2) (x x' : Word) (a : Arch) :
    a.run dmemDepth x es = a.run dmemDepth x' es := by
  induction es generalizing a with
  | nil => rfl
  | cons e es ih =>
    simp only [Arch.run, List.foldl_cons] at ih ⊢
    rw [step_of_aluDefined (h e (List.mem_cons_self ..)) x x' a]
    exact ih (fun e' he' => h e' (List.mem_cons_of_mem _ he')) _

end Legal

/-! ## Whole runs -/

section Run

variable {imemDepth dmemDepth : Nat} {xs : Nat → Word} {s : RvCpu}

/-- The invariant holds in every run. -/
theorem backEndInv_run (h : BackEndInv s) (n : Nat) :
    BackEndInv (Clocked.run (next imemDepth dmemDepth) xs s n) :=
  Clocked.run_invariant h (fun _ _ hi => hi.next) n

/-- **Whole runs.** The drained state of a run is the issue stream executed one
    element at a time from the drained initial state. -/
theorem drained_run (h : BackEndInv s) (x : Word) (n : Nat)
    (hx : ∀ x', s.drained dmemDepth x' = s.drained dmemDepth x)
    (hdef : ∀ e ∈ issueStream imemDepth dmemDepth xs s n, AluDefined e.2) (x' : Word) :
    (Clocked.run (next imemDepth dmemDepth) xs s n).drained dmemDepth x' =
      (s.drained dmemDepth x).run dmemDepth x (issueStream imemDepth dmemDepth xs s n) := by
  induction n generalizing x' with
  | zero => exact hx x'
  | succ n ih =>
    simp only [issueStream_succ, List.mem_append] at hdef
    -- the `x` bits of the last cycle are free: no issued word depends on them
    -- the `x` bits of the last cycle are free: no issued word depends on them
    have hn := ih (fun e he => hdef e (Or.inl he)) (xs n)
    have hstep := @run_of_aluDefined dmemDepth _ (fun e he => hdef e (Or.inr he)) x' x
    rw [Clocked.run_succ, drained_next (backEndInv_run h n), hn, hstep, issueStream_succ,
      Arch.run_append]

/-- The register file three edges on is the drained one: everything past ID has
    left WB. -/
theorem X_eq_drained (h : BackEndInv s) (m : Nat) :
    (Clocked.run (next imemDepth dmemDepth) xs s (m + 3)).uIdu.X =
      ((Clocked.run (next imemDepth dmemDepth) xs s m).drained dmemDepth (xs m)).X := by
  have h0 (k : Nat) : (Clocked.run (next imemDepth dmemDepth) xs s k).uIdu.X 0 = 0 :=
    (backEndInv_run h k).x0
  rw [Clocked.run_succ, next_X_eq_wbX (h0 _), Clocked.run_succ, next_wbX (h0 _), Clocked.run_succ,
    next_memX (h0 _)]

/-- The data memory two edges on is the drained one: everything past ID has left
    MEM. -/
theorem dmem_eq_drained (m : Nat) :
    (Clocked.run (next imemDepth dmemDepth) xs s (m + 2)).uMemu.uDmem.memory =
      ((Clocked.run (next imemDepth dmemDepth) xs s m).drained dmemDepth (xs m)).dmem := by
  rw [Clocked.run_succ, next_dmem_eq_memDmem, Clocked.run_succ, next_memDmem]

/-- Behind a reset there is nothing to drain. -/
theorem drained_boot (imem dmem : Nat → Word) (x : Word) :
    (boot imem dmem).drained dmemDepth x = ⟨fun _ => 0, dmem⟩ := rfl

/-- What issues in a cycle, with the evidence that it does. -/
theorem issue_eq_singleton {x : Word} {s : RvCpu} {e : Elem} (h : s.issue x = [e]) :
    s.issues x = true ∧ e = (s.uIfu.ifidPc, s.uIfu.ifidI) := by
  unfold issue at h
  split at h
  · next hi => exact ⟨hi, by simpa using h.symm⟩
  · simp at h

end Run

/-! ## The issue stream, from reset -/

section FromReset

variable (imemDepth dmemDepth : Nat)

/-- `rst_n` held low for `k + 1` clock edges. -/
def resetFor (xs : Nat → Word) (s : RvCpu) (k : Nat) : RvCpu :=
  Clocked.run (clk imemDepth dmemDepth false) xs s (k + 1)

/-- The state `n` edges after the reset. -/
abbrev after (xs₀ xs : Nat → Word) (s : RvCpu) (k n : Nat) : RvCpu :=
  Clocked.run (next imemDepth dmemDepth) xs (resetFor imemDepth dmemDepth xs₀ s k) n

/-- The issue stream of the first `n` cycles after the reset. -/
abbrev streamAfter (xs₀ xs : Nat → Word) (s : RvCpu) (k n : Nat) : List Elem :=
  issueStream imemDepth dmemDepth xs (resetFor imemDepth dmemDepth xs₀ s k) n

/-- The issue stream of the first `n` cycles, executed one element at a time from
    zero registers and the initial data memory. -/
def archAfter (xs₀ xs : Nat → Word) (s : RvCpu) (k n : Nat) : Arch :=
  (Arch.mk (fun _ => 0) s.uMemu.uDmem.memory).run dmemDepth 0
    (streamAfter imemDepth dmemDepth xs₀ xs s k n)

/-- **In-order execution of the issue stream.** Take any state `s` (any program
    and data memory), a reset of `k + 1` edges and a run whose first `n` cycles
    issue legal or all-zero words only. Every element issued in cycle `m` is in EX
    in cycle `m + 1`, has left MEM in cycle `m + 3` and WB in cycle `m + 4`:

    * the register file in cycle `m + 3` and the data memory in cycle `m + 2` are
      those after the elements issued before cycle `m`, executed one at a time;
    * the operands, `pc_src` and `pc_branch_target` of the element issued in cycle
      `m` are those of its sequential execution on that state. -/
theorem executes_issueStream_in_order (xs₀ xs : Nat → Word) (s : RvCpu) (k n : Nat)
    (hlegal : ∀ e ∈ streamAfter imemDepth dmemDepth xs₀ xs s k n,
      Rv32i.isLegal e.2 = true ∨ e.2 = 0) :
    (∀ m ≤ n,
      (after imemDepth dmemDepth xs₀ xs s k (m + 3)).uIdu.X =
        (archAfter imemDepth dmemDepth xs₀ xs s k m).X ∧
      (after imemDepth dmemDepth xs₀ xs s k (m + 2)).uMemu.uDmem.memory =
        (archAfter imemDepth dmemDepth xs₀ xs s k m).dmem) ∧
    (∀ m < n, ∀ e, (after imemDepth dmemDepth xs₀ xs s k m).issue (xs m) = [e] →
      archAfter imemDepth dmemDepth xs₀ xs s k (m + 1) =
        (archAfter imemDepth dmemDepth xs₀ xs s k m).step dmemDepth 0 e ∧
      (after imemDepth dmemDepth xs₀ xs s k (m + 1)).aluA (xs (m + 1)) =
        (archAfter imemDepth dmemDepth xs₀ xs s k m).operand1 e ∧
      (after imemDepth dmemDepth xs₀ xs s k (m + 1)).idexMuxb (xs (m + 1)) =
        (archAfter imemDepth dmemDepth xs₀ xs s k m).operand2 e ∧
      (after imemDepth dmemDepth xs₀ xs s k (m + 1)).pcSrc (xs (m + 1)) =
        ((archAfter imemDepth dmemDepth xs₀ xs s k m).ex 0 e).pcSrc ∧
      (after imemDepth dmemDepth xs₀ xs s k (m + 1)).pcBranchTarget (xs (m + 1)) =
        ((archAfter imemDepth dmemDepth xs₀ xs s k m).ex 0 e).pcBranchTarget) := by
  have hboot : resetFor imemDepth dmemDepth xs₀ s k =
      boot s.uIfu.uImem.memory s.uMemu.uDmem.memory := run_reset _ _ _
  have hinv : BackEndInv (resetFor imemDepth dmemDepth xs₀ s k) := by
    rw [hboot]; exact backEndInv_boot _ _
  have hpre {m : Nat} (hm : m ≤ n) : ∀ e ∈ streamAfter imemDepth dmemDepth xs₀ xs s k m,
      AluDefined e.2 := fun e he =>
    aluDefined_of_isLegal (hlegal e ((Clocked.log_prefix hm).subset he))
  -- the drained state of the run is the stream executed so far
  have hdr {m : Nat} (hm : m ≤ n) :
      (after imemDepth dmemDepth xs₀ xs s k m).drained dmemDepth (xs m) =
        archAfter imemDepth dmemDepth xs₀ xs s k m := by
    have hx (x' : Word) : (resetFor imemDepth dmemDepth xs₀ s k).drained dmemDepth x' =
        ⟨fun _ => 0, s.uMemu.uDmem.memory⟩ := by rw [hboot, drained_boot]
    rw [after, drained_run hinv 0 m (fun x' => by rw [hx, hx]) (hpre hm), hx]
    rfl
  refine ⟨fun m hm => ⟨?_, ?_⟩, fun m hm e he => ?_⟩
  · rw [after, X_eq_drained hinv, ← after, hdr hm]
  · rw [after, dmem_eq_drained, ← after, hdr hm]
  · obtain ⟨hi, rfl⟩ := issue_eq_singleton he
    have hbe : BackEndInv (after imemDepth dmemDepth xs₀ xs s k m) := backEndInv_run hinv m
    have hstream : streamAfter imemDepth dmemDepth xs₀ xs s k (m + 1) =
        streamAfter imemDepth dmemDepth xs₀ xs s k m ++
          (after imemDepth dmemDepth xs₀ xs s k m).issue (xs m) := issueStream_succ _ _ _ _ _
    have hdef := hpre hm _ (by
      rw [hstream, he]
      exact List.mem_append_right _ (List.mem_singleton_self _))
    have hex : (after imemDepth dmemDepth xs₀ xs s k (m + 1)).exOut (xs (m + 1)) =
        (archAfter imemDepth dmemDepth xs₀ xs s k m).ex 0
          ((after imemDepth dmemDepth xs₀ xs s k m).uIfu.ifidPc,
            (after imemDepth dmemDepth xs₀ xs s k m).uIfu.ifidI) := by
      rw [after, Clocked.run_succ, exOut_eq_ex hbe hi, hdr (Nat.le_of_lt hm)]
      exact ex_of_aluDefined hdef _ _ _
    refine ⟨?_, ?_, ?_, congrArg RvExu.Out.pcSrc hex, congrArg RvExu.Out.pcBranchTarget hex⟩
    · rw [archAfter, hstream, he, Arch.run_append]; rfl
    · rw [after, Clocked.run_succ, aluA_eq_readReg hbe hi, hdr (Nat.le_of_lt hm)]
    · rw [after, Clocked.run_succ, idexMuxb_eq_readReg hbe hi, hdr (Nat.le_of_lt hm)]

end FromReset

/-- A load that takes its address from the instruction in front of it. -/
def bypassProgram (a : Nat) : Word :=
  match a with
  | 0 => 0x00500093 -- addi x1, x0, 5
  | 1 => 0x0000a103 -- lw x2, 0(x1)
  | _ => 0x00000013 -- nop

/-- Its first five instructions have got to the registers behind eight cycles. -/
theorem executes_bypassProgram :
    (after 8 8 (fun _ => 0) (fun _ => 0) (boot bypassProgram fun a => BitVec.ofNat 32 a)
        0 8).uIdu.X =
      (archAfter 8 8 (fun _ => 0) (fun _ => 0) (boot bypassProgram fun a => BitVec.ofNat 32 a)
        0 5).X := by
  have hall : (streamAfter 8 8 (fun _ => 0) (fun _ => 0)
      (boot bypassProgram fun a => BitVec.ofNat 32 a) 0 6).all
        (fun e => Rv32i.isLegal e.2 || e.2 == 0) = true := by decide
  exact ((executes_issueStream_in_order 8 8 (fun _ => 0) (fun _ => 0)
    (boot bypassProgram fun a => BitVec.ofNat 32 a) 0 6
    fun e he => by simpa using List.all_eq_true.mp hall e he).1 5 (by decide)).1

end RvCpu

end URiscV.Hdl
