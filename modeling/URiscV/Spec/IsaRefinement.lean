import URiscV.Spec.FrontEnd
import URiscV.Spec.Execute

/-!
# The pipeline against the ISA

The register writes and the stores of the core, compared with those of the
sequential interpreter. The core deviates from RV32I in three ways: the
instruction at address 0 issues twice after a reset, a load-use stall loses the
word behind the stalled instruction, and register shifts look at bit 5 of the
amount. `firstOk` and `stepOk` describe, on the interpreter's side, the programs
and instructions that none of the three can touch.

The simulation relates the state of the core to the interpreter state after
everything that has issued: its registers and memory are the drained ones, and
`Phase` says where the fetch unit stands relative to its program counter.

## Key results

- `Sim.next`: one clock edge is zero or one step of the interpreter
- `logs_prefix_of_stepOk`: register writes and stores of whole runs
-/

namespace URiscV.Hdl

open Rv32i (Instr State decode fetch step transfers transfersNext effect stepEffect)

/-! ## When the core follows RV32I -/

/-- The instruction loads a register that is a source field of the word `w`. -/
def loadUse (i : Instr) (w : Word) : Bool :=
  match i with
  | .lw rd _ _ => rd == Rv32i.rs1 w || rd == Rv32i.rs2 w
  | _ => false

/-- The word at address 0 may issue twice: it transfers control, or it leaves
    registers and memory alone (and is no load that stalls its own repetition). -/
def firstOk (w : Word) : Bool :=
  match decode w with
  | some (.jal ..) => true
  | some (.jalr ..) => true
  | some (.branch ..) => true
  | some (.lw rd rs1 imm) => rd == 0 && !loadUse (.lw rd rs1 imm) w
  | some (.sw ..) => false
  | some (.lui rd _) => rd == 0
  | some (.auipc rd _) => rd == 0
  | some (.opImm _ rd _ _) => rd == 0
  | some (.op _ rd _ _) => rd == 0
  | none => false

/-- The instruction at the program counter is no shift by an amount with bit 5
    set, and no load whose destination is a source field of the next instruction,
    unless that one transfers control. -/
def stepOk (imemDepth dmemDepth : Nat) (imem : Nat → Word) (σ : State) : Bool :=
  (decode (fetch imemDepth imem σ)).all fun i =>
    shiftsOk σ i &&
      (!loadUse i (fetch imemDepth imem (step imemDepth dmemDepth imem σ)) ||
        transfersNext imemDepth imem (step imemDepth dmemDepth imem σ))

/-- The hazard condition of a decoded word, in terms of its instruction. -/
theorem hazard_of_decode {w w' : Word} {i : Instr} (h : decode w = some i) :
    ((rvDatapathCtrl (ifidOpcode w)).memread &&
      (ifidRd w == ifidRs1 w' || ifidRd w == ifidRs2 w')) = loadUse i w' := by
  unfold decode at h
  split at h
  case h_6 hop =>
    obtain ⟨-, rfl⟩ : Rv32i.funct3 w = 0b010 ∧
        Instr.lw (Rv32i.rd w) (Rv32i.rs1 w) (Rv32i.immI w) = i := by simpa using h
    rw [ctrl_of_opcode hop]
    rfl
  case h_4 hop =>
    obtain ⟨-, rfl⟩ : Rv32i.funct3 w = 0 ∧
        Instr.jalr (Rv32i.rd w) (Rv32i.rs1 w) (Rv32i.immI w) = i := by simpa using h
    rw [ctrl_of_opcode hop]
    rfl
  case h_7 hop =>
    obtain ⟨-, rfl⟩ : Rv32i.funct3 w = 0b010 ∧
        Instr.sw (Rv32i.rs1 w) (Rv32i.rs2 w) (Rv32i.immS w) = i := by simpa using h
    rw [ctrl_of_opcode hop]
    rfl
  case h_10 => cases h
  case h_1 hop | h_2 hop | h_3 hop => cases h; rw [ctrl_of_opcode hop]; rfl
  case h_5 hop | h_8 hop | h_9 hop =>
    obtain ⟨op, -, rfl⟩ := Option.map_eq_some_iff.mp h
    rw [ctrl_of_opcode hop]
    rfl

/-- A word that may issue twice and does not transfer control has no effect. -/
theorem isaRetire_of_firstOk {w : Word} {i : Instr} (hdec : decode w = some i)
    (hok : firstOk w = true) (dmemDepth : Nat) (σ : State) (ht : transfers σ i = false) :
    isaRetire dmemDepth σ i = {} ∧ loadUse i w = false := by
  simp only [firstOk, hdec] at hok
  cases i with
  | lw rd rs1 imm =>
    simp only [Bool.and_eq_true, Bool.not_eq_true', beq_iff_eq] at hok
    exact ⟨by simp [isaRetire, effect, Option.filter, hok.1], hok.2⟩
  | jal | jalr => cases ht
  | sw => cases hok
  | branch => exact ⟨rfl, rfl⟩
  | lui rd | auipc rd | opImm _ rd | op _ rd =>
    exact ⟨by simp [isaRetire, effect, Option.filter, eq_of_beq hok], rfl⟩

namespace RvCpu

/-! ## The simulation relation -/

section Simulation

variable (i d : Nat) (imem : Nat → Word)

/-- Where the fetch unit stands relative to the interpreter's program counter.

    * `boot`, `first`: after reset, before the instruction at 0 has issued;
    * `again`: it has, and sits in IF/ID once more;
    * `seq`: IF/ID holds the next instruction and the words behind it follow;
    * `held`: a stall has let the words behind IF/ID get ahead;
    * `redirect`, `flush1`, `flush2`: a transfer of control under way. -/
inductive Phase (s : RvCpu) (σ : State) : Prop
  | boot (hi : s.uIfu.ifidI = 0) (hctrl : s.uIdu.idex.ctrl = {}) (hd1 : s.uIfu.pcSrcD1 = false)
      (hprev : s.uIfu.pcPrev = 0) (hpc : s.uIfu.pcR = 0) (hout : s.uIfu.uImem.dataOut = imem 0)
      (hσ : σ.pc = 0)
  | first (hi : s.uIfu.ifidI = imem 0) (hid : s.uIfu.ifidPc = 0) (hctrl : s.uIdu.idex.ctrl = {})
      (hd1 : s.uIfu.pcSrcD1 = false) (hprev : s.uIfu.pcPrev = 0) (hpc : s.uIfu.pcR = 4)
      (hout : s.uIfu.uImem.dataOut = imem 0) (hσ : σ.pc = 0)
  | again (hi : s.uIfu.ifidI = imem 0) (hid : s.uIfu.ifidPc = 0) (hd1 : s.uIfu.pcSrcD1 = false)
      (hprev : s.uIfu.pcPrev = 4) (hpc : s.uIfu.pcR = 8)
      (hout : s.uIfu.uImem.dataOut = s.wordAt (2 ^ i) 4) (hσ : σ.pc = 4)
      (hsrc : ∀ x, s.pcSrc x = false) (hz : s.hazardFlag = false)
      (hre : ∀ x, (archOf σ).retire (2 ^ d) x (0, imem 0) = {} ∧
        ((archOf σ).ex x (0, imem 0)).pcSrc = false)
      (hld : ∀ ins, decode (imem 0) = some ins → loadUse ins (fetch (2 ^ i) imem σ) = true →
        transfersNext (2 ^ i) imem σ = true)
  | seq (hst : Streaming (2 ^ i) s σ.pc) (hsrc : ∀ x, s.pcSrc x = false)
      (hz : s.hazardFlag = true → transfersNext (2 ^ i) imem σ = true)
  | held (hi : s.uIfu.ifidI = s.wordAt (2 ^ i) σ.pc) (hid : s.uIfu.ifidPc = σ.pc)
      (hctrl : s.uIdu.idex.ctrl = {}) (ht : transfersNext (2 ^ i) imem σ = true)
  | redirect (hsrc : ∀ x, s.pcSrc x = true) (htgt : ∀ x, s.pcBranchTarget x = σ.pc)
  | flush1 (hi : s.uIfu.ifidI = 0) (hctrl : s.uIdu.idex.ctrl = {}) (hd1 : s.uIfu.pcSrcD1 = true)
      (hpc : s.uIfu.pcR = σ.pc)
  | flush2 (hi : s.uIfu.ifidI = 0) (hctrl : s.uIdu.idex.ctrl = {}) (hd1 : s.uIfu.pcSrcD1 = false)
      (hprev : s.uIfu.pcPrev = σ.pc) (hpc : s.uIfu.pcR = σ.pc + 4)
      (hout : s.uIfu.uImem.dataOut = s.wordAt (2 ^ i) σ.pc)

/-- The core in state `s` has issued exactly what leads the interpreter to `σ`. -/
structure Sim (s : RvCpu) (σ : State) : Prop where
  back : BackEndInv s
  mem : s.uIfu.uImem.memory = imem
  drained : ∀ x, s.drained (2 ^ d) x = archOf σ
  phase : Phase i d imem s σ

end Simulation

section Step

variable {i d : Nat} {imem : Nat → Word} {s : RvCpu} {σ : State} {x : Word} {ins : Instr}

/-- The core fetches what the interpreter does. -/
theorem wordAt_eq_fetch (hmem : s.uIfu.uImem.memory = imem) :
    s.wordAt (2 ^ i) σ.pc = fetch (2 ^ i) imem σ := by
  rw [wordAt, hmem, wordAddr_eq_wordIndex, fetch]

/-- Behind a reset both are at address 0. -/
theorem sim_boot (mem : Nat → Word) : Sim i d imem (boot imem mem) (Rv32i.init mem) where
  back := backEndInv_boot _ _
  mem := rfl
  drained := fun _ => rfl
  phase := .boot rfl rfl rfl rfl rfl rfl rfl

/-- What holds once the instruction at the program counter has issued. -/
structure Issued (i d : Nat) (imem : Nat → Word) (s' : RvCpu) (σ : State) (ins : Instr) : Prop where
  drained : ∀ x, s'.drained (2 ^ d) x = archOf (step (2 ^ i) (2 ^ d) imem σ)
  retire : ∀ x, s'.exRetire (2 ^ d) x = isaRetire (2 ^ d) σ ins
  pcSrc : ∀ x, s'.pcSrc x = transfers σ ins
  target : transfers σ ins = true →
    ∀ x, s'.pcBranchTarget x = (step (2 ^ i) (2 ^ d) imem σ).pc
  hazard : s'.hazardFlag = loadUse ins s'.uIfu.ifidI

/-- A step of the interpreter is the effect of its instruction. -/
theorem step_eq_apply (hdec : decode (fetch (2 ^ i) imem σ) = some ins) :
    step (2 ^ i) (2 ^ d) imem σ = (effect (2 ^ d) σ ins).apply (2 ^ d) σ := by
  simp only [step, stepEffect, hdec]

/-- The hazard flag behind an issue, from the word that issued. -/
theorem hazardFlag_of_issues (hi : s.issues x = true) (hdec : decode s.uIfu.ifidI = some ins) :
    (s.next (2 ^ i) (2 ^ d) x).hazardFlag =
      loadUse ins (s.next (2 ^ i) (2 ^ d) x).uIfu.ifidI := by
  rw [hazardFlag_eq, next_idex_of_issues hi, ← hazard_of_decode hdec]
  rfl

/-- The instruction that issues is the next one of the interpreter. -/
theorem issued_of_sim (h : Sim i d imem s σ) (hi : s.issues x = true)
    (hid : s.uIfu.ifidPc = σ.pc) (hword : s.uIfu.ifidI = fetch (2 ^ i) imem σ)
    (hdec : decode (fetch (2 ^ i) imem σ) = some ins) (hsh : shiftsOk σ ins = true) :
    Issued i d imem (s.next (2 ^ i) (2 ^ d) x) σ ins := by
  have hexec (x' : Word) : ExecutesAs (2 ^ d) x' σ (fetch (2 ^ i) imem σ) ins :=
    executesAs_of_decode hdec hsh x'
  have hex (x' : Word) := @exOut_eq_ex (2 ^ i) (2 ^ d) x x' s h.back hi
  constructor
  · intro x'
    rw [drained_next h.back, issue, if_pos hi, h.drained, hid, hword, step_eq_apply hdec]
    exact step_of_executesAs (hexec x')
  · intro x'
    rw [next_exRetire_of_issues h.back hi, h.drained, hid, hword, (hexec x').retire]
  · intro x'
    rw [pcSrc, hex, h.drained, hid, hword, (hexec x').pcSrc]
  · intro ht x'
    rw [pcBranchTarget, hex, h.drained, hid, hword, (hexec x').target ht, step_eq_apply hdec]
    rfl
  · exact hazardFlag_of_issues hi (hword ▸ hdec)

/-- A cycle that leaves ID/EX without control bits leaves the drained state and
    adds no effect. -/
theorem drained_next_of_ctrl_zero (h : BackEndInv s)
    (hc : (s.next (2 ^ i) (2 ^ d) x).uIdu.idex.ctrl = {}) (x' : Word) :
    (s.next (2 ^ i) (2 ^ d) x).drained (2 ^ d) x' = s.drained (2 ^ d) x ∧
      (s.next (2 ^ i) (2 ^ d) x).exRetire (2 ^ d) x' = {} := by
  have hr : (s.next (2 ^ i) (2 ^ d) x).exRetire (2 ^ d) x' = {} := exRetire_of_ctrl_zero hc
  refine ⟨?_, hr⟩
  rw [drained_eq_apply, next_memX h.x0, next_memDmem, hr, Arch.apply_none]

/-- The fetch unit behind the issue of the instruction at the program counter,
    from the phases in which the words behind it follow in memory. -/
theorem phase_of_issued (hmem : s.uIfu.uImem.memory = imem)
    (hiss : Issued i d imem (s.next (2 ^ i) (2 ^ d) x) σ ins)
    (hdec : decode (fetch (2 ^ i) imem σ) = some ins)
    (hok : stepOk (2 ^ i) (2 ^ d) imem σ = true)
    (hst : Streaming (2 ^ i) (s.next (2 ^ i) (2 ^ d) x) (σ.pc + 4)) :
    Phase i d imem (s.next (2 ^ i) (2 ^ d) x) (step (2 ^ i) (2 ^ d) imem σ) := by
  cases ht : transfers σ ins with
  | true => exact .redirect (fun x' => (hiss.pcSrc x').trans ht) (hiss.target ht)
  | false =>
    have hpc : (step (2 ^ i) (2 ^ d) imem σ).pc = σ.pc + 4 := by
      rw [step_eq_apply hdec]
      exact Rv32i.nextPc_of_not_transfers ht
    refine .seq (by rw [hpc]; exact hst) (fun x' => (hiss.pcSrc x').trans ht) fun hz => ?_
    have hmem' : (s.next (2 ^ i) (2 ^ d) x).uIfu.uImem.memory = imem := by rw [next_imem, hmem]
    rw [hiss.hazard, hst.ifidI, ← hpc, wordAt_eq_fetch hmem'] at hz
    simp only [stepOk, hdec, Option.all_some, hz, Bool.not_true, Bool.false_or,
      Bool.and_eq_true] at hok
    exact hok.2

/-- The first issue of the instruction at address 0: unless it transfers control,
    it sits in IF/ID again and has changed nothing. -/
theorem phase_of_first (hfirst : firstOk (imem 0) = true)
    (hiss : Issued i d imem (s.next (2 ^ i) (2 ^ d) x) σ ins)
    (hdec : decode (fetch (2 ^ i) imem σ) = some ins)
    (hok : stepOk (2 ^ i) (2 ^ d) imem σ = true) (hctrl : s.uIdu.idex.ctrl = {})
    (hd1 : s.uIfu.pcSrcD1 = false) (hprev : s.uIfu.pcPrev = 0) (hpc : s.uIfu.pcR = 4)
    (hout : s.uIfu.uImem.dataOut = imem 0) (hσ : σ.pc = 0) :
    Phase i d imem (s.next (2 ^ i) (2 ^ d) x) (step (2 ^ i) (2 ^ d) imem σ) := by
  obtain ⟨e1, e2, e3, e4, e5, e6⟩ := @next_front_of_ctrl_zero (2 ^ i) (2 ^ d) x s hctrl
  have hfetch : fetch (2 ^ i) imem σ = imem 0 := by simp [fetch, hσ, Rv32i.wordIndex]
  rw [hfetch] at hdec
  have hifid : (s.next (2 ^ i) (2 ^ d) x).uIfu.ifidI = imem 0 := by rw [e6, hd1]; exact hout
  cases ht : transfers σ ins with
  | true => exact .redirect (fun x' => (hiss.pcSrc x').trans ht) (hiss.target ht)
  | false =>
    -- it leaves the state alone, so it may be executed once more
    -- it leaves the state alone, so it may be executed once more
    obtain ⟨hret, hload⟩ := isaRetire_of_firstOk hdec hfirst (2 ^ d) σ ht
    have hstep : step (2 ^ i) (2 ^ d) imem σ = (effect (2 ^ d) σ ins).apply (2 ^ d) σ :=
      step_eq_apply (by rw [hfetch]; exact hdec)
    have hsame : archOf (step (2 ^ i) (2 ^ d) imem σ) = archOf σ := by
      rw [hstep, ← apply_isaRetire, hret, Arch.apply_none]
    have hσ' : (step (2 ^ i) (2 ^ d) imem σ).pc = 4 := by
      rw [hstep]
      show (effect (2 ^ d) σ ins).nextPc = 4
      rw [Rv32i.nextPc_of_not_transfers ht, hσ]
      rfl
    simp only [stepOk, hfetch, hdec, Option.all_some, Bool.and_eq_true] at hok
    refine .again hifid (by rw [e5, hprev]) e1 (by rw [e2, hpc]) (by rw [e3, hpc]; rfl)
      (by rw [e4, hpc, wordAt_next]) hσ' (fun x' => (hiss.pcSrc x').trans ht) ?_ (fun x' => ?_)
      fun ins' hdec' hld => ?_
    · rw [hiss.hazard, hifid, hload]
    · have hexec : ExecutesAs (2 ^ d) x' σ (imem 0) ins := executesAs_of_decode hdec hok.1 x'
      rw [hsame, ← hσ]
      exact ⟨hexec.retire.trans hret, hexec.pcSrc.trans ht⟩
    · obtain rfl : ins = ins' := by rw [hdec] at hdec'; exact Option.some.inj hdec'
      simpa [hld] using hok.2

/-- A second issue of the instruction at address 0 changes nothing. -/
theorem sim_of_again (h : Sim i d imem s σ) (hi : s.uIfu.ifidI = imem 0) (hid : s.uIfu.ifidPc = 0)
    (hlegal : (decode (imem 0)).isSome = true) (hd1 : s.uIfu.pcSrcD1 = false)
    (hprev : s.uIfu.pcPrev = 4) (hpc : s.uIfu.pcR = 8)
    (hout : s.uIfu.uImem.dataOut = s.wordAt (2 ^ i) 4) (hσ : σ.pc = 4)
    (hsrc : ∀ x, s.pcSrc x = false) (hz : s.hazardFlag = false)
    (hre : ∀ x, (archOf σ).retire (2 ^ d) x (0, imem 0) = {} ∧
      ((archOf σ).ex x (0, imem 0)).pcSrc = false)
    (hld : ∀ ins, decode (imem 0) = some ins → loadUse ins (fetch (2 ^ i) imem σ) = true →
      transfersNext (2 ^ i) imem σ = true) (x : Word) :
    Sim i d imem (s.next (2 ^ i) (2 ^ d) x) σ ∧
      ∀ x', (s.next (2 ^ i) (2 ^ d) x).exRetire (2 ^ d) x' = {} := by
  have hmem' : (s.next (2 ^ i) (2 ^ d) x).uIfu.uImem.memory = imem := by rw [next_imem, h.mem]
  have hiss : s.issues x = true := by simp [issues, hsrc, hz]
  have hret (x' : Word) : (s.next (2 ^ i) (2 ^ d) x).exRetire (2 ^ d) x' = {} := by
    rw [next_exRetire_of_issues h.back hiss, h.drained, hi, hid, (hre x').1]
  -- the words behind the second issue come one after the other
  have hst : Streaming (2 ^ i) (s.next (2 ^ i) (2 ^ d) x) σ.pc := by
    constructor
    · exact hsrc x
    · simp [next_ifidPc, hz, hprev, hσ]
    · rw [next_ifidI, hsrc, hz, hd1, wordAt_next, hσ]; simpa using hout
    · rw [next_pcPrev, hpc, hσ]; rfl
    · rw [next_imemOut_of_not_pcSrc (hsrc x), hpc, wordAt_next, hσ]; rfl
    · simp only [next_pcR, hz, hsrc, hpc, hσ]; rfl
  refine ⟨⟨h.back.next, hmem', fun x' => ?_, .seq hst (fun x' => ?_) fun hz' => ?_⟩, hret⟩
  · rw [drained_next h.back, issue, if_pos hiss, h.drained, hi, hid, Arch.run, List.foldl_cons,
      List.foldl_nil, Arch.step, (hre x').1, Arch.apply_none]
  · rw [pcSrc, exOut_eq_ex h.back hiss, h.drained, hi, hid, (hre x').2]
  · obtain ⟨ins, hdec⟩ := Option.isSome_iff_exists.mp hlegal
    rw [hazardFlag_of_issues hiss (hi ▸ hdec), hst.ifidI, wordAt_eq_fetch hmem'] at hz'
    exact hld ins hdec hz'

/-- A clock edge moves the simulation on: nothing has issued and the interpreter
    stays, or its next instruction has and it takes one step. -/
theorem Sim.next (h : Sim i d imem s σ)
    (hlegal : ∀ a < 2 ^ i, (decode (imem a)).isSome = true) (hfirst : firstOk (imem 0) = true)
    (hok : stepOk (2 ^ i) (2 ^ d) imem σ = true) (x : Word) :
    (Sim i d imem (s.next (2 ^ i) (2 ^ d) x) σ ∧
      ∀ x', (s.next (2 ^ i) (2 ^ d) x).exRetire (2 ^ d) x' = {}) ∨
    (Sim i d imem (s.next (2 ^ i) (2 ^ d) x) (step (2 ^ i) (2 ^ d) imem σ) ∧
      ∀ x', ∃ ins, decode (fetch (2 ^ i) imem σ) = some ins ∧
        (s.next (2 ^ i) (2 ^ d) x).exRetire (2 ^ d) x' = isaRetire (2 ^ d) σ ins) := by
  have hmem' : (s.next (2 ^ i) (2 ^ d) x).uIfu.uImem.memory = imem := by rw [next_imem, h.mem]
  have hidx : Rv32i.wordIndex (2 ^ i) σ.pc < 2 ^ i := Nat.mod_lt _ (Nat.two_pow_pos i)
  obtain ⟨ins, hdec⟩ : ∃ ins, decode (fetch (2 ^ i) imem σ) = some ins :=
    Option.isSome_iff_exists.mp (hlegal _ hidx)
  have hsh : shiftsOk σ ins = true := by
    simp only [stepOk, hdec, Option.all_some, Bool.and_eq_true] at hok
    exact hok.1
  -- the two ways an edge can go
  have stay (hc : (s.next (2 ^ i) (2 ^ d) x).uIdu.idex.ctrl = {})
      (hp : Phase i d imem (s.next (2 ^ i) (2 ^ d) x) σ) :
      Sim i d imem (s.next (2 ^ i) (2 ^ d) x) σ ∧
        ∀ x', (s.next (2 ^ i) (2 ^ d) x).exRetire (2 ^ d) x' = {} := by
    have hd (x' : Word) := drained_next_of_ctrl_zero h.back hc x'
    exact ⟨⟨h.back.next, hmem', fun x' => (hd x').1.trans (h.drained x), hp⟩, fun x' => (hd x').2⟩
  have advance (hiss : Issued i d imem (s.next (2 ^ i) (2 ^ d) x) σ ins)
      (hp : Phase i d imem (s.next (2 ^ i) (2 ^ d) x) (step (2 ^ i) (2 ^ d) imem σ)) :
      Sim i d imem (s.next (2 ^ i) (2 ^ d) x) (step (2 ^ i) (2 ^ d) imem σ) ∧
        ∀ x', ∃ ins, decode (fetch (2 ^ i) imem σ) = some ins ∧
          (s.next (2 ^ i) (2 ^ d) x).exRetire (2 ^ d) x' = isaRetire (2 ^ d) σ ins :=
    ⟨⟨h.back.next, hmem', hiss.drained, hp⟩, fun x' => ⟨ins, hdec, hiss.retire x'⟩⟩
  cases h.phase with
  | boot hi hctrl hd1 hprev hpc hout hσ =>
    -- the word at address 0 enters IF/ID for the first time
    -- the word at address 0 enters IF/ID for the first time
    obtain ⟨e1, e2, e3, e4, e5, e6⟩ := @next_front_of_ctrl_zero (2 ^ i) (2 ^ d) x s hctrl
    have hc := @next_ctrl_of_ifidI_zero (2 ^ i) (2 ^ d) x s hi
    refine .inl (stay hc (.first ?_ ?_ hc e1 ?_ ?_ ?_ hσ))
    · rw [e6, hd1]; exact hout
    · rw [e5, hprev]
    · rw [e2, hpc]
    · rw [e3, hpc]; rfl
    · rw [e4, hpc, ← h.mem]; simp [wordAt, Sram.wordAddr]
  | first hi hid hctrl hd1 hprev hpc hout hσ =>
    have hi' : s.issues x = true := issues_of_ctrl_zero hctrl
    have hword : s.uIfu.ifidI = fetch (2 ^ i) imem σ := by
      rw [hi]; simp [fetch, hσ, Rv32i.wordIndex]
    have hiss := issued_of_sim h hi' (hid.trans hσ.symm) hword hdec hsh
    exact .inr (advance hiss
      (phase_of_first hfirst hiss hdec hok hctrl hd1 hprev hpc hout hσ))
  | again hi hid hd1 hprev hpc hout hσ hsrc hz hre hld =>
    exact .inl (sim_of_again h hi hid (hlegal 0 (Nat.two_pow_pos i)) hd1 hprev hpc hout hσ hsrc hz
      hre hld x)
  | seq hst hsrc hz =>
    cases hh : s.hazardFlag with
    | true =>
      have hc : (s.next (2 ^ i) (2 ^ d) x).uIdu.idex.ctrl = {} :=
        next_ctrl_of_not_issues (by simp [issues, hh])
      -- the stall loses the word behind the stalled one, which is not executed anyway
      -- the stalled word is lost behind the load only if it is not to be executed anyway
      refine .inl (stay hc (.held ?_ ?_ hc (hz hh)))
      · rw [next_ifidI, hsrc, hst.d1, hh, wordAt_next]; simpa using hst.ifidI
      · simp [next_ifidPc, hh, hst.ifidPc]
    | false =>
      have hi : s.issues x = true := by simp [issues, hsrc, hh]
      have hiss := issued_of_sim h hi hst.ifidPc (hst.ifidI.trans (wordAt_eq_fetch h.mem)) hdec hsh
      exact .inr (advance hiss (phase_of_issued h.mem hiss hdec hok (hst.next (hsrc x) hh)))
  | held hi hid hctrl ht =>
    have hi' : s.issues x = true := issues_of_ctrl_zero hctrl
    have hiss := issued_of_sim h hi' hid (hi.trans (wordAt_eq_fetch h.mem)) hdec hsh
    have ht' : transfers σ ins = true := by simpa [transfersNext, hdec] using ht
    exact .inr (advance hiss
      (.redirect (fun x' => (hiss.pcSrc x').trans ht') (hiss.target ht')))
  | redirect hsrc htgt =>
    have hz : s.hazardFlag = false := hazardFlag_of_pcSrc h.back.ctrl (hsrc x)
    have hc : (s.next (2 ^ i) (2 ^ d) x).uIdu.idex.ctrl = {} :=
      next_ctrl_of_not_issues (by simp [issues, hsrc])
    -- the program counter has the target, the words behind the transfer are dropped
    -- the program counter has the target, the words behind the transfer are dropped
    refine .inl (stay hc (.flush1 ?_ hc (hsrc x) ?_))
    · simp [next_ifidI, hsrc]
    · simp [next_pcR, hz, hsrc, htgt]
  | flush1 hi hctrl hd1 hpc =>
    obtain ⟨e1, e2, e3, e4, e5, e6⟩ := @next_front_of_ctrl_zero (2 ^ i) (2 ^ d) x s hctrl
    have hc := @next_ctrl_of_ifidI_zero (2 ^ i) (2 ^ d) x s hi
    -- the SRAM now holds the word at the target
    -- the SRAM now holds the word at the target
    refine .inl (stay hc (.flush2 ?_ hc e1 ?_ ?_ ?_))
    · rw [e6, hd1]; rfl
    · rw [e2, hpc]
    · rw [e3, hpc]
    · rw [e4, hpc, wordAt_next]
  | flush2 hi hctrl hd1 hprev hpc hout =>
    obtain ⟨e1, e2, e3, e4, e5, e6⟩ := @next_front_of_ctrl_zero (2 ^ i) (2 ^ d) x s hctrl
    have hc := @next_ctrl_of_ifidI_zero (2 ^ i) (2 ^ d) x s hi
    refine .inl (stay hc (.seq ?_ (fun x' => pcSrc_of_ctrl_zero hc) fun hz => ?_))
    · constructor
      · exact e1
      · rw [e5, hprev]
      · rw [e6, hd1, wordAt_next]; exact hout
      · rw [e2, hpc]
      · rw [e4, hpc, wordAt_next]
      · rw [e3, hpc, add_four_add_four]
    · rw [hazardFlag_of_ctrl_zero hc] at hz; cases hz

end Step

/-! ## Register writes and stores -/

section Logs

variable (imemDepth dmemDepth : Nat)

/-- Register-file writes of the first `n` edges, writes to `x0` left out. -/
def regWriteLog (xs : Nat → Word) (s : RvCpu) (n : Nat) : List (BitVec 5 × Word) :=
  Clocked.log (fun _ s => s.wbWrite.toList) (RvCpu.next imemDepth dmemDepth) xs s n

/-- Stores to `u_dmem` of the first `n` edges, as address and data. -/
def storeLog (xs : Nat → Word) (s : RvCpu) (n : Nat) : List (Word × Word) :=
  Clocked.log (fun _ s => (storeEvent s.uExu.memwrite s.uExu.aluout s.uExu.muxb).toList)
    (RvCpu.next imemDepth dmemDepth) xs s n

/-- The register writes in WB, MEM and EX, in the order they will be performed. -/
def pendingWrites (x : Word) (s : RvCpu) : List (BitVec 5 × Word) :=
  s.wbWrite.toList ++ (s.memRetire dmemDepth).regWrite.toList ++
    (s.exRetire dmemDepth x).regWrite.toList

/-- The stores in MEM and EX. -/
def pendingStores (x : Word) (s : RvCpu) : List (Word × Word) :=
  (s.memRetire dmemDepth).store.toList ++ (s.exRetire dmemDepth x).store.toList

variable {imemDepth dmemDepth : Nat} {xs : Nat → Word} {s : RvCpu}

/-- An edge performs the oldest pending write and takes in the effect of EX. -/
theorem regWriteLog_pending (n : Nat) (x' : Word) :
    regWriteLog imemDepth dmemDepth xs s (n + 1) ++ pendingWrites dmemDepth x'
        (Clocked.run (RvCpu.next imemDepth dmemDepth) xs s (n + 1)) =
      regWriteLog imemDepth dmemDepth xs s n ++ pendingWrites dmemDepth (xs n)
          (Clocked.run (RvCpu.next imemDepth dmemDepth) xs s n) ++
        ((Clocked.run (RvCpu.next imemDepth dmemDepth) xs s (n + 1)).exRetire
          dmemDepth x').regWrite.toList := by
  rw [regWriteLog, Clocked.log_succ, ← regWriteLog]
  simp only [pendingWrites, Clocked.run_succ, next_wbWrite, next_memRetire, List.append_assoc]

/-- The stores performed and under way, one cycle later. -/
theorem storeLog_pending (n : Nat) (x' : Word) :
    storeLog imemDepth dmemDepth xs s (n + 1) ++ pendingStores dmemDepth x'
        (Clocked.run (RvCpu.next imemDepth dmemDepth) xs s (n + 1)) =
      storeLog imemDepth dmemDepth xs s n ++ pendingStores dmemDepth (xs n)
          (Clocked.run (RvCpu.next imemDepth dmemDepth) xs s n) ++
        ((Clocked.run (RvCpu.next imemDepth dmemDepth) xs s (n + 1)).exRetire
          dmemDepth x').store.toList := by
  rw [storeLog, Clocked.log_succ, ← storeLog]
  simp only [pendingStores, Clocked.run_succ, next_memRetire, List.append_assoc]
  rfl

end Logs

/-- The logged effects of one interpreter step. -/
theorem isa_events {i d : Nat} {imem : Nat → Word} {σ : State} {ins : Instr}
    (hdec : decode (fetch (2 ^ i) imem σ) = some ins) :
    Rv32i.regWrites (2 ^ i) (2 ^ d) imem σ = (isaRetire (2 ^ d) σ ins).regWrite.toList ∧
      Rv32i.stores (2 ^ i) (2 ^ d) imem σ = (isaRetire (2 ^ d) σ ins).store.toList := by
  simp only [Rv32i.regWrites, Rv32i.stores, stepEffect, hdec, isaRetire]
  refine ⟨?_, trivial⟩
  cases (effect (2 ^ d) σ ins).regWrite with
  | none => rfl
  | some p => by_cases h : p.1 = 0#5 <;> simp [Option.filter, h]

section Run

variable {i d : Nat} {imem dmem : Nat → Word} {xs : Nat → Word} {s : RvCpu}

/-- **Whole runs.** After `t` edges the core is in the state of the interpreter
    after some `n ≤ t` instructions, and has performed their register writes and
    stores except the pending ones. -/
theorem sim_run (hs : Sim i d imem s (Rv32i.init dmem))
    (hpend : ∀ x, pendingWrites (2 ^ d) x s = [] ∧ pendingStores (2 ^ d) x s = [])
    (hlegal : ∀ a < 2 ^ i, (decode (imem a)).isSome = true) (hfirst : firstOk (imem 0) = true)
    (t : Nat)
    (hok : ∀ n < t, stepOk (2 ^ i) (2 ^ d) imem (Rv32i.exec (2 ^ i) (2 ^ d) imem dmem n) = true) :
    ∃ n ≤ t, Sim i d imem (Clocked.run (RvCpu.next (2 ^ i) (2 ^ d)) xs s t)
        (Rv32i.exec (2 ^ i) (2 ^ d) imem dmem n) ∧
      ∀ x, regWriteLog (2 ^ i) (2 ^ d) xs s t ++ pendingWrites (2 ^ d) x
            (Clocked.run (RvCpu.next (2 ^ i) (2 ^ d)) xs s t) =
          Rv32i.regWriteLog (2 ^ i) (2 ^ d) imem dmem n ∧
        storeLog (2 ^ i) (2 ^ d) xs s t ++ pendingStores (2 ^ d) x
            (Clocked.run (RvCpu.next (2 ^ i) (2 ^ d)) xs s t) =
          Rv32i.storeLog (2 ^ i) (2 ^ d) imem dmem n := by
  induction t with
  | zero => exact ⟨0, Nat.le_refl 0, hs, hpend⟩
  | succ t ih =>
    obtain ⟨n, hn, hsim, hlog⟩ := ih fun n hn => hok n (Nat.lt_succ_of_lt hn)
    -- either nothing has issued, or the interpreter takes its next step
    -- either nothing has issued, or the interpreter takes its next step
    rcases hsim.next hlegal hfirst (hok n (by omega)) (xs t) with ⟨hsim', hret⟩ | ⟨hsim', hret⟩
    · refine ⟨n, by omega, hsim', fun x => ?_⟩
      rw [regWriteLog_pending, storeLog_pending, (hlog (xs t)).1, (hlog (xs t)).2,
        Clocked.run_succ, hret x]
      simp
    · refine ⟨n + 1, by omega, hsim', fun x => ?_⟩
      obtain ⟨ins, hdec, hx⟩ := hret x
      obtain ⟨hreg, hst⟩ := @isa_events i d imem _ ins hdec
      rw [regWriteLog_pending, storeLog_pending, (hlog (xs t)).1, (hlog (xs t)).2,
        Clocked.run_succ, hx, Rv32i.regWriteLog_succ, Rv32i.storeLog_succ, hreg, hst]
      exact ⟨rfl, rfl⟩

end Run

/-- **The core follows RV32I where its three deviations cannot show.** Take memories
    of `2 ^ i` and `2 ^ d` words, any state `s` whose instruction memory holds words
    of the subset, and a reset of `k + 1` edges. If the word at address 0 may issue
    twice (`firstOk`) and the interpreter's first `t` instructions are all `stepOk`,
    then the register writes and the stores of the first `t` edges are prefixes of
    those of the interpreter. -/
theorem logs_prefix_of_stepOk (i d : Nat) (xs₀ xs : Nat → Word) (s : RvCpu) (k t : Nat)
    (hlegal : ∀ a < 2 ^ i, (decode (s.uIfu.uImem.memory a)).isSome = true)
    (hfirst : firstOk (s.uIfu.uImem.memory 0) = true)
    (hok : ∀ n < t, stepOk (2 ^ i) (2 ^ d) s.uIfu.uImem.memory
      (Rv32i.exec (2 ^ i) (2 ^ d) s.uIfu.uImem.memory s.uMemu.uDmem.memory n) = true) :
    ∃ n,
      regWriteLog (2 ^ i) (2 ^ d) xs (resetFor (2 ^ i) (2 ^ d) xs₀ s k) t <+:
        Rv32i.regWriteLog (2 ^ i) (2 ^ d) s.uIfu.uImem.memory s.uMemu.uDmem.memory n ∧
      storeLog (2 ^ i) (2 ^ d) xs (resetFor (2 ^ i) (2 ^ d) xs₀ s k) t <+:
        Rv32i.storeLog (2 ^ i) (2 ^ d) s.uIfu.uImem.memory s.uMemu.uDmem.memory n := by
  have hboot : resetFor (2 ^ i) (2 ^ d) xs₀ s k =
      boot s.uIfu.uImem.memory s.uMemu.uDmem.memory := run_reset _ _ _
  obtain ⟨n, -, -, hlog⟩ := @sim_run i d _ _ xs (resetFor (2 ^ i) (2 ^ d) xs₀ s k)
    (by rw [hboot]; exact sim_boot _) (by rw [hboot]; exact fun _ => ⟨rfl, rfl⟩) hlegal hfirst t hok
  obtain ⟨hreg, hst⟩ := hlog 0
  exact ⟨n, ⟨_, hreg⟩, ⟨_, hst⟩⟩

/-- A jump over a load-use pair that is harmless, as the use is a jump. -/
def followsProgram (a : Nat) : Word :=
  match a with
  | 0 => 0x0040006f -- jal x0, 4
  | 1 => 0x00002083 -- lw x1, 0(x0)
  | 2 => 0x00108167 -- jalr x2, 1(x1)
  | _ => 0x00108093 -- addi x1, x1, 1

/-- The program stalls once, and its logs are those of the interpreter. -/
theorem logs_prefix_followsProgram : ∃ n,
    regWriteLog (2 ^ 2) (2 ^ 2) (fun _ => 0)
        (resetFor (2 ^ 2) (2 ^ 2) (fun _ => 0) (boot followsProgram fun _ => 12) 0) 20 <+:
      Rv32i.regWriteLog (2 ^ 2) (2 ^ 2) followsProgram (fun _ => 12) n ∧
    storeLog (2 ^ 2) (2 ^ 2) (fun _ => 0)
        (resetFor (2 ^ 2) (2 ^ 2) (fun _ => 0) (boot followsProgram fun _ => 12) 0) 20 <+:
      Rv32i.storeLog (2 ^ 2) (2 ^ 2) followsProgram (fun _ => 12) n :=
  logs_prefix_of_stepOk 2 2 (fun _ => 0) (fun _ => 0) (boot followsProgram fun _ => 12) 0 20
    (by decide) (by decide) (by decide)

/-- Two increments of different registers. -/
def repeatProgram (a : Nat) : Word :=
  match a with
  | 0 => 0x00108093 -- addi x1, x1, 1
  | 1 => 0x00110113 -- addi x2, x2, 1
  | _ => 0x00000013 -- nop

/-- The core increments `x1` twice before it increments `x2`. -/
theorem not_logs_prefix_repeatProgram :
    (∀ a < 2 ^ 2, (decode (repeatProgram a)).isSome = true) ∧
    ¬ ∃ n, regWriteLog (2 ^ 2) (2 ^ 2) (fun _ => 0)
        (resetFor (2 ^ 2) (2 ^ 2) (fun _ => 0) (boot repeatProgram fun _ => 0) 0) 6 <+:
      Rv32i.regWriteLog (2 ^ 2) (2 ^ 2) repeatProgram (fun _ => 0) n := by
  refine ⟨by decide, ?_⟩
  rintro ⟨n, hn⟩
  have hcore : regWriteLog (2 ^ 2) (2 ^ 2) (fun _ => 0)
      (resetFor (2 ^ 2) (2 ^ 2) (fun _ => 0) (boot repeatProgram fun _ => 0) 0) 6 =
      [(1, 1), (1, 2)] := by decide
  have hisa : Rv32i.regWriteLog (2 ^ 2) (2 ^ 2) repeatProgram (fun _ => 0) 2 =
      [(1, 1), (2, 1)] := by decide
  rw [hcore] at hn
  -- the interpreter's log agrees with its first two entries in either direction
  have h2 : [(1, 1), (2, 1)] <+:
      Rv32i.regWriteLog (2 ^ 2) (2 ^ 2) repeatProgram (fun _ => 0) (max n 2) := by
    rw [← hisa]
    exact Clocked.log_prefix (Nat.le_max_right n 2)
  have h1 := hn.trans (Clocked.log_prefix (Nat.le_max_left n 2))
  have hpre := List.prefix_of_prefix_length_le h1 h2 (by decide)
  revert hpre
  decide

end RvCpu

end URiscV.Hdl
