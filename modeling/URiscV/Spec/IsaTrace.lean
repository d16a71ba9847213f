import URiscV.Spec.Throughput

/-!
# The issue stream is the trace of the ISA

Where the deviations of the core cannot show, the instructions that issue are those that
the interpreter executes, in order, one for one; only the one at address 0 comes twice,
unless it transfers control. The interpreter alone tells the cycles that they take: one for
each, and `penalty` more where a stall or a redirect follows.

## Key results

- `LateSim.next`: one edge behind the start
- `issues_trace`: whole runs
-/

namespace Rv32i

/-- The instructions that the interpreter executes, as addresses and words. -/
def trace (imemDepth dmemDepth : Nat) (imem mem : Nat → Word) (n : Nat) : List (Word × Word) :=
  Clocked.log (fun (_ : Unit) σ => [(σ.pc, fetch imemDepth imem σ)])
    (fun _ => step imemDepth dmemDepth imem) (fun _ => ()) (init mem) n

/-- One instruction more. -/
theorem trace_succ (imemDepth dmemDepth : Nat) (imem mem : Nat → Word) (n : Nat) :
    trace imemDepth dmemDepth imem mem (n + 1) = trace imemDepth dmemDepth imem mem n ++
      [((exec imemDepth dmemDepth imem mem n).pc,
        fetch imemDepth imem (exec imemDepth dmemDepth imem mem n))] := rfl

/-- The trace of `n` instructions. -/
theorem length_trace (imemDepth dmemDepth : Nat) (imem mem : Nat → Word) (n : Nat) :
    (trace imemDepth dmemDepth imem mem n).length = n := by
  induction n with
  | zero => rfl
  | succ n ih => rw [trace_succ, List.length_append, ih]; rfl

/-- A word of the subset is not zero. -/
theorem ne_zero_of_isSome {w : Word} (h : (decode w).isSome = true) : w ≠ 0 := by
  rintro rfl
  cases h

end Rv32i

namespace URiscV.Hdl

open Rv32i (Instr State decode effect fetch readReg step transfers transfersNext writeReg)

/-! ## An instruction that is executed twice -/

/-- The word may issue twice: it transfers control, or the instruction does not change its
    own operands (and is no load that stalls its own repetition). -/
def repeatable (w : Word) : Bool :=
  match decode w with
  | some (.lw rd rs1 imm) => (rd == 0 || rd != rs1) && !loadUse (.lw rd rs1 imm) w
  | some (.opImm _ rd rs1 _) => rd == 0 || rd != rs1
  | some (.op _ rd rs1 rs2) => rd == 0 || (rd != rs1 && rd != rs2)
  | some _ => true
  | none => false

section Twice

variable {d : Nat} {σ : State} {w : Word} {i : Instr}

/-- The state behind an instruction, back at its address. -/
def again (d : Nat) (σ : State) (i : Instr) : State :=
  { (effect (2 ^ d) σ i).apply (2 ^ d) σ with pc := σ.pc }

/-- A write to another register, or to `x0`. -/
theorem readReg_writeReg_of_ne {x : BitVec 5 → Word} {r r' : BitVec 5} {v : Word}
    (h : r = 0 ∨ r ≠ r') : readReg (writeReg x r v) r' = readReg x r' := by
  rw [writeReg]
  split
  · rfl
  · next hr => rw [readReg, readReg, Function.update_of_ne (h.resolve_left hr).symm]

/-- The same write twice. -/
theorem writeReg_writeReg (x : BitVec 5 → Word) (r : BitVec 5) (v : Word) :
    writeReg (writeReg x r v) r v = writeReg x r v := by
  rw [writeReg, writeReg]
  split
  · rfl
  · exact Function.update_idem _ _ _

/-- **An instruction that is executed twice.** Where it does not transfer control, the
    second time changes nothing. -/
theorem twice (hdec : decode w = some i) (hrep : repeatable w = true)
    (ht : transfers σ i = false) :
    archOf ((effect (2 ^ d) (again d σ i) i).apply (2 ^ d) (again d σ i)) =
        archOf ((effect (2 ^ d) σ i).apply (2 ^ d) σ) ∧
      transfers (again d σ i) i = false ∧ (shiftsOk σ i = true → shiftsOk (again d σ i) i = true) ∧
      loadUse i w = false := by
  simp only [repeatable, hdec] at hrep
  -- an instruction whose operands it does not change computes the same again
  cases i with
  | jal | jalr => cases ht
  | branch op rs1 rs2 imm => exact ⟨rfl, ht, fun h => h, rfl⟩
  | lui rd imm =>
    exact ⟨congrArg (Arch.mk · σ.mem) (writeReg_writeReg σ.x rd imm), rfl, fun _ => rfl, rfl⟩
  | auipc rd imm =>
    exact ⟨congrArg (Arch.mk · σ.mem) (writeReg_writeReg σ.x rd (σ.pc + imm)), rfl, fun _ => rfl,
      rfl⟩
  | sw rs1 rs2 imm =>
    exact ⟨congrArg (Arch.mk σ.x ·) (Function.update_idem _ _ _), rfl, fun _ => rfl, rfl⟩
  | lw rd rs1 imm =>
    simp only [Bool.and_eq_true, Bool.or_eq_true, beq_iff_eq, bne_iff_ne, Bool.not_eq_true'] at hrep
    refine ⟨?_, rfl, fun _ => rfl, hrep.2⟩
    show Arch.mk (writeReg (writeReg σ.x rd _) rd (σ.mem (Rv32i.wordIndex (2 ^ d)
      (readReg (writeReg σ.x rd _) rs1 + imm)))) σ.mem = _
    rw [readReg_writeReg_of_ne hrep.1, writeReg_writeReg]
    rfl
  | opImm op rd rs1 imm =>
    simp only [Bool.or_eq_true, beq_iff_eq, bne_iff_ne] at hrep
    refine ⟨?_, rfl, fun _ => rfl, rfl⟩
    show Arch.mk (writeReg (writeReg σ.x rd _) rd
      (op.eval (readReg (writeReg σ.x rd _) rs1) imm)) σ.mem = _
    rw [readReg_writeReg_of_ne hrep, writeReg_writeReg]
    rfl
  | op op rd rs1 rs2 =>
    simp only [Bool.or_eq_true, Bool.and_eq_true, beq_iff_eq, bne_iff_ne] at hrep
    have h1 : rd = 0 ∨ rd ≠ rs1 := hrep.imp_right And.left
    have h2 : rd = 0 ∨ rd ≠ rs2 := hrep.imp_right And.right
    have hops (v : Word) : readReg (writeReg σ.x rd v) rs1 = readReg σ.x rs1 ∧
        readReg (writeReg σ.x rd v) rs2 = readReg σ.x rs2 :=
      ⟨readReg_writeReg_of_ne h1, readReg_writeReg_of_ne h2⟩
    refine ⟨?_, rfl, fun h => ?_, rfl⟩
    · show Arch.mk (writeReg (writeReg σ.x rd _) rd (op.eval (readReg (writeReg σ.x rd _) rs1)
        (readReg (writeReg σ.x rd _) rs2))) σ.mem = _
      rw [(hops _).1, (hops _).2, writeReg_writeReg]
      rfl
    · show (rd == 0 || shiftOk (readReg (writeReg σ.x rd _) rs1)
        (readReg (writeReg σ.x rd _) rs2) op) = true
      rw [(hops _).1, (hops _).2]
      exact h

end Twice

/-! ## The cycles that an instruction takes -/

section Cost

variable (imemDepth dmemDepth : Nat) (imem : Nat → Word)

/-- The cycles that the instruction at the program counter takes besides its own: one for a
    stall, three for a redirect. -/
def penalty (σ : State) : Nat :=
  (decode (fetch imemDepth imem σ)).elim 0 fun i =>
    (loadUse i (fetch imemDepth imem (step imemDepth dmemDepth imem σ))).toNat +
      3 * (transfers σ i).toNat

/-- The cycles that the first `n` instructions take. -/
def cost (mem : Nat → Word) : Nat → Nat
  | 0 => 0
  | n + 1 => cost mem n + (1 + penalty imemDepth dmemDepth imem
      (Rv32i.exec imemDepth dmemDepth imem mem n))

end Cost

namespace RvCpu

/-! ## Cycles under way -/

/-- The cycles up to the next issue, from the slot in IF/ID and what ID/EX is about to do. -/
def owed (s : RvCpu) (x : Word) : Nat := s.slots + s.hazardFlag.toNat + 3 * (s.pcSrc x).toNat

section Owed

variable {imemDepth dmemDepth : Nat} {x : Word} {s : RvCpu}

/-- One cycle, in terms of what is owed. -/
theorem owed_next (h : FrontInv imemDepth s) (hwords : ∀ a, s.wordAt imemDepth a ≠ 0)
    (x' : Word) :
    1 + (s.next imemDepth dmemDepth x).owed x' = s.owed x + instructionsOf (s.issue x) +
      ((s.next imemDepth dmemDepth x).hazardFlag.toNat +
        3 * ((s.next imemDepth dmemDepth x).pcSrc x').toNat) := by
  have hslots := @slots_next imemDepth dmemDepth x s h hwords
  rw [owed, owed]
  omega

/-- Behind an empty slot in ID/EX. -/
theorem owed_of_ctrl_zero (hc : s.uIdu.idex.ctrl = {}) : s.owed x = s.slots := by
  rw [owed, hazardFlag_of_ctrl_zero hc, pcSrc_of_ctrl_zero hc]
  rfl

/-- One to four cycles are owed. -/
theorem owed_bounds (h : FrontInv imemDepth s) (hwords : ∀ a, s.wordAt imemDepth a ≠ 0) :
    1 ≤ s.owed x ∧ s.owed x ≤ 4 := by
  have hslots := @slots_bounds s
  cases h.phase with
  | boot _ _ _ _ _ hctrl | held _ _ _ _ _ hctrl | redirected _ _ hctrl
  | refetch _ _ _ _ hctrl =>
    rw [owed_of_ctrl_zero hctrl]
    omega
  | seq _ hi =>
    -- there is an instruction in IF/ID, and no stall together with a redirect
    rw [owed, slots_of_word (by rw [hi]; exact hwords _)]
    cases hp : s.pcSrc x with
    | true => rw [hazardFlag_of_pcSrc h.ctrl hp]; decide
    | false => cases s.hazardFlag <;> decide

end Owed

/-! ## Behind the start -/

section Late

variable (i d : Nat) (imem : Nat → Word)

/-- The phases in which the instruction at address 0 is no special one. -/
inductive Late (s : RvCpu) (σ : State) : Prop
  | seq (hst : Streaming (2 ^ i) s σ.pc) (hsrc : ∀ x, s.pcSrc x = false)
      (hz : s.hazardFlag = true → transfersNext (2 ^ i) imem σ = true)
  | held (hi : s.uIfu.ifidI = s.wordAt (2 ^ i) σ.pc) (hid : s.uIfu.ifidPc = σ.pc)
      (hctrl : s.uIdu.idex.ctrl = {}) (ht : transfersNext (2 ^ i) imem σ = true)
  | redirect (hsrc : ∀ x, s.pcSrc x = true) (htgt : ∀ x, s.pcBranchTarget x = σ.pc)
  | flush1 (hi : s.uIfu.ifidI = 0) (hctrl : s.uIdu.idex.ctrl = {}) (hd1 : s.uIfu.pcSrcD1 = true)
      (hpc : s.uIfu.pcR = σ.pc)
  | flush2 (hi : s.uIfu.ifidI = 0) (hctrl : s.uIdu.idex.ctrl = {}) (hd1 : s.uIfu.pcSrcD1 = false)
      (hprev : s.uIfu.pcPrev = σ.pc) (hpc : s.uIfu.pcR = σ.pc + 4)
      (hout : s.uIfu.uImem.dataOut = s.wordAt (2 ^ i) σ.pc)

/-- The simulation in one of them. -/
structure LateSim (s : RvCpu) (σ : State) : Prop where
  back : BackEndInv s
  front : FrontInv (2 ^ i) s
  mem : s.uIfu.uImem.memory = imem
  drained : ∀ x, s.drained (2 ^ d) x = archOf σ
  late : Late i imem s σ

variable {i d : Nat} {imem : Nat → Word} {s : RvCpu} {σ : State} {x : Word} {ins : Instr}

/-- The phases behind the start are phases. -/
theorem Late.phase (h : Late i imem s σ) : Phase i d imem s σ := by
  cases h with
  | seq hst hsrc hz => exact .seq hst hsrc hz
  | held hi hid hctrl ht => exact .held hi hid hctrl ht
  | redirect hsrc htgt => exact .redirect hsrc htgt
  | flush1 hi hctrl hd1 hpc => exact .flush1 hi hctrl hd1 hpc
  | flush2 hi hctrl hd1 hprev hpc hout => exact .flush2 hi hctrl hd1 hprev hpc hout

/-- And the simulation behind it is one. -/
theorem LateSim.sim (h : LateSim i d imem s σ) : Sim i d imem s σ :=
  ⟨h.back, h.mem, h.drained, h.late.phase⟩

/-- A phase with an instruction in IF/ID, and another one behind it, that is not that of
    the second issue. -/
theorem Phase.late (h : Phase i d imem s σ) (hi : s.uIfu.ifidI ≠ 0)
    (hprev : s.uIfu.pcPrev ≠ s.uIfu.ifidPc) (hpc : s.uIfu.ifidPc = 0 → σ.pc = 4 →
      ∃ x, s.pcSrc x = true) : Late i imem s σ := by
  cases h with
  | boot hi' | flush1 hi' | flush2 hi' => exact absurd hi' hi
  | first hi' hid hctrl hd1 hprev' => exact absurd (hprev'.trans hid.symm) hprev
  | again hi' hid hd1 hprev' hpc' hout hσ hsrc =>
    obtain ⟨x, hx⟩ := hpc hid hσ
    rw [hsrc] at hx
    cases hx
  | seq hst hsrc hz => exact .seq hst hsrc hz
  | held hi hid hctrl ht => exact .held hi hid hctrl ht
  | redirect hsrc htgt => exact .redirect hsrc htgt

/-- A legal program has no all-zero word. -/
theorem wordAt_ne_zero (hmem : s.uIfu.uImem.memory = imem)
    (hlegal : ∀ a < 2 ^ i, (decode (imem a)).isSome = true) (a : Word) :
    s.wordAt (2 ^ i) a ≠ 0 := by
  rw [wordAt, hmem, wordAddr_eq_wordIndex]
  exact Rv32i.ne_zero_of_isSome (hlegal _ (Nat.mod_lt _ (Nat.two_pow_pos i)))

/-- What ID/EX is about to do behind an issue. -/
theorem Issued.penalty (h : Issued i d imem s σ ins)
    (hdec : decode (fetch (2 ^ i) imem σ) = some ins) (hseq : transfers σ ins = false →
      s.uIfu.ifidI = fetch (2 ^ i) imem (step (2 ^ i) (2 ^ d) imem σ)) (x : Word) :
    s.hazardFlag.toNat + 3 * (s.pcSrc x).toNat = Hdl.penalty (2 ^ i) (2 ^ d) imem σ := by
  rw [h.hazard, h.pcSrc, Hdl.penalty, hdec, Option.elim_some]
  cases ht : transfers σ ins with
  | false => rw [hseq ht]
  | true =>
    -- a load does not transfer control
    cases ins with
    | lw => cases ht
    | _ => rfl

/-- The instruction at the program counter issues, from a phase behind the start. -/
theorem LateSim.next_of_issues (h : LateSim i d imem s σ)
    (hlegal : ∀ a < 2 ^ i, (decode (imem a)).isSome = true)
    (hok : stepOk (2 ^ i) (2 ^ d) imem σ = true) (hi : s.issues x = true)
    (hid : s.uIfu.ifidPc = σ.pc) (hword : s.uIfu.ifidI = fetch (2 ^ i) imem σ)
    (hlate : ∀ ins, decode (fetch (2 ^ i) imem σ) = some ins →
      Issued i d imem (s.next (2 ^ i) (2 ^ d) x) σ ins →
        Late i imem (s.next (2 ^ i) (2 ^ d) x) (step (2 ^ i) (2 ^ d) imem σ) ∧
          (transfers σ ins = false → (s.next (2 ^ i) (2 ^ d) x).uIfu.ifidI =
            fetch (2 ^ i) imem (step (2 ^ i) (2 ^ d) imem σ))) (x' : Word) :
    LateSim i d imem (s.next (2 ^ i) (2 ^ d) x) (step (2 ^ i) (2 ^ d) imem σ) ∧
      s.issue x = [(σ.pc, fetch (2 ^ i) imem σ)] ∧
      (s.next (2 ^ i) (2 ^ d) x).owed x' = s.owed x + penalty (2 ^ i) (2 ^ d) imem σ := by
  obtain ⟨ins, hdec⟩ : ∃ ins, decode (fetch (2 ^ i) imem σ) = some ins :=
    Option.isSome_iff_exists.mp (hlegal _ (Nat.mod_lt _ (Nat.two_pow_pos i)))
  have hsh : shiftsOk σ ins = true := by
    simp only [stepOk, hdec, Option.all_some, Bool.and_eq_true] at hok
    exact hok.1
  have hiss := issued_of_sim h.sim hi hid hword hdec hsh
  have hwords := wordAt_ne_zero h.mem hlegal
  have hissue : s.issue x = [(σ.pc, fetch (2 ^ i) imem σ)] := by
    rw [issue, if_pos hi, hid, hword]
  have hne : fetch (2 ^ i) imem σ ≠ 0 := by
    rw [← wordAt_eq_fetch h.mem]
    exact hwords _
  obtain ⟨hphase, hseq⟩ := hlate ins hdec hiss
  have howed := @owed_next (2 ^ i) (2 ^ d) x s h.front hwords x'
  rw [hissue, instructionsOf_singleton, if_neg hne, hiss.penalty hdec hseq] at howed
  exact ⟨⟨h.back.next, h.front.next, by rw [next_imem, h.mem], hiss.drained, hphase⟩, hissue,
    by omega⟩

/-- Nothing issues, or an empty slot. -/
theorem LateSim.next_of_stay (h : LateSim i d imem s σ)
    (hlegal : ∀ a < 2 ^ i, (decode (imem a)).isSome = true)
    (hc : (s.next (2 ^ i) (2 ^ d) x).uIdu.idex.ctrl = {})
    (hlate : Late i imem (s.next (2 ^ i) (2 ^ d) x) σ)
    (hempty : (s.issue x).filter (fun e => e.2 != 0) = []) (x' : Word) :
    LateSim i d imem (s.next (2 ^ i) (2 ^ d) x) σ ∧
      (s.issue x).filter (fun e => e.2 != 0) = [] ∧
      1 + (s.next (2 ^ i) (2 ^ d) x).owed x' = s.owed x := by
  refine ⟨⟨h.back.next, h.front.next, by rw [next_imem, h.mem], fun x' => ?_, hlate⟩, hempty, ?_⟩
  · exact (drained_next_of_ctrl_zero h.back hc x').1.trans (h.drained x)
  · have howed := @owed_next (2 ^ i) (2 ^ d) x s h.front (wordAt_ne_zero h.mem hlegal) x'
    rw [hazardFlag_of_ctrl_zero hc, pcSrc_of_ctrl_zero hc, instructionsOf,
      List.countP_eq_length_filter, hempty] at howed
    exact howed

/-- **One edge.** -/
theorem LateSim.next (h : LateSim i d imem s σ)
    (hlegal : ∀ a < 2 ^ i, (decode (imem a)).isSome = true)
    (hok : stepOk (2 ^ i) (2 ^ d) imem σ = true) (x x' : Word) :
    (LateSim i d imem (s.next (2 ^ i) (2 ^ d) x) σ ∧
      (s.issue x).filter (fun e => e.2 != 0) = [] ∧
      1 + (s.next (2 ^ i) (2 ^ d) x).owed x' = s.owed x) ∨
    (LateSim i d imem (s.next (2 ^ i) (2 ^ d) x) (step (2 ^ i) (2 ^ d) imem σ) ∧
      s.issue x = [(σ.pc, fetch (2 ^ i) imem σ)] ∧
      (s.next (2 ^ i) (2 ^ d) x).owed x' = s.owed x + penalty (2 ^ i) (2 ^ d) imem σ) := by
  have hempty (hi : s.uIfu.ifidI = 0) : (s.issue x).filter (fun e => e.2 != 0) = [] := by
    rw [issue]
    split
    · rw [hi]
      rfl
    · rfl
  have hnone (hi : s.issues x = false) : (s.issue x).filter (fun e => e.2 != 0) = [] := by
    rw [issue, hi]
    rfl
  -- one case for each phase: it stays at the instruction, or issues it
  cases h.late with
  | seq hst hsrc hz =>
    cases hh : s.hazardFlag with
    | true =>
      have hi : s.issues x = false := by simp [issues, hh]
      have hc : (s.next (2 ^ i) (2 ^ d) x).uIdu.idex.ctrl = {} := next_ctrl_of_not_issues hi
      refine .inl (h.next_of_stay hlegal hc (.held ?_ ?_ hc (hz hh)) (hnone hi) x')
      · rw [next_ifidI, hsrc, hst.d1, hh, wordAt_next]
        simpa using hst.ifidI
      · simp [next_ifidPc, hh, hst.ifidPc]
    | false =>
      have hi : s.issues x = true := by simp [issues, hsrc, hh]
      refine .inr (h.next_of_issues hlegal hok hi hst.ifidPc
        (hst.ifidI.trans (wordAt_eq_fetch h.mem)) (fun ins hdec hiss => ?_) x')
      have hst' : Streaming (2 ^ i) (s.next (2 ^ i) (2 ^ d) x) (σ.pc + 4) := hst.next (hsrc x) hh
      have hmem' : (s.next (2 ^ i) (2 ^ d) x).uIfu.uImem.memory = imem := by rw [next_imem, h.mem]
      have hpc (ht : transfers σ ins = false) : (step (2 ^ i) (2 ^ d) imem σ).pc = σ.pc + 4 := by
        rw [step_eq_apply hdec]
        exact Rv32i.nextPc_of_not_transfers ht
      refine ⟨(phase_of_issued h.mem hiss hdec hok hst').late ?_ ?_ fun hzero hfour => ?_,
        fun ht => ?_⟩
      · rw [hst'.ifidI]
        exact wordAt_ne_zero hmem' hlegal _
      · rw [hst'.pcPrev, hst'.ifidPc]
        bv_omega
      · -- the instruction at the end of the address space transfers control to address 4
        cases ht : transfers σ ins with
        | true => exact ⟨x, (hiss.pcSrc x).trans ht⟩
        | false =>
          rw [hpc ht, ← hst'.ifidPc, hzero] at hfour
          cases hfour
      · rw [hst'.ifidI, ← hpc ht]
        exact wordAt_eq_fetch hmem'
  | held hi hid hctrl ht =>
    refine .inr (h.next_of_issues hlegal hok (issues_of_ctrl_zero hctrl) hid
      (hi.trans (wordAt_eq_fetch h.mem)) (fun ins hdec hiss => ?_) x')
    have ht' : transfers σ ins = true := by simpa [transfersNext, hdec] using ht
    refine ⟨.redirect (fun x' => (hiss.pcSrc x').trans ht') (hiss.target ht'), fun hno => ?_⟩
    rw [ht'] at hno
    cases hno
  | redirect hsrc htgt =>
    have hi : s.issues x = false := by simp [issues, hsrc]
    have hz : s.hazardFlag = false := hazardFlag_of_pcSrc h.back.ctrl (hsrc x)
    have hc : (s.next (2 ^ i) (2 ^ d) x).uIdu.idex.ctrl = {} := next_ctrl_of_not_issues hi
    refine .inl (h.next_of_stay hlegal hc (.flush1 ?_ hc (hsrc x) ?_) (hnone hi) x')
    · simp [next_ifidI, hsrc]
    · simp [next_pcR, hz, hsrc, htgt]
  | flush1 hi hctrl hd1 hpc =>
    obtain ⟨e1, e2, e3, e4, e5, e6⟩ := @next_front_of_ctrl_zero (2 ^ i) (2 ^ d) x s hctrl
    have hc := @next_ctrl_of_ifidI_zero (2 ^ i) (2 ^ d) x s hi
    refine .inl (h.next_of_stay hlegal hc (.flush2 ?_ hc e1 ?_ ?_ ?_) (hempty hi) x')
    · rw [e6, hd1]
      rfl
    · rw [e2, hpc]
    · rw [e3, hpc]
    · rw [e4, hpc, wordAt_next]
  | flush2 hi hctrl hd1 hprev hpc hout =>
    obtain ⟨e1, e2, e3, e4, e5, e6⟩ := @next_front_of_ctrl_zero (2 ^ i) (2 ^ d) x s hctrl
    have hc := @next_ctrl_of_ifidI_zero (2 ^ i) (2 ^ d) x s hi
    have hz := hazardFlag_of_ctrl_zero hc
    refine .inl (h.next_of_stay hlegal hc
      (.seq ?_ (fun x' => pcSrc_of_ctrl_zero hc) (by simp [hz])) (hempty hi) x')
    exact ⟨e1, by rw [e5, hprev], by rw [e6, hd1, wordAt_next]; exact hout, by rw [e2, hpc],
      by rw [e4, hpc, wordAt_next], by rw [e3, hpc, add_four_add_four]⟩

/-- Runs behind the start. -/
theorem LateSim.run {dmem : Nat → Word} {xs : Nat → Word} {m : Nat}
    (h : LateSim i d imem s (Rv32i.exec (2 ^ i) (2 ^ d) imem dmem m))
    (howed : s.owed (xs 0) = cost (2 ^ i) (2 ^ d) imem dmem m)
    (hlegal : ∀ a < 2 ^ i, (decode (imem a)).isSome = true) (t : Nat)
    (hok : ∀ n < m + t,
      stepOk (2 ^ i) (2 ^ d) imem (Rv32i.exec (2 ^ i) (2 ^ d) imem dmem n) = true) :
    ∃ n ≤ m + t,
      LateSim i d imem (Clocked.run (RvCpu.next (2 ^ i) (2 ^ d)) xs s t)
        (Rv32i.exec (2 ^ i) (2 ^ d) imem dmem n) ∧
      Rv32i.trace (2 ^ i) (2 ^ d) imem dmem m ++
          (issueStream (2 ^ i) (2 ^ d) xs s t).filter (fun e => e.2 != 0) =
        Rv32i.trace (2 ^ i) (2 ^ d) imem dmem n ∧
      t + (Clocked.run (RvCpu.next (2 ^ i) (2 ^ d)) xs s t).owed (xs t) =
        cost (2 ^ i) (2 ^ d) imem dmem n := by
  induction t with
  | zero => exact ⟨m, Nat.le_refl m, h, List.append_nil _, (Nat.zero_add _).trans howed⟩
  | succ t ih =>
    obtain ⟨n, hn, hsim, htrace, hcost⟩ := ih fun n hn => hok n (by omega)
    rw [issueStream_succ, List.filter_append, ← List.append_assoc, htrace, Clocked.run_succ]
    rcases hsim.next hlegal (hok n (by omega)) (xs t) (xs (t + 1)) with
      ⟨hsim', hiss, howed'⟩ | ⟨hsim', hiss, howed'⟩
    · exact ⟨n, by omega, hsim', by rw [hiss, List.append_nil], by omega⟩
    · refine ⟨n + 1, by omega, hsim', ?_, by rw [howed', cost]; omega⟩
      have hword : fetch (2 ^ i) imem (Rv32i.exec (2 ^ i) (2 ^ d) imem dmem n) ≠ 0 :=
        Rv32i.ne_zero_of_isSome (hlegal _ (Nat.mod_lt _ (Nat.two_pow_pos i)))
      rw [hiss, List.filter_cons_of_pos (by simpa using hword), List.filter_nil,
        Rv32i.trace_succ]

end Late

/-! ## The start -/

section Start

variable {i d : Nat} {imem dmem : Nat → Word} {x₀ : Word} {ins : Instr}

/-- One edge behind a reset the word at address 0 is in IF/ID, and comes again. -/
theorem next_boot (imemDepth dmemDepth : Nat) (x₀ : Word) :
    let s := (boot imem dmem).next imemDepth dmemDepth x₀
    (s.uIfu.ifidI = imem 0 ∧ s.uIfu.ifidPc = 0 ∧ s.uIdu.idex.ctrl = {}) ∧
      s.uIfu.pcSrcD1 = false ∧ s.uIfu.pcPrev = 0 ∧ s.uIfu.pcR = 4 ∧
      s.uIfu.uImem.dataOut = imem 0 := by
  obtain ⟨e1, e2, e3, e4, e5, e6⟩ :=
    @next_front_of_ctrl_zero imemDepth dmemDepth x₀ (boot imem dmem) rfl
  have hc := @next_ctrl_of_ifidI_zero imemDepth dmemDepth x₀ (boot imem dmem) rfl
  refine ⟨⟨e6, e5, hc⟩, e1, e2, e3, e4.trans ?_⟩
  simp [boot, wordAt, Sram.wordAddr]

/-- The first cycle behind a reset. -/
theorem sim_next_boot :
    Sim i d imem ((boot imem dmem).next (2 ^ i) (2 ^ d) x₀) (Rv32i.init dmem) := by
  obtain ⟨⟨hi, hid, hc⟩, hd1, hprev, hpc, hout⟩ := @next_boot imem dmem (2 ^ i) (2 ^ d) x₀
  exact ⟨(backEndInv_boot _ _).next, next_imem _ _,
    fun x' => (drained_next_of_ctrl_zero (backEndInv_boot _ _) hc x').1.trans (drained_boot _ _ _),
    .first hi hid hc hd1 hprev hpc hout rfl⟩

/-- The first instruction is the word at 0. -/
theorem fetch_init : fetch (2 ^ i) imem (Rv32i.init dmem) = imem 0 := by
  simp [fetch, Rv32i.init, Rv32i.wordIndex]

/-- Two edges behind a reset: the instruction at address 0 has issued, and it is in IF/ID
    once more. -/
structure Once (i d : Nat) (imem dmem : Nat → Word) (ins : Instr) (s : RvCpu) : Prop where
  back : BackEndInv s
  front : FrontInv (2 ^ i) s
  mem : s.uIfu.uImem.memory = imem
  issued : Issued i d imem s (Rv32i.init dmem) ins
  ifidI : s.uIfu.ifidI = imem 0
  ifidPc : s.uIfu.ifidPc = 0
  d1 : s.uIfu.pcSrcD1 = false
  prev : s.uIfu.pcPrev = 4
  pc : s.uIfu.pcR = 8
  out : s.uIfu.uImem.dataOut = s.wordAt (2 ^ i) 4

/-- When it transfers control, it does so once. -/
theorem Once.late {s : RvCpu} (h : Once i d imem dmem ins s)
    (hdec : decode (imem 0) = some ins) (ht : transfers (Rv32i.init dmem) ins = true) (x : Word) :
    LateSim i d imem s (step (2 ^ i) (2 ^ d) imem (Rv32i.init dmem)) ∧
      s.owed x = cost (2 ^ i) (2 ^ d) imem dmem 1 := by
  refine ⟨⟨h.back, h.front, h.mem, h.issued.drained,
    .redirect (fun x' => (h.issued.pcSrc x').trans ht) (h.issued.target ht)⟩, ?_⟩
  have hword : s.uIfu.ifidI ≠ 0 := by
    rw [h.ifidI]
    rintro hz
    rw [hz] at hdec
    cases hdec
  have hpen := h.issued.penalty (fetch_init ▸ hdec) (fun hno => by rw [ht] at hno; cases hno) x
  rw [owed, slots_of_word hword, Nat.add_assoc, hpen]
  exact (Nat.zero_add _).symm

section Once

variable (hok : stepOk (2 ^ i) (2 ^ d) imem (Rv32i.init dmem) = true)
  (hdec : decode (imem 0) = some ins)

include hok hdec

/-- In the second cycle the instruction at 0 has issued once. -/
theorem once_boot (x : Word) :
    Once i d imem dmem ins
      (((boot imem dmem).next (2 ^ i) (2 ^ d) x₀).next (2 ^ i) (2 ^ d) x) := by
  obtain ⟨⟨hi, hid, hc⟩, hd1, hprev, hpc, hout⟩ := @next_boot imem dmem (2 ^ i) (2 ^ d) x₀
  obtain ⟨e1, e2, e3, e4, e5, e6⟩ := @next_front_of_ctrl_zero (2 ^ i) (2 ^ d) x _ hc
  have hsim := @sim_next_boot i d imem dmem x₀
  have hdec' : decode (fetch (2 ^ i) imem (Rv32i.init dmem)) = some ins := by rw [fetch_init, hdec]
  have hsh : shiftsOk (Rv32i.init dmem) ins = true := by
    simp only [stepOk, hdec', Option.all_some, Bool.and_eq_true] at hok
    exact hok.1
  refine ⟨hsim.back.next, (frontInv_boot _ _).next.next, by rw [next_imem, hsim.mem], ?_, ?_,
    e5.trans hprev, e1, e2.trans hpc, ?_, ?_⟩
  · exact issued_of_sim hsim (@issues_of_ctrl_zero x _ hc) hid (hi.trans fetch_init.symm) hdec' hsh
  · rw [e6, hd1]
    exact hout
  · rw [e3, hpc]
    rfl
  · rw [e4, hpc]
    simp only [wordAt_next]

variable {s : RvCpu} (h : Once i d imem dmem ins s)

include h

/-- Otherwise it issues again, in vain. -/
theorem Once.late_next (hrep : repeatable (imem 0) = true)
    (hlegal : ∀ a < 2 ^ i, (decode (imem a)).isSome = true)
    (ht : transfers (Rv32i.init dmem) ins = false) (x y : Word) :
    s.issue x = [(0, imem 0)] ∧
      LateSim i d imem (s.next (2 ^ i) (2 ^ d) x)
        (step (2 ^ i) (2 ^ d) imem (Rv32i.init dmem)) ∧
      (s.next (2 ^ i) (2 ^ d) x).owed y = cost (2 ^ i) (2 ^ d) imem dmem 1 := by
  have hdec' : decode (fetch (2 ^ i) imem (Rv32i.init dmem)) = some ins := by rw [fetch_init, hdec]
  have hstep : step (2 ^ i) (2 ^ d) imem (Rv32i.init dmem) =
      (effect (2 ^ d) (Rv32i.init dmem) ins).apply (2 ^ d) (Rv32i.init dmem) := step_eq_apply hdec'
  have hpc₁ : (step (2 ^ i) (2 ^ d) imem (Rv32i.init dmem)).pc = 4 := by
    rw [hstep]
    exact Rv32i.nextPc_of_not_transfers ht
  simp only [stepOk, hdec', Option.all_some, Bool.and_eq_true] at hok
  -- the second time it is executed on the state behind the first time
  obtain ⟨hsame, ht', hsh, hload⟩ := @twice d (Rv32i.init dmem) _ _ hdec hrep ht
  have hexec (y : Word) : ExecutesAs (2 ^ d) y (again d (Rv32i.init dmem) ins) (imem 0) ins :=
    executesAs_of_decode hdec (hsh hok.1) y
  have hsrc (y : Word) : s.pcSrc y = false := (h.issued.pcSrc y).trans ht
  have hz : s.hazardFlag = false := by rw [h.issued.hazard, h.ifidI, hload]
  have hissues : s.issues x = true := by rw [issues, hsrc, hz]; rfl
  have hdrained (y : Word) : s.drained (2 ^ d) y = archOf (again d (Rv32i.init dmem) ins) := by
    rw [h.issued.drained, hstep]
    rfl
  have hmem' : (s.next (2 ^ i) (2 ^ d) x).uIfu.uImem.memory = imem := by rw [next_imem, h.mem]
  have hst : Streaming (2 ^ i) (s.next (2 ^ i) (2 ^ d) x) 4 := by
    constructor
    · exact hsrc x
    · simp [next_ifidPc, hz, h.prev]
    · rw [next_ifidI, hsrc, hz, h.d1, wordAt_next]; simpa using h.out
    · rw [next_pcPrev, h.pc]; rfl
    · rw [next_imemOut_of_not_pcSrc (hsrc x), h.pc, wordAt_next]; rfl
    · simp only [next_pcR, hz, hsrc, h.pc]; rfl
  have hnextI : (s.next (2 ^ i) (2 ^ d) x).uIfu.ifidI =
      fetch (2 ^ i) imem (step (2 ^ i) (2 ^ d) imem (Rv32i.init dmem)) := by
    rw [hst.ifidI, ← hpc₁]
    exact wordAt_eq_fetch hmem'
  have hnextSrc (y : Word) : (s.next (2 ^ i) (2 ^ d) x).pcSrc y = false := by
    rw [pcSrc, exOut_eq_ex h.back hissues, hdrained, h.ifidI, h.ifidPc]
    exact (hexec y).pcSrc.trans ht'
  have hnextHaz : (s.next (2 ^ i) (2 ^ d) x).hazardFlag =
      loadUse ins (fetch (2 ^ i) imem (step (2 ^ i) (2 ^ d) imem (Rv32i.init dmem))) := by
    rw [hazardFlag_of_issues hissues (h.ifidI ▸ hdec), hnextI]
  refine ⟨by rw [issue, if_pos hissues, h.ifidI, h.ifidPc], ⟨h.back.next, h.front.next, hmem',
    fun y => ?_, .seq (hpc₁ ▸ hst) hnextSrc fun hz' => ?_⟩, ?_⟩
  · rw [drained_next h.back, issue, if_pos hissues, hdrained, h.ifidI, h.ifidPc, Arch.run,
      List.foldl_cons, List.foldl_nil]
    exact (step_of_executesAs (hexec y)).trans (hsame.trans (congrArg archOf hstep.symm))
  · rw [hnextHaz] at hz'
    simpa [hz'] using hok.2
  · have hword : (s.next (2 ^ i) (2 ^ d) x).uIfu.ifidI ≠ 0 := by
      rw [hst.ifidI]
      exact wordAt_ne_zero hmem' hlegal 4
    have hpen : penalty (2 ^ i) (2 ^ d) imem (Rv32i.init dmem) =
        (loadUse ins (fetch (2 ^ i) imem (step (2 ^ i) (2 ^ d) imem (Rv32i.init dmem)))).toNat := by
      rw [penalty, hdec', Option.elim_some, ht]
      rfl
    rw [owed, slots_of_word hword, hnextHaz, hnextSrc, ← hpen]
    exact (Nat.zero_add _).symm

end Once

/-- The word at address 0, when it is to issue twice and the first `t` cycles are enough
    for that. -/
def secondIssue (imemDepth : Nat) (imem dmem : Nat → Word) (t : Nat) : List (Word × Word) :=
  if 3 ≤ t ∧ transfersNext imemDepth imem (Rv32i.init dmem) = false then [(0, imem 0)] else []

/-- It is too early for a second issue. -/
theorem secondIssue_of_lt {t : Nat} (ht : t < 3) : secondIssue (2 ^ i) imem dmem t = [] :=
  if_neg fun h => absurd h.1 (by omega)

/-- A transfer of control issues once. -/
theorem secondIssue_of_transfers {t : Nat} (hdec : decode (imem 0) = some ins)
    (ht : transfers (Rv32i.init dmem) ins = true) : secondIssue (2 ^ i) imem dmem t = [] := by
  rw [secondIssue, if_neg]
  rw [transfersNext, fetch_init, hdec, Option.all_some, ht]
  exact fun h => Bool.noConfusion h.2

/-- Any other instruction issues twice. -/
theorem secondIssue_of_not_transfers {t : Nat} (hdec : decode (imem 0) = some ins)
    (ht : transfers (Rv32i.init dmem) ins = false) (h3 : 3 ≤ t) :
    secondIssue (2 ^ i) imem dmem t = [(0, imem 0)] := by
  rw [secondIssue, if_pos]
  rw [transfersNext, fetch_init, hdec, Option.all_some, ht]
  exact ⟨h3, rfl⟩

/-- The trace of the first instruction. -/
theorem trace_one : Rv32i.trace (2 ^ i) (2 ^ d) imem dmem 1 = [(0, imem 0)] := by
  rw [Rv32i.trace_succ]
  show [(0, fetch (2 ^ i) imem (Rv32i.init dmem))] = [(0, imem 0)]
  rw [fetch_init]

/-- The first two cycles. -/
theorem issueStream_boot_two (hlegal : ∀ a < 2 ^ i, (decode (imem a)).isSome = true)
    (xs : Nat → Word) :
    (issueStream (2 ^ i) (2 ^ d) xs (boot imem dmem) 1).filter (fun e => e.2 != 0) = [] ∧
    (issueStream (2 ^ i) (2 ^ d) xs (boot imem dmem) 2).filter (fun e => e.2 != 0) =
      Rv32i.trace (2 ^ i) (2 ^ d) imem dmem 1 := by
  obtain ⟨⟨hi, hid, hc⟩, -⟩ := @next_boot imem dmem (2 ^ i) (2 ^ d) (xs 0)
  have hone : issueStream (2 ^ i) (2 ^ d) xs (boot imem dmem) 1 = [(0, 0)] := rfl
  have hword : imem 0 ≠ 0 := Rv32i.ne_zero_of_isSome (hlegal 0 (Nat.two_pow_pos i))
  refine ⟨by rw [hone]; rfl, ?_⟩
  rw [issueStream_succ, hone, Clocked.run_succ, Clocked.run_zero, issue,
    if_pos (issues_of_ctrl_zero hc), hi, hid, trace_one]
  show List.filter _ [(0, 0), (0, imem 0)] = [(0, imem 0)]
  rw [List.filter_cons_of_neg (by decide), List.filter_cons_of_pos (by simpa using hword),
    List.filter_nil]

/-- Runs from a reset. -/
theorem drained_trace_boot (hlegal : ∀ a < 2 ^ i, (decode (imem a)).isSome = true)
    (hrep : repeatable (imem 0) = true) (xs : Nat → Word) (t : Nat)
    (hok : ∀ n < t,
      stepOk (2 ^ i) (2 ^ d) imem (Rv32i.exec (2 ^ i) (2 ^ d) imem dmem n) = true) :
    ∃ n ≤ t,
      (∀ x, (Clocked.run (RvCpu.next (2 ^ i) (2 ^ d)) xs (boot imem dmem) t).drained (2 ^ d) x =
        archOf (Rv32i.exec (2 ^ i) (2 ^ d) imem dmem n)) ∧
      (issueStream (2 ^ i) (2 ^ d) xs (boot imem dmem) t).filter (fun e => e.2 != 0) =
        secondIssue (2 ^ i) imem dmem t ++ Rv32i.trace (2 ^ i) (2 ^ d) imem dmem n ∧
      (secondIssue (2 ^ i) imem dmem t).length + cost (2 ^ i) (2 ^ d) imem dmem n ≤ t + 2 ∧
      t ≤ (secondIssue (2 ^ i) imem dmem t).length + cost (2 ^ i) (2 ^ d) imem dmem n + 1 := by
  obtain ⟨hone, htwo⟩ := @issueStream_boot_two i d imem dmem hlegal xs
  obtain ⟨ins, hdec⟩ : ∃ ins, decode (imem 0) = some ins :=
    Option.isSome_iff_exists.mp (hlegal 0 (Nat.two_pow_pos i))
  match t, hok with
  | 0, _ =>
    rw [secondIssue_of_lt (by decide)]
    exact ⟨0, Nat.le_refl 0, (@sim_boot i d imem dmem).drained, rfl, Nat.zero_le 2, Nat.zero_le 1⟩
  | 1, _ =>
    rw [secondIssue_of_lt (by decide)]
    exact ⟨0, Nat.zero_le 1, sim_next_boot.drained, hone, Nat.zero_le 3, Nat.le_refl 1⟩
  | t + 2, hok =>
    have hok₀ : stepOk (2 ^ i) (2 ^ d) imem (Rv32i.init dmem) = true := hok 0 (by omega)
    have honce := @once_boot i d imem dmem (xs 0) ins hok₀ hdec (xs 1)
    rw [Nat.add_comm t 2, Clocked.run_add, issueStream, Clocked.log_add, ← issueStream,
      ← issueStream, List.filter_append, htwo]
    cases ht : transfers (Rv32i.init dmem) ins with
    | true =>
      -- nothing comes twice
      obtain ⟨hlate, howed⟩ := honce.late hdec ht (xs 2)
      obtain ⟨n, hn, hsim', htrace, hcost⟩ :=
        @LateSim.run i d imem _ dmem (fun k => xs (2 + k)) 1 hlate howed hlegal t
          fun n hn => hok n (by omega)
      have hbounds := owed_bounds (x := xs (2 + t)) hsim'.front (wordAt_ne_zero hsim'.mem hlegal)
      rw [secondIssue_of_transfers hdec ht]
      refine ⟨n, by omega, hsim'.drained, htrace, ?_, ?_⟩
      · rw [List.length_nil]
        omega
      · rw [List.length_nil]
        omega
    | false =>
      match t with
      | 0 =>
        have hcost : cost (2 ^ i) (2 ^ d) imem dmem 1 =
            1 + penalty (2 ^ i) (2 ^ d) imem (Rv32i.init dmem) := Nat.zero_add _
        have hpen : penalty (2 ^ i) (2 ^ d) imem (Rv32i.init dmem) ≤ 1 := by
          rw [penalty, fetch_init, hdec, Option.elim_some, ht]
          exact Bool.toNat_le _
        rw [secondIssue_of_lt (by decide)]
        refine ⟨1, by omega, honce.issued.drained, List.append_nil _, ?_, ?_⟩
        · rw [List.length_nil]
          omega
        · rw [List.length_nil]
          omega
      | t + 1 =>
        obtain ⟨hissue, hlate, howed⟩ := honce.late_next hok₀ hdec hrep hlegal ht (xs 2) (xs 3)
        obtain ⟨n, hn, hsim', htrace, hcost⟩ :=
          @LateSim.run i d imem _ dmem (fun k => xs (2 + (1 + k))) 1 hlate howed hlegal t
            fun n hn => hok n (by omega)
        have hbounds := owed_bounds (x := xs (2 + (1 + t))) hsim'.front
          (wordAt_ne_zero hsim'.mem hlegal)
        rw [secondIssue_of_not_transfers hdec ht (by omega)]
        refine ⟨n, by omega, ?_, ?_, ?_, ?_⟩
        · rw [Nat.add_comm t 1, Clocked.run_add]
          exact hsim'.drained
        · have hword : imem 0 ≠ 0 := Rv32i.ne_zero_of_isSome (hlegal 0 (Nat.two_pow_pos i))
          have hthird : issueStream (2 ^ i) (2 ^ d) (fun k => xs (2 + k))
              (Clocked.run (RvCpu.next (2 ^ i) (2 ^ d)) xs (boot imem dmem) 2) 1 =
                [(0, imem 0)] := hissue
          rw [Nat.add_comm t 1, issueStream, Clocked.log_add, ← issueStream, ← issueStream,
            List.filter_append, hthird,
            List.filter_cons_of_pos (by simpa using hword), List.filter_nil, ← htrace, trace_one]
          rfl
        · rw [List.length_singleton]
          omega
        · rw [List.length_singleton]
          omega

end Start

/-! ## Whole runs -/

/-- **The core executes the trace of the ISA.** Take memories of `2 ^ i` and `2 ^ d` words,
    any state `s` whose instruction memory holds words of the subset, and a reset of
    `k + 1` edges, where the deviations of the core cannot show (`repeatable`, `stepOk`). The
    instructions that issue in the first `t` cycles are the first `n` that the interpreter
    executes, once each and in order; only the one at address 0 comes a second time, if
    it does not transfer control. Registers and data memory become those of the
    interpreter after `n` instructions, and `t` is what these instructions cost, up to the
    two cycles of the start and the one to four that are under way. -/
theorem issues_trace (i d : Nat) (xs₀ xs : Nat → Word) (s : RvCpu) (k t : Nat)
    (hlegal : ∀ a < 2 ^ i, (decode (s.uIfu.uImem.memory a)).isSome = true)
    (hrep : repeatable (s.uIfu.uImem.memory 0) = true)
    (hok : ∀ n < t, stepOk (2 ^ i) (2 ^ d) s.uIfu.uImem.memory
      (Rv32i.exec (2 ^ i) (2 ^ d) s.uIfu.uImem.memory s.uMemu.uDmem.memory n) = true) :
    ∃ n ≤ t,
      let imem := s.uIfu.uImem.memory
      let dmem := s.uMemu.uDmem.memory
      let first := secondIssue (2 ^ i) imem dmem t
      (streamAfter (2 ^ i) (2 ^ d) xs₀ xs s k t).filter (fun e => e.2 != 0) =
          first ++ Rv32i.trace (2 ^ i) (2 ^ d) imem dmem n ∧
        (after (2 ^ i) (2 ^ d) xs₀ xs s k (t + 3)).uIdu.X =
          (Rv32i.exec (2 ^ i) (2 ^ d) imem dmem n).x ∧
        (after (2 ^ i) (2 ^ d) xs₀ xs s k (t + 2)).uMemu.uDmem.memory =
          (Rv32i.exec (2 ^ i) (2 ^ d) imem dmem n).mem ∧
        first.length + cost (2 ^ i) (2 ^ d) imem dmem n ≤ t + 2 ∧
        t ≤ first.length + cost (2 ^ i) (2 ^ d) imem dmem n + 1 := by
  have hboot : resetFor (2 ^ i) (2 ^ d) xs₀ s k =
      boot s.uIfu.uImem.memory s.uMemu.uDmem.memory := run_reset _ _ _
  obtain ⟨n, hn, hdrained, hstream, hcost⟩ := drained_trace_boot hlegal hrep xs t hok
  refine ⟨n, hn, ?_⟩
  intro imem dmem first
  rw [streamAfter, after, after, hboot]
  refine ⟨hstream, ?_, ?_, hcost⟩
  · rw [X_eq_drained (backEndInv_boot _ _), hdrained]
    rfl
  · rw [dmem_eq_drained, hdrained]
    rfl

/-- The jump of this program at address 0 issues once. -/
theorem issues_trace_followsProgram : ∃ n ≤ 20,
    let first := secondIssue (2 ^ 2) followsProgram (fun _ => 12) 20
    (streamAfter (2 ^ 2) (2 ^ 2) (fun _ => 0) (fun _ => 0) (boot followsProgram fun _ => 12) 0
        20).filter (fun e => e.2 != 0) =
        first ++ Rv32i.trace (2 ^ 2) (2 ^ 2) followsProgram (fun _ => 12) n ∧
      (after (2 ^ 2) (2 ^ 2) (fun _ => 0) (fun _ => 0) (boot followsProgram fun _ => 12) 0
        23).uIdu.X = (Rv32i.exec (2 ^ 2) (2 ^ 2) followsProgram (fun _ => 12) n).x ∧
      (after (2 ^ 2) (2 ^ 2) (fun _ => 0) (fun _ => 0) (boot followsProgram fun _ => 12) 0
        22).uMemu.uDmem.memory = (Rv32i.exec (2 ^ 2) (2 ^ 2) followsProgram (fun _ => 12) n).mem ∧
      first.length + cost (2 ^ 2) (2 ^ 2) followsProgram (fun _ => 12) n ≤ 22 ∧
      20 ≤ first.length + cost (2 ^ 2) (2 ^ 2) followsProgram (fun _ => 12) n + 1 :=
  issues_trace 2 2 (fun _ => 0) (fun _ => 0) (boot followsProgram fun _ => 12) 0 20
    (by decide) (by decide) (by decide)

end URiscV.Hdl.RvCpu
