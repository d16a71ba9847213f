import Mathlib.Tactic.Push
import URiscV.Rv32i.Program
import URiscV.Spec.IsaTrace
import URiscV.Tb.RvScoreboard

/-!
# What the core scoreboard says

Its reference registers follow the ISA on the five operations it computes; its verdict says
nothing but that there were transactions.

## Key results

- `write_follows`: one instruction
- `scoreboard_follows_isa`: whole programs
-/

namespace URiscV.Tb.RiscvScoreboard

open Rv32i (Instr IntOp Word decode immI opcode readReg writeReg)

/-! ## The verdict -/

/-- Every transaction counts as passed. -/
theorem counters_afterAll (txns : List RiscvTransaction) :
    (afterAll txns).transactionsReceived = BitVec.ofNat 32 txns.length ∧
      (afterAll txns).transactionsPassed = BitVec.ofNat 32 txns.length ∧
      (afterAll txns).transactionsFailed = 0 := by
  induction txns using List.reverseRecOn with
  | nil => exact ⟨rfl, rfl, rfl⟩
  | append_singleton txns txn ih =>
    obtain ⟨hreceived, hpassed, hfailed⟩ := ih
    rw [afterAll_concat, List.length_append, BitVec.ofNat_add]
    exact ⟨congrArg (· + 1) hreceived, congrArg (· + 1) hpassed, hfailed⟩

/-- So a test passes when there was a transaction, as far as the counter holds. -/
theorem report_afterAll (txns : List RiscvTransaction) :
    (afterAll txns).reportPhase =
      if 0 < (BitVec.ofNat 32 txns.length).toInt then .passed else .silent := by
  obtain ⟨hreceived, -, hfailed⟩ := counters_afterAll txns
  rw [reportPhase, hreceived, hfailed]
  rfl

/-! ## Words -/

section Words

variable {w : Word} {i : Instr}

/-- A word of another opcode is no integer computation. -/
theorem decode_of_opcode_ne (h : decode w = some i) (himm : opcode w ≠ 0b0010011)
    (hreg : opcode w ≠ 0b0110011) :
    (∀ op rd rs1 imm, i ≠ .opImm op rd rs1 imm) ∧ ∀ op rd rs1 rs2, i ≠ .op op rd rs1 rs2 := by
  unfold decode at h
  constructor
  all_goals
    rintro op rd rs1 x rfl
    split at h <;> simp_all

end Words

/-! ## One instruction -/

/-- The instructions that the reference model keeps up with: those it computes, and those
    that write no register. -/
def modelled : Instr → Bool
  | .opImm .add _ _ _ => true
  | .op .add _ _ _ => true
  | .op .sub _ _ _ => true
  | .op .and _ _ _ => true
  | .op .or _ _ _ => true
  | i => i.dest.all (· == 0)

/-- The low halves of the reference registers are the registers of the ISA. -/
def Follows (s : RiscvScoreboard) (x : BitVec 5 → Word) : Prop :=
  ∀ r, (s.refRegs r).setWidth 32 = readReg x r

section Step

variable {s : RiscvScoreboard} {w : Word} {pc : BitVec 64} {x : BitVec 5 → Word} {v : BitVec 64}
  {u : Word}

/-- A write to the register of the word. -/
theorem Follows.setReg (hs : s.Follows x) (hv : Rv32i.rd w ≠ 0 → v.setWidth 32 = u)
    (r : BitVec 5) :
    (s.setReg ⟨w, pc⟩ v r).setWidth 32 = readReg (writeReg x (Rv32i.rd w) u) r := by
  have hset : s.setReg ⟨w, pc⟩ v r =
      (if Rv32i.rd w ≠ 0 then Function.update s.refRegs (Rv32i.rd w) v else s.refRegs) r := rfl
  rw [hset]
  by_cases hrd : Rv32i.rd w = 0
  · rw [if_neg (not_not.mpr hrd), writeReg, if_pos hrd]
    exact hs r
  · rw [if_pos hrd, Rv32i.readReg_writeReg hrd]
    by_cases hr : r = Rv32i.rd w
    · rw [hr, Function.update_self, if_pos rfl, hv hrd]
    · rw [Function.update_of_ne hr, if_neg hr]
      exact hs r

/-- The lower half of a difference is the difference of the lower halves. -/
theorem setWidth_sub (a b : BitVec 64) :
    (a - b).setWidth 32 = a.setWidth 32 - b.setWidth 32 := by
  rw [BitVec.sub_eq_add_neg, BitVec.setWidth_add _ _ (by decide),
    BitVec.setWidth_neg_of_le (by decide), ← BitVec.sub_eq_add_neg]

/-- The lower half of a sign-extended immediate is the immediate of the ISA. -/
theorem setWidth_signExtend (y : BitVec 12) :
    (y.signExtend 64).setWidth 32 = y.signExtend 32 := by
  ext k hk
  rw [BitVec.getElem_setWidth, BitVec.getLsbD_signExtend, BitVec.getElem_signExtend,
    decide_eq_true (by omega : k < 64), Bool.true_and]
  rfl

/-- An immediate operation. -/
theorem expectedImm_follows (hs : s.Follows x) {op : IntOp}
    (hop : Rv32i.opImmOp? (Rv32i.funct3 w) (Rv32i.funct7 w) = some op)
    (hm : modelled (.opImm op (Rv32i.rd w) (Rv32i.rs1 w) (immI w)) = true)
    (hrd : Rv32i.rd w ≠ 0) :
    (s.expectedImm ⟨w, pc⟩).setWidth 32 = op.eval (readReg x (Rv32i.rs1 w)) (immI w) := by
  -- of the immediate operations, the reference model has `ADDI` only
  have hadd : op = .add := by
    cases op <;> first | rfl | exact absurd (by simpa [modelled, Instr.dest] using hm) hrd
  subst hadd
  -- and `funct3` is then zero
  have hf3 : w.extractLsb' 12 3 = 0b000 := by
    unfold Rv32i.opImmOp? at hop
    split at hop
    case h_1 hf3 => exact hf3
    case h_6 =>
      split_ifs at hop
      all_goals cases hop
    all_goals simp at hop
  have hval : s.expectedImm ⟨w, pc⟩ =
      s.refRegs (Rv32i.rs1 w) + (w.extractLsb' 20 12).signExtend 64 := by
    rw [expectedImm]
    simp only [hf3]
    rfl
  rw [hval, BitVec.setWidth_add _ _ (by decide), hs, setWidth_signExtend]
  rfl

/-- The fields of the operations that it knows. -/
theorem fields_of_opOp {f3 : BitVec 3} {f7 : BitVec 7} {op : IntOp}
    (h : Rv32i.opOp? f3 f7 = some op) : f7 ++ f3 =
      match op with
      | .add => 0b0000000_000
      | .sub => 0b0100000_000
      | .and => 0b0000000_111
      | .or => 0b0000000_110
      | _ => f7 ++ f3 := by
  by_cases h0 : f7 = 0b0000000
  · subst h0
    revert f3
    cases op <;> decide
  · by_cases h1 : f7 = 0b0100000
    · subst h1
      revert f3
      cases op <;> decide
    · unfold Rv32i.opOp? at h
      rw [if_neg h0, if_neg h1] at h
      cases h

/-- A register operation. -/
theorem expectedReg_follows (hs : s.Follows x) {op : IntOp}
    (hop : Rv32i.opOp? (Rv32i.funct3 w) (Rv32i.funct7 w) = some op)
    (hm : modelled (.op op (Rv32i.rd w) (Rv32i.rs1 w) (Rv32i.rs2 w)) = true)
    (hrd : Rv32i.rd w ≠ 0) :
    (s.expectedReg ⟨w, pc⟩).setWidth 32 =
      op.eval (readReg x (Rv32i.rs1 w)) (readReg x (Rv32i.rs2 w)) := by
  have hfields : w.extractLsb' 25 7 ++ w.extractLsb' 12 3 = _ := fields_of_opOp hop
  -- the four operations of the reference model commute with the truncation to 32 bits
  cases op with
  | add =>
    have hval : s.expectedReg ⟨w, pc⟩ = s.refRegs (Rv32i.rs1 w) + s.refRegs (Rv32i.rs2 w) := by
      rw [expectedReg]
      simp only [hfields]
      rfl
    rw [hval, BitVec.setWidth_add _ _ (by decide), hs, hs]
    rfl
  | sub =>
    have hval : s.expectedReg ⟨w, pc⟩ = s.refRegs (Rv32i.rs1 w) - s.refRegs (Rv32i.rs2 w) := by
      rw [expectedReg]
      simp only [hfields]
      rfl
    rw [hval, setWidth_sub, hs, hs]
    rfl
  | and =>
    have hval : s.expectedReg ⟨w, pc⟩ = s.refRegs (Rv32i.rs1 w) &&& s.refRegs (Rv32i.rs2 w) := by
      rw [expectedReg]
      simp only [hfields]
      rfl
    rw [hval, BitVec.setWidth_and, hs, hs]
    rfl
  | or =>
    have hval : s.expectedReg ⟨w, pc⟩ = s.refRegs (Rv32i.rs1 w) ||| s.refRegs (Rv32i.rs2 w) := by
      rw [expectedReg]
      simp only [hfields]
      rfl
    rw [hval, BitVec.setWidth_or, hs, hs]
    rfl
  -- the other six are not modelled
  | sll | slt | sltu | xor | srl | sra =>
    exact absurd (by simpa [modelled, Instr.dest] using hm) hrd

/-- **One instruction.** -/
theorem write_follows (hs : s.Follows x) {i : Instr} (hdec : decode w = some i)
    (hm : modelled i = true) (dmemDepth : Nat) {σ : Rv32i.State} (hx : σ.x = x) :
    (s.write ⟨w, pc⟩).Follows (Rv32i.eval dmemDepth σ i).x := by
  subst hx
  have hregs : (s.write ⟨w, pc⟩).refRegs = s.nextRegs ⟨w, pc⟩ := rfl
  -- the reference model looks at the opcodes OP-IMM and OP only
  by_cases himm : opcode w = 0b0010011
  · rw [decode, himm] at hdec
    obtain ⟨op, hop, rfl⟩ := Option.map_eq_some_iff.mp hdec
    have hnext : s.nextRegs ⟨w, pc⟩ = s.setReg ⟨w, pc⟩ (s.expectedImm ⟨w, pc⟩) := by
      rw [nextRegs, show w.extractLsb' 0 7 = 0b0010011 from himm]
      rfl
    intro r
    rw [hregs, hnext]
    exact hs.setReg (expectedImm_follows hs hop hm) r
  · by_cases hreg : opcode w = 0b0110011
    · rw [decode, hreg] at hdec
      obtain ⟨op, hop, rfl⟩ := Option.map_eq_some_iff.mp hdec
      have hnext : s.nextRegs ⟨w, pc⟩ = s.setReg ⟨w, pc⟩ (s.expectedReg ⟨w, pc⟩) := by
        rw [nextRegs, show w.extractLsb' 0 7 = 0b0110011 from hreg]
        rfl
      intro r
      rw [hregs, hnext]
      exact hs.setReg (expectedReg_follows hs hop hm) r
    · -- neither the reference registers nor those of the ISA change
      obtain ⟨hnoImm, hnoReg⟩ := decode_of_opcode_ne hdec himm hreg
      have hnext : s.nextRegs ⟨w, pc⟩ = s.refRegs := by
        rw [nextRegs]
        split
        · exact absurd ‹_› himm
        · exact absurd ‹_› hreg
        · rfl
      have hsame : (Rv32i.eval dmemDepth σ i).x = σ.x := by
        cases i with
        | opImm op rd rs1 imm => exact absurd rfl (hnoImm op rd rs1 imm)
        | op op rd rs1 rs2 => exact absurd rfl (hnoReg op rd rs1 rs2)
        | branch | sw => rfl
        | lui rd | auipc rd | jal rd | jalr rd | lw rd =>
          have hrd : rd = 0 := by simpa [modelled, Instr.dest] using hm
          subst hrd
          rfl
      intro r
      rw [hregs, hnext, hsame]
      exact hs r

end Step

/-! ## Programs -/

/-- The transaction of an executed instruction. -/
def ofTrace (e : Word × Word) : RiscvTransaction where
  instruction := e.2
  pc := e.1.setWidth 64

/-- The scoreboard behind the first `n` instructions of a program. -/
def afterTrace (imemDepth dmemDepth : Nat) (imem mem : Nat → Word) (n : Nat) : RiscvScoreboard :=
  afterAll ((Rv32i.trace imemDepth dmemDepth imem mem n).map ofTrace)

/-- The reference registers follow those of the ISA along the whole trace. -/
theorem follows_trace {imemDepth dmemDepth : Nat} {imem mem : Nat → Word} {n : Nat}
    (h : ∀ k < n, (decode (Rv32i.fetch imemDepth imem
      (Rv32i.exec imemDepth dmemDepth imem mem k))).any modelled = true) :
    (afterTrace imemDepth dmemDepth imem mem n).Follows
      (Rv32i.exec imemDepth dmemDepth imem mem n).x := by
  induction n with
  | zero =>
    intro r
    show (0 : BitVec 64).setWidth 32 = if r = 0 then 0 else 0
    rw [ite_self]
    rfl
  | succ n ih =>
    obtain ⟨i, hdec, hm⟩ := (Option.any_eq_true _ _).mp (h n (Nat.lt_succ_self n))
    have hstep : Rv32i.exec imemDepth dmemDepth imem mem (n + 1) =
        Rv32i.eval dmemDepth (Rv32i.exec imemDepth dmemDepth imem mem n) i :=
      Rv32i.step_of_decode hdec
    rw [afterTrace, Rv32i.trace_succ, List.map_append, List.map_cons, List.map_nil,
      afterAll_concat, hstep]
    exact write_follows (ih fun k hk => h k (by omega)) hdec hm dmemDepth rfl

/-- **The core scoreboard follows the ISA, and always passes.** Behind the transactions of
    executed instructions that are among those it models, the low halves of its reference
    registers are the registers of the ISA. Whatever it receives after that, it reports no
    failure: the test passes whenever there was a transaction, as far as the signed counter
    holds. -/
theorem scoreboard_follows_isa (imemDepth dmemDepth : Nat) (imem mem : Nat → Word) (n : Nat)
    (h : ∀ k < n, (decode (Rv32i.fetch imemDepth imem
      (Rv32i.exec imemDepth dmemDepth imem mem k))).any modelled = true) :
    (afterTrace imemDepth dmemDepth imem mem n).Follows
        (Rv32i.exec imemDepth dmemDepth imem mem n).x ∧
      ∀ txns : List RiscvTransaction, (txns.foldl write
        (afterTrace imemDepth dmemDepth imem mem n)).reportPhase =
          if 0 < (BitVec.ofNat 32 (n + txns.length)).toInt then .passed else .silent := by
  refine ⟨follows_trace h, fun txns => ?_⟩
  have hreport := report_afterAll ((Rv32i.trace imemDepth dmemDepth imem mem n).map ofTrace ++ txns)
  rw [List.length_append, List.length_map, Rv32i.length_trace] at hreport
  rw [← hreport, afterAll, List.foldl_append]
  rfl

/-- The instructions of `riscv_arithmetic_sequence`. -/
def arithmetic (a : Nat) : Word := [0x00500093, 0x00A00113, 0x002081B3, 0x40110233].getD a 0

/-- Register 3 behind the four instructions. -/
theorem scoreboard_follows_isa_arithmetic :
    ((afterTrace 4 4 arithmetic (fun _ => 0) 4).refRegs 3).setWidth 32 =
      readReg (Rv32i.exec 4 4 arithmetic (fun _ => 0) 4).x 3 :=
  (scoreboard_follows_isa 4 4 arithmetic (fun _ => 0) 4 (by decide)).1 3

end URiscV.Tb.RiscvScoreboard
