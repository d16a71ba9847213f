import Mathlib.Data.Nat.ModEq
import URiscV.ForStd.Triple
import URiscV.Rv32i.Isa

/-!
# RV32I programs

An assembler program is a list of instructions with labels between them; `assemble`
replaces the labels by the offsets of the jumps. `Loaded` is such a program somewhere in
the instruction memory. A block without jumps runs as `evalBlock`, so a proof about a
program is one about its blocks, with the rules for triples between them.

## Key results

- `reaches_block`: a block without jumps
- `reaches_branch`: a branch to a label
-/

namespace Rv32i

/-! ## Programs with labels -/

/-- A line of a program with labels in `L`. -/
inductive Line (L : Type) where
  | label (l : L)
  | instr (i : Instr)
  | branch (op : BranchOp) (rs1 rs2 : Reg) (target : L)
  | jal (rd : Reg) (target : L)

section Assemble

variable {L : Type} [DecidableEq L]

/-- The instructions in front of a label. -/
def labelIndex (l : L) : List (Line L) → Nat
  | [] => 0
  | .label l' :: rest => if l' = l then 0 else labelIndex l rest
  | .instr _ :: rest => labelIndex l rest + 1
  | .branch .. :: rest => labelIndex l rest + 1
  | .jal .. :: rest => labelIndex l rest + 1

/-- The offset of a label from instruction `k`. -/
def offset (lines : List (Line L)) (k : Nat) (l : L) : Word :=
  BitVec.ofNat 32 (4 * labelIndex l lines) - BitVec.ofNat 32 (4 * k)

/-- The instructions of the lines `rest`, the first of them at position `k`. -/
def assembleFrom (lines : List (Line L)) : Nat → List (Line L) → List Instr
  | _, [] => []
  | k, .label _ :: rest => assembleFrom lines k rest
  | k, .instr i :: rest => i :: assembleFrom lines (k + 1) rest
  | k, .branch op rs1 rs2 l :: rest =>
    .branch op rs1 rs2 (offset lines k l) :: assembleFrom lines (k + 1) rest
  | k, .jal rd l :: rest => .jal rd (offset lines k l) :: assembleFrom lines (k + 1) rest

/-- The instructions of a program. -/
def assemble (lines : List (Line L)) : List Instr := assembleFrom lines 0 lines

end Assemble

/-- The next word. -/
theorem ofNat_add_four (a : Word) (k : Nat) :
    a + BitVec.ofNat 32 (4 * k) + 4 = a + BitVec.ofNat 32 (4 * (k + 1)) := by
  rw [BitVec.add_assoc, Nat.mul_add, BitVec.ofNat_add]
  rfl

/-- The address of instruction `k` of a program at `base`. -/
def codeAddr (base : Word) (k : Nat) : Word := base + BitVec.ofNat 32 (4 * k)

/-- An immediate of zero. -/
theorem add_zero_imm (a : Word) : a + 0 = a := BitVec.add_zero a

/-- The address of the next instruction. -/
theorem codeAddr_add_four (base : Word) (k : Nat) :
    codeAddr base k + 4 = codeAddr base (k + 1) := ofNat_add_four base k

/-- A jump to a label goes there. -/
theorem codeAddr_offset {L : Type} [DecidableEq L] (base : Word) (lines : List (Line L)) (k : Nat)
    (l : L) : codeAddr base k + offset lines k l = codeAddr base (labelIndex l lines) := by
  rw [codeAddr, codeAddr, offset, BitVec.add_assoc, BitVec.add_comm (BitVec.ofNat 32 (4 * k)),
    BitVec.sub_add_cancel]

/-! ## Registers -/

/-- `x0` reads as zero. -/
@[simp] theorem readReg_zero (x : Reg → Word) : readReg x 0 = 0 := if_pos rfl

/-- A register behind a write to another one than `x0`. -/
theorem readReg_writeReg {x : Reg → Word} {r r' : Reg} {v : Word} (h : r ≠ 0) :
    readReg (writeReg x r v) r' = if r' = r then v else readReg x r' := by
  rw [readReg, readReg, writeReg, if_neg h]
  by_cases hr : r' = r
  · rw [hr, if_neg h, if_pos rfl, Function.update_self]
  · rw [if_neg hr, Function.update_of_ne hr]

/-! ## Counters -/

/-- A counter below `2 ^ 31` against a signed bound. -/
theorem slt_ofNat {i : Nat} (hi : i < 2 ^ 31) (v : Word) :
    (BitVec.ofNat 32 i).slt v = decide (i < v.toInt.toNat) := by
  have hnat : (BitVec.ofNat 32 i).toNat = i := Nat.mod_eq_of_lt (by omega)
  have hint : (BitVec.ofNat 32 i).toInt = i := by
    rw [BitVec.toInt_eq_toNat_of_lt (by omega), hnat]
  rw [BitVec.slt, hint]
  exact decide_eq_decide.mpr (by omega)

/-- Numbers that fit into 31 bits compare as they are. -/
theorem slt_ofNat_ofNat {i n : Nat} (hi : i < 2 ^ 31) (hn : n < 2 ^ 31) :
    (BitVec.ofNat 32 i).slt (BitVec.ofNat 32 n) = decide (i < n) := by
  have hnat : (BitVec.ofNat 32 n).toNat = n := Nat.mod_eq_of_lt (by omega)
  rw [slt_ofNat hi, BitVec.toInt_eq_toNat_of_lt (by omega), hnat, Int.toNat_natCast]

/-- `bge` between a counter and a bound. -/
theorem bge_taken_ofNat {i : Nat} (hi : i < 2 ^ 31) (v : Word) :
    BranchOp.bge.taken (BitVec.ofNat 32 i) v = !decide (i < v.toInt.toNat) :=
  congrArg (!·) (slt_ofNat hi v)

/-- A counter goes up. -/
theorem ofNat_succ (i : Nat) : BitVec.ofNat 32 i + 1 = BitVec.ofNat 32 (i + 1) :=
  (BitVec.ofNat_add i 1).symm

/-- The byte offset of a word. -/
theorem shiftLeft_two (i : Nat) : BitVec.ofNat 32 i <<< 2 = BitVec.ofNat 32 (4 * i) := by
  apply BitVec.eq_of_toNat_eq
  rw [BitVec.toNat_shiftLeft, BitVec.toNat_ofNat, BitVec.toNat_ofNat, Nat.shiftLeft_eq]
  omega

/-! ## Addresses -/

/-- Word `k` behind an address. -/
theorem wordIndex_add {d : Nat} (hd : d ≤ 30) (a : Word) {k : Nat} (hk : k < 2 ^ d) :
    wordIndex (2 ^ d) (a + BitVec.ofNat 32 (4 * k)) = (a.toNat / 4 + k) % 2 ^ d := by
  have hdvd : 2 ^ d ∣ 2 ^ 30 := Nat.pow_dvd_pow 2 hd
  have hle : 2 ^ d ≤ 2 ^ 30 := Nat.pow_le_pow_right (by decide) hd
  have ha : a.toNat < 2 ^ 32 := a.isLt
  have hword : (a.toNat + 4 * k % 2 ^ 32) % 2 ^ 32 / 4 % 2 ^ 30 = (a.toNat / 4 + k) % 2 ^ 30 := by
    omega
  rw [wordIndex, BitVec.toNat_add, BitVec.toNat_ofNat, ← Nat.mod_mod_of_dvd _ hdvd, hword,
    Nat.mod_mod_of_dvd _ hdvd]

/-- The words behind an address have different places in a memory that holds them. -/
theorem wordIndex_add_inj {d : Nat} (hd : d ≤ 30) (a : Word) {j k : Nat} (hj : j < 2 ^ d)
    (hk : k < 2 ^ d) (h : wordIndex (2 ^ d) (a + BitVec.ofNat 32 (4 * j)) =
      wordIndex (2 ^ d) (a + BitVec.ofNat 32 (4 * k))) : j = k := by
  rw [wordIndex_add hd a hj, wordIndex_add hd a hk] at h
  have hmod : j ≡ k [MOD 2 ^ d] := Nat.ModEq.add_left_cancel' (a.toNat / 4) h
  exact Nat.ModEq.eq_of_lt_of_lt hmod hj hk

/-! ## Execution -/

abbrev Instr.addi (rd rs1 : Reg) (imm : Word) : Instr := .opImm .add rd rs1 imm
abbrev Instr.andi (rd rs1 : Reg) (imm : Word) : Instr := .opImm .and rd rs1 imm
abbrev Instr.slli (rd rs1 : Reg) (shamt : Word) : Instr := .opImm .sll rd rs1 shamt

/-- Bit 10 of the immediate tells it from a logical shift. -/
abbrev Instr.srai (rd rs1 : Reg) (shamt : Word) : Instr := .opImm .sra rd rs1 (0x400 + shamt)

/-- The instruction neither jumps nor branches. -/
def Instr.straight : Instr → Bool
  | .jal .. => false
  | .jalr .. => false
  | .branch .. => false
  | _ => true

/-- The register that the instruction writes. -/
def Instr.dest : Instr → Option Reg
  | .lui rd _ => some rd
  | .auipc rd _ => some rd
  | .jal rd _ => some rd
  | .jalr rd _ _ => some rd
  | .branch .. => none
  | .lw rd _ _ => some rd
  | .sw .. => none
  | .opImm _ rd _ _ => some rd
  | .op _ rd _ _ => some rd

/-- The registers that the instructions of a block write. -/
def dests (is : List Instr) : List Reg := is.filterMap Instr.dest

def Instr.isStore : Instr → Bool
  | .sw .. => true
  | _ => false

section Execution

variable (imemDepth dmemDepth : Nat) (imem : Nat → Word)

/-- The program `code` stands at `base`. -/
def Loaded (base : Word) (code : List Instr) : Prop :=
  ∀ k i, code[k]? = some i → decode (imem (wordIndex imemDepth (codeAddr base k))) = some i

/-- Preconditions and postconditions of the interpreter. -/
abbrev Triple (P Q : State → Prop) : Prop :=
  Machine.Triple (step imemDepth dmemDepth imem) P Q

/-- One instruction. -/
def eval (σ : State) (i : Instr) : State := (effect dmemDepth σ i).apply dmemDepth σ

/-- The instructions of a block, one after the other. -/
def evalBlock (is : List Instr) (σ : State) : State := is.foldl (eval dmemDepth) σ

variable {imemDepth dmemDepth imem} {base : Word} {code : List Instr} {σ : State} {k : Nat}
  {i : Instr}

/-- A finite check. -/
theorem loaded_of_forall_lt (h : ∀ k < code.length,
    decode (imem (wordIndex imemDepth (codeAddr base k))) = code[k]?) :
    Loaded imemDepth imem base code := by
  intro k i hi
  obtain ⟨hk, -⟩ := List.getElem?_eq_some_iff.mp hi
  rw [h k hk, hi]

/-- A block leaves the registers alone that it does not write. -/
theorem readReg_evalBlock {is : List Instr} {r : Reg} (h : r ∉ dests is) :
    readReg (evalBlock dmemDepth is σ).x r = readReg σ.x r := by
  induction is generalizing σ with
  | nil => rfl
  | cons i is ih =>
    have hdest : i.dest ≠ some r := fun he => h (List.mem_filterMap.mpr ⟨i, List.mem_cons_self, he⟩)
    have hrest : r ∉ dests is := fun hr => by
      obtain ⟨j, hj, he⟩ := List.mem_filterMap.mp hr
      exact h (List.mem_filterMap.mpr ⟨j, List.mem_cons_of_mem i hj, he⟩)
    -- the instruction writes another register, or none
    have hi : readReg (eval dmemDepth σ i).x r = readReg σ.x r := by
      cases i with
      | branch | sw => rfl
      | lui rd | auipc rd | jal rd | jalr rd | lw rd | opImm _ rd | op _ rd =>
        have hne : r ≠ rd := fun he => hdest (congrArg some he.symm)
        by_cases hz : rd = 0
        · subst hz
          rfl
        · exact (readReg_writeReg hz).trans (if_neg hne)
    exact (ih hrest).trans hi

/-- A block without stores leaves the memory alone. -/
theorem mem_evalBlock {is : List Instr} (h : ∀ i ∈ is, i.isStore = false) :
    (evalBlock dmemDepth is σ).mem = σ.mem := by
  induction is generalizing σ with
  | nil => rfl
  | cons i is ih =>
    have hi : (eval dmemDepth σ i).mem = σ.mem := by
      cases i with
      | sw => cases h _ List.mem_cons_self
      | _ => rfl
    exact (ih fun j hj => h j (List.mem_cons_of_mem i hj)).trans hi

/-- A step, when the instruction is known. -/
theorem step_of_decode (h : decode (fetch imemDepth imem σ) = some i) :
    step imemDepth dmemDepth imem σ = eval dmemDepth σ i := by
  simp only [step, stepEffect, h, eval]

/-- A step of a loaded program. -/
theorem step_at (h : Loaded imemDepth imem base code) (hpc : σ.pc = codeAddr base k)
    (hi : code[k]? = some i) : step imemDepth dmemDepth imem σ = eval dmemDepth σ i := by
  have hdec : decode (fetch imemDepth imem σ) = some i := by
    rw [fetch, hpc]
    exact h k i hi
  exact step_of_decode hdec

/-- An instruction that does not transfer control goes on to the next. -/
theorem pc_eval_of_straight (h : i.straight = true) : (eval dmemDepth σ i).pc = σ.pc + 4 := by
  cases i <;> first | rfl | cases h

/-- A block without transfers of control runs to its end. -/
theorem reaches_evalBlock (h : Loaded imemDepth imem base code) (hpc : σ.pc = codeAddr base k)
    (is : List Instr) (hcode : is <+: code.drop k) (hs : is.all Instr.straight = true) :
    Machine.Reaches (step imemDepth dmemDepth imem) σ (evalBlock dmemDepth is σ) ∧
      (evalBlock dmemDepth is σ).pc = codeAddr base (k + is.length) := by
  induction is generalizing σ k with
  | nil => exact ⟨.refl σ, hpc⟩
  | cons i is ih =>
    rw [List.all_cons, Bool.and_eq_true] at hs
    obtain ⟨rest, hdrop⟩ := hcode
    have hi : code[k]? = some i := by
      rw [← Nat.add_zero k, ← List.getElem?_drop, ← hdrop]
      rfl
    have hrest : is <+: code.drop (k + 1) := ⟨rest, by rw [← List.tail_drop, ← hdrop]; rfl⟩
    have hpc' : (eval dmemDepth σ i).pc = codeAddr base (k + 1) := by
      rw [pc_eval_of_straight hs.1, hpc, codeAddr_add_four]
    -- the rest of the block stands behind the first instruction
    obtain ⟨hrun, hend⟩ := ih hpc' hrest hs.2
    refine ⟨(Machine.Reaches.of_step (step_at h hpc hi)).trans hrun, ?_⟩
    rw [List.length_cons, ← Nat.add_assoc, Nat.add_right_comm]
    exact hend

/-- **A block without jumps** runs from its first instruction to the one behind it, and
    leaves alone the registers that it does not write. -/
theorem reaches_block (h : Loaded imemDepth imem base code) (k : Nat) (hpc : σ.pc = codeAddr base k)
    (is : List Instr) (hcode : is <+: code.drop k) (hs : is.all Instr.straight = true) :
    ∃ τ, evalBlock dmemDepth is σ = τ ∧ Machine.Reaches (step imemDepth dmemDepth imem) σ τ ∧
      τ.pc = codeAddr base (k + is.length) ∧ ∀ r ∉ dests is, readReg τ.x r = readReg σ.x r := by
  obtain ⟨hrun, hend⟩ := @reaches_evalBlock imemDepth dmemDepth imem base code σ k h hpc is hcode hs
  exact ⟨_, rfl, hrun, hend, fun r hr => readReg_evalBlock hr⟩

section Labels

variable {L : Type} [DecidableEq L] {lines : List (Line L)}

/-- A branch, to a label or to the next instruction. -/
theorem reaches_branch (h : Loaded imemDepth imem base (assemble lines)) (k : Nat)
    (hpc : σ.pc = codeAddr base k) (op : BranchOp) (rs1 rs2 : Reg) (l : L)
    (hi : (assemble lines)[k]? = some (.branch op rs1 rs2 (offset lines k l))) :
    Machine.Reaches (step imemDepth dmemDepth imem) σ
      { σ with
        pc := codeAddr base
          (if op.taken (readReg σ.x rs1) (readReg σ.x rs2) then labelIndex l lines
          else k + 1) } := by
  refine .of_step ?_
  rw [step_at h hpc hi, apply_ite (codeAddr base), ← codeAddr_offset base lines k l,
    ← codeAddr_add_four, ← hpc]
  rfl

/-- A jump to a label. -/
theorem reaches_jal (h : Loaded imemDepth imem base (assemble lines)) (k : Nat)
    (hpc : σ.pc = codeAddr base k) (l : L)
    (hi : (assemble lines)[k]? = some (.jal 0 (offset lines k l))) :
    Machine.Reaches (step imemDepth dmemDepth imem) σ
      { σ with pc := codeAddr base (labelIndex l lines) } := by
  refine .of_step ?_
  rw [step_at h hpc hi, ← codeAddr_offset base lines k l, ← hpc]
  rfl

end Labels

end Execution

end Rv32i
