import URiscV.Asm.Programs

/-!
# `two_sum` finds the first pair

## Key results

- `two_sum_correct`: what it returns, for every array
-/

namespace URiscV.Asm.TwoSum

open Rv32i (Instr Loaded State Word codeAddr readReg reaches_block reaches_branch reaches_jal
  wordIndex)

/-! ## Pairs -/

/-- `i` and `j` are the first pair of the array whose elements sum up to `target`. -/
structure IsFirst (arr : Nat → Word) (n : Nat) (target : Word) (i j : Nat) : Prop where
  lt : i < j
  bound : j < n
  sum : arr i + arr j = target
  first : ∀ i' j', i' < j' → j' < n → i' < i ∨ (i' = i ∧ j' < j) → arr i' + arr j' ≠ target

/-- What the inner loop compares. -/
theorem sum_eq_iff (a b t : Word) : b = t - a ↔ a + b = t := by
  constructor
  · rintro rfl
    rw [BitVec.add_comm, BitVec.sub_add_cancel]
  · rintro rfl
    rw [BitVec.add_comm, BitVec.add_sub_cancel]

/-! ## The call -/

section Call

variable {imemDepth dmemDepth : Nat} {imem : Nat → Word} {base : Word} {σ₀ : State}

/-- The array, its length and the target of the call in state `σ₀`. -/
def arr (dmemDepth : Nat) (σ₀ : State) (i : Nat) : Word :=
  σ₀.mem (wordIndex dmemDepth (readReg σ₀.x 10 + BitVec.ofNat 32 (4 * i)))

def len (σ₀ : State) : Nat := (readReg σ₀.x 11).toInt.toNat

def target (σ₀ : State) : Word := readReg σ₀.x 12

/-- The registers that the search writes. -/
def scratch : List (BitVec 5) := [5, 6, 7, 8, 9, 13, 14]

/-- The search leaves everything else alone. -/
structure Kept (σ₀ σ : State) : Prop where
  mem : σ.mem = σ₀.mem
  regs : ∀ r ∉ scratch, readReg σ.x r = readReg σ₀.x r

/-- At `ts_outer`: no pair starts in front of `i`. -/
structure Outer (dmemDepth : Nat) (base : Word) (σ₀ : State) (i : Nat) (σ : State) : Prop where
  pc : σ.pc = codeAddr base 1
  i_le : i ≤ len σ₀
  x13 : readReg σ.x 13 = BitVec.ofNat 32 i
  kept : Kept σ₀ σ
  none : ∀ i' j', i' < i → i' < j' → j' < len σ₀ →
    arr dmemDepth σ₀ i' + arr dmemDepth σ₀ j' ≠ target σ₀

/-- At `ts_inner`: no pair in front of `i` and `j`. -/
structure Inner (dmemDepth : Nat) (base : Word) (σ₀ : State) (i j : Nat) (σ : State) : Prop where
  pc : σ.pc = codeAddr base 7
  lt : i < j
  j_le : j ≤ len σ₀
  x13 : readReg σ.x 13 = BitVec.ofNat 32 i
  x14 : readReg σ.x 14 = BitVec.ofNat 32 j
  x7 : readReg σ.x 7 = target σ₀ - arr dmemDepth σ₀ i
  kept : Kept σ₀ σ
  none : ∀ i' j', i' < j' → j' < len σ₀ → i' < i ∨ (i' = i ∧ j' < j) →
    arr dmemDepth σ₀ i' + arr dmemDepth σ₀ j' ≠ target σ₀

/-- At `ts_found`. -/
structure Found (dmemDepth : Nat) (base : Word) (σ₀ : State) (i j : Nat) (σ : State) : Prop where
  pc : σ.pc = codeAddr base 16
  x13 : readReg σ.x 13 = BitVec.ofNat 32 i
  x14 : readReg σ.x 14 = BitVec.ofNat 32 j
  kept : Kept σ₀ σ
  first : IsFirst (arr dmemDepth σ₀) (len σ₀) (target σ₀) i j

/-- At `ts_notfound`. -/
structure NotFound (dmemDepth : Nat) (base : Word) (σ₀ : State) (σ : State) : Prop where
  pc : σ.pc = codeAddr base 19
  kept : Kept σ₀ σ
  none : ∀ i j, i < j → j < len σ₀ → arr dmemDepth σ₀ i + arr dmemDepth σ₀ j ≠ target σ₀

/-- A length that is positive as a signed number is below 2^31. -/
theorem len_lt (σ₀ : State) : len σ₀ < 2 ^ 31 := by
  have h : (readReg σ₀.x 11).toInt < 2 ^ 31 := BitVec.toInt_lt
  rw [len]
  omega

variable (h : Loaded imemDepth imem base code)

include h

/-- One turn at `ts_inner`. -/
theorem inner_turn (i j : Nat) : Rv32i.Triple imemDepth dmemDepth imem
    (Inner dmemDepth base σ₀ i j) fun σ =>
      (Found dmemDepth base σ₀ i j σ ∨ Outer dmemDepth base σ₀ (i + 1) σ) ∨
        (j < len σ₀ ∧ Inner dmemDepth base σ₀ i (j + 1) σ) := by
  intro σ hσ
  have hn := len_lt σ₀
  have hkept (r : BitVec 5) (hr : r ∉ scratch) : readReg σ.x r = readReg σ₀.x r := hσ.kept.regs r hr
  have hhead : Rv32i.BranchOp.bge.taken (readReg σ.x 14) (readReg σ.x 11) =
      !decide (j < len σ₀) := by
    rw [hkept 11 (by decide), hσ.x14]
    exact Rv32i.bge_taken_ofNat (by have := hσ.j_le; omega) _
  have hbranch := @reaches_branch imemDepth dmemDepth imem base σ _ _ lines h 7 hσ.pc .bge 14 11
    .ts_next_i rfl
  rw [hhead] at hbranch
  by_cases hj : j < len σ₀
  · rw [decide_eq_true hj] at hbranch
    -- load the element
    obtain ⟨τ, hτ, hload, hpc, hregs⟩ := @reaches_block imemDepth dmemDepth imem base code
      { σ with pc := codeAddr base 8 } h 8 rfl [.slli 8 14 2, .op .add 8 10 8, .lw 9 8 0]
      (by decide) rfl
    have hmem : τ.mem = σ.mem := by rw [← hτ]; exact Rv32i.mem_evalBlock (by decide)
    have h9 : readReg τ.x 9 = arr dmemDepth σ₀ j := by
      have hval : readReg τ.x 9 = σ.mem (wordIndex dmemDepth
          (readReg σ.x 10 + readReg σ.x 14 <<< 2 + 0)) := by rw [← hτ]; rfl
      rw [hval, hσ.x14, hkept 10 (by decide), hσ.kept.mem, Rv32i.shiftLeft_two, Rv32i.add_zero_imm,
        arr]
    have hkept' : Kept σ₀ τ :=
      ⟨hmem.trans hσ.kept.mem, fun r hr =>
        (hregs r fun hm => hr ((show Rv32i.dests _ ⊆ scratch by decide) hm)).trans (hkept r hr)⟩
    have hfound := @reaches_branch imemDepth dmemDepth imem base τ _ _ lines h 11 hpc .beq 9 7
      .ts_found rfl
    have hcond : Rv32i.BranchOp.beq.taken (readReg τ.x 9) (readReg τ.x 7) =
        decide (arr dmemDepth σ₀ i + arr dmemDepth σ₀ j = target σ₀) := by
      have h7 : readReg τ.x 7 = target σ₀ - arr dmemDepth σ₀ i :=
        (hregs 7 (by decide)).trans hσ.x7
      rw [h9, h7]
      exact Bool.eq_iff_iff.mpr (by rw [decide_eq_true_iff, ← sum_eq_iff]; exact beq_iff_eq)
    rw [hcond] at hfound
    by_cases hsum : arr dmemDepth σ₀ i + arr dmemDepth σ₀ j = target σ₀
    · rw [decide_eq_true hsum] at hfound
      refine ⟨_, (hbranch.trans hload).trans hfound, .inl (.inl ?_)⟩
      exact ⟨rfl, (hregs 13 (by decide)).trans hσ.x13, (hregs 14 (by decide)).trans hσ.x14,
        ⟨hkept'.mem, hkept'.regs⟩, ⟨hσ.lt, hj, hsum, hσ.none⟩⟩
    · rw [decide_eq_false hsum] at hfound
      -- on to the next element
      obtain ⟨υ, hυ, hinc, hpc', hregs'⟩ := @reaches_block imemDepth dmemDepth imem base code
        { τ with pc := codeAddr base 12 } h 12 rfl [.opImm .add 14 14 1] (by decide) rfl
      have hjump := @reaches_jal imemDepth dmemDepth imem base υ _ _ lines h 13 hpc' .ts_inner rfl
      have hmem' : υ.mem = τ.mem := by rw [← hυ]; exact Rv32i.mem_evalBlock (by decide)
      have h14 : readReg υ.x 14 = BitVec.ofNat 32 (j + 1) := by
        have hval : readReg υ.x 14 = readReg τ.x 14 + 1 := by rw [← hυ]; rfl
        rw [hval, hregs 14 (by decide), ← Rv32i.ofNat_succ]
        exact congrArg (· + 1) hσ.x14
      refine ⟨_, ((hbranch.trans hload).trans (hfound.trans hinc)).trans hjump, .inr ⟨hj, ?_⟩⟩
      refine ⟨rfl, Nat.lt_succ_of_lt hσ.lt, hj, ?_, h14, ?_, ?_, ?_⟩
      · exact (hregs' 13 (by decide)).trans ((hregs 13 (by decide)).trans hσ.x13)
      · exact (hregs' 7 (by decide)).trans ((hregs 7 (by decide)).trans hσ.x7)
      · exact ⟨hmem'.trans hkept'.mem, fun r hr =>
          (hregs' r fun hm => hr ((show Rv32i.dests _ ⊆ scratch by decide) hm)).trans
            (hkept'.regs r hr)⟩
      · intro i' j' hlt hbound horder
        rcases horder with hi | ⟨rfl, hlt'⟩
        · exact hσ.none i' j' hlt hbound (.inl hi)
        · rcases Nat.lt_succ_iff_lt_or_eq.mp hlt' with hlt' | rfl
          · exact hσ.none i' j' hlt hbound (.inr ⟨rfl, hlt'⟩)
          · exact hsum
  · rw [decide_eq_false hj] at hbranch
    -- on to the next first element
    obtain ⟨τ, hτ, hinc, hpc, hregs⟩ := @reaches_block imemDepth dmemDepth imem base code
      { σ with pc := codeAddr base 14 } h 14 rfl [.opImm .add 13 13 1] (by decide) rfl
    have hjump := @reaches_jal imemDepth dmemDepth imem base τ _ _ lines h 15 hpc .ts_outer rfl
    have hmem : τ.mem = σ.mem := by rw [← hτ]; exact Rv32i.mem_evalBlock (by decide)
    have h13 : readReg τ.x 13 = BitVec.ofNat 32 (i + 1) := by
      have hval : readReg τ.x 13 = readReg σ.x 13 + 1 := by rw [← hτ]; rfl
      rw [hval, hσ.x13, Rv32i.ofNat_succ]
    refine ⟨_, (hbranch.trans hinc).trans hjump, .inl (.inr ?_)⟩
    refine ⟨rfl, ?_, h13, ?_, ?_⟩
    · have := hσ.lt
      have := hσ.j_le
      omega
    · exact ⟨hmem.trans hσ.kept.mem, fun r hr =>
        (hregs r fun hm => hr ((show Rv32i.dests _ ⊆ scratch by decide) hm)).trans (hkept r hr)⟩
    · intro i' j' hi hlt hbound
      refine hσ.none i' j' hlt hbound ?_
      have := hσ.j_le
      omega

/-- One turn at `ts_outer`, up to `ts_inner`. -/
theorem outer_turn (i : Nat) : Rv32i.Triple imemDepth dmemDepth imem
    (Outer dmemDepth base σ₀ i) fun σ =>
      NotFound dmemDepth base σ₀ σ ∨ (i < len σ₀ ∧ Inner dmemDepth base σ₀ i (i + 1) σ) := by
  intro σ hσ
  have hn := len_lt σ₀
  have hkept (r : BitVec 5) (hr : r ∉ scratch) : readReg σ.x r = readReg σ₀.x r :=
    hσ.kept.regs r hr
  have hhead : Rv32i.BranchOp.bge.taken (readReg σ.x 13) (readReg σ.x 11) =
      !decide (i < len σ₀) := by
    rw [hkept 11 (by decide), hσ.x13]
    exact Rv32i.bge_taken_ofNat (by have := hσ.i_le; omega) _
  have hbranch := @reaches_branch imemDepth dmemDepth imem base σ _ _ lines h 1 hσ.pc .bge 13 11
    .ts_notfound rfl
  rw [hhead] at hbranch
  -- the loop ends, or loads `arr[i]` and enters the inner loop
  by_cases hi : i < len σ₀
  · rw [decide_eq_true hi] at hbranch
    obtain ⟨τ, hτ, hload, hpc, hregs⟩ := @reaches_block imemDepth dmemDepth imem base code
      { σ with pc := codeAddr base 2 } h 2 rfl
      [.slli 5 13 2, .op .add 5 10 5, .lw 6 5 0, .op .sub 7 12 6, .addi 14 13 1] (by decide) rfl
    have hmem : τ.mem = σ.mem := by rw [← hτ]; exact Rv32i.mem_evalBlock (by decide)
    have h7 : readReg τ.x 7 = target σ₀ - arr dmemDepth σ₀ i := by
      have hval : readReg τ.x 7 = readReg σ.x 12 - σ.mem (wordIndex dmemDepth
          (readReg σ.x 10 + readReg σ.x 13 <<< 2 + 0)) := by rw [← hτ]; rfl
      rw [hval, hσ.x13, hkept 10 (by decide), hkept 12 (by decide), hσ.kept.mem,
        Rv32i.shiftLeft_two, Rv32i.add_zero_imm, target, arr]
    have h14 : readReg τ.x 14 = BitVec.ofNat 32 (i + 1) := by
      have hval : readReg τ.x 14 = readReg σ.x 13 + 1 := by rw [← hτ]; rfl
      rw [hval, hσ.x13, Rv32i.ofNat_succ]
    refine ⟨τ, hbranch.trans hload, .inr ⟨hi, hpc, Nat.lt_succ_self i, hi, ?_, h14, h7, ?_, ?_⟩⟩
    · exact (hregs 13 (by decide)).trans hσ.x13
    · exact ⟨hmem.trans hσ.kept.mem, fun r hr =>
        (hregs r fun hm => hr ((show Rv32i.dests _ ⊆ scratch by decide) hm)).trans (hkept r hr)⟩
    · intro i' j' hlt hbound horder
      rcases horder with hi' | ⟨rfl, hlt'⟩
      · exact hσ.none i' j' hi' hlt hbound
      · omega
  · rw [decide_eq_false hi] at hbranch
    refine ⟨_, hbranch, .inl ⟨rfl, ⟨hσ.kept.mem, hσ.kept.regs⟩, fun i' j' hlt hbound => ?_⟩⟩
    have := hσ.i_le
    exact hσ.none i' j' (by omega) hlt hbound

/-- The inner loop. -/
theorem inner_loop (i j : Nat) : Rv32i.Triple imemDepth dmemDepth imem
    (Inner dmemDepth base σ₀ i j) fun σ =>
      (∃ j, Found dmemDepth base σ₀ i j σ) ∨ Outer dmemDepth base σ₀ (i + 1) σ := by
  refine Machine.Triple.loop (fun j => len σ₀ - j) (fun j => (inner_turn h i j).post ?_) j
  rintro σ ((hfound | houter) | ⟨hj, hinner⟩)
  · exact .inl (.inl ⟨j, hfound⟩)
  · exact .inl (.inr houter)
  · exact .inr ⟨j + 1, by omega, hinner⟩

/-- The outer loop. -/
theorem outer_loop (i : Nat) : Rv32i.Triple imemDepth dmemDepth imem
    (Outer dmemDepth base σ₀ i) fun σ =>
      (∃ i j, Found dmemDepth base σ₀ i j σ) ∨ NotFound dmemDepth base σ₀ σ := by
  refine Machine.Triple.loop (fun i => len σ₀ - i) (fun i => ?_) i
  refine (outer_turn h i).seq (.or (.skip fun σ hσ => .inl (.inr hσ)) ?_)
  rintro σ ⟨hi, hinner⟩
  obtain ⟨τ, hστ, hτ⟩ := inner_loop h i (i + 1) σ hinner
  refine ⟨τ, hστ, ?_⟩
  rcases hτ with ⟨j, hfound⟩ | houter
  · exact .inl (.inl ⟨i, j, hfound⟩)
  · exact .inr ⟨i + 1, by omega, houter⟩

end Call

/-! ## The result -/

/-- What the caller gets. -/
structure Returns (dmemDepth : Nat) (σ₀ σ : State) : Prop where
  pc : σ.pc = readReg σ₀.x 1 &&& ~~~1#32
  mem : σ.mem = σ₀.mem
  regs : ∀ r ∉ 10 :: 11 :: scratch, readReg σ.x r = readReg σ₀.x r
  result :
    (∃ i j, IsFirst (arr dmemDepth σ₀) (len σ₀) (target σ₀) i j ∧
      readReg σ.x 10 = BitVec.ofNat 32 i ∧ readReg σ.x 11 = BitVec.ofNat 32 j) ∨
    ((∀ i j, i < j → j < len σ₀ → arr dmemDepth σ₀ i + arr dmemDepth σ₀ j ≠ target σ₀) ∧
      readReg σ.x 10 = -1 ∧ readReg σ.x 11 = -1)

section Return

variable {imemDepth dmemDepth : Nat} {imem : Nat → Word} {base : Word} {σ₀ σ : State}

/-- The two instructions that set the result, and the jump back. -/
theorem reaches_return (h : Loaded imemDepth imem base code) (k : Nat)
    (hpc : σ.pc = codeAddr base k) (r10 r11 : BitVec 5) (v : Word) (hr11 : r11 ≠ 10)
    (hcode : [Instr.addi 10 r10 v, .addi 11 r11 v] <+: code.drop k)
    (hret : code[k + 2]? = some (.jalr 0 1 0)) (hkept : Kept σ₀ σ) :
    ∃ τ, Machine.Reaches (Rv32i.step imemDepth dmemDepth imem) σ τ ∧
      (τ.pc = readReg σ₀.x 1 &&& ~~~1#32 ∧ τ.mem = σ₀.mem ∧
        ∀ r ∉ 10 :: 11 :: scratch, readReg τ.x r = readReg σ₀.x r) ∧
      readReg τ.x 10 = readReg σ.x r10 + v ∧ readReg τ.x 11 = readReg σ.x r11 + v := by
  obtain ⟨τ, hτ, hset, hpc', hregs⟩ := @reaches_block imemDepth dmemDepth imem base code σ h k hpc
    [.addi 10 r10 v, .addi 11 r11 v] hcode rfl
  have hjump := Machine.Reaches.of_step (@Rv32i.step_at imemDepth dmemDepth imem base code τ _ _ h
    hpc' hret)
  have hx : τ.x = Rv32i.writeReg (Rv32i.writeReg σ.x 10 (readReg σ.x r10 + v)) 11
      (readReg (Rv32i.writeReg σ.x 10 (readReg σ.x r10 + v)) r11 + v) := by rw [← hτ]; rfl
  have hkept' (r : BitVec 5) (hr : r ∉ 10 :: 11 :: scratch) :
      readReg τ.x r = readReg σ₀.x r := by
    have hr' : r ∉ Rv32i.dests [Instr.addi 10 r10 v, .addi 11 r11 v] ∧ r ∉ scratch := by
      simp only [List.mem_cons, not_or] at hr
      exact ⟨by simpa [Rv32i.dests, Instr.dest] using ⟨hr.1, hr.2.1⟩, hr.2.2⟩
    exact (hregs r hr'.1).trans (hkept.regs r hr'.2)
  -- `ret` goes to `ra`, which the block did not write
  refine ⟨_, hset.trans hjump, ⟨?_, ?_, hkept'⟩, ?_, ?_⟩
  · show (readReg τ.x 1 + 0) &&& ~~~1#32 = _
    rw [Rv32i.add_zero_imm, hkept' 1 (by decide)]
  · show τ.mem = σ₀.mem
    rw [← hτ]
    exact hkept.mem
  · show readReg τ.x 10 = _
    rw [hx, Rv32i.readReg_writeReg (by decide), if_neg (by decide),
      Rv32i.readReg_writeReg (by decide), if_pos rfl]
  · show readReg τ.x 11 = _
    rw [hx, Rv32i.readReg_writeReg (by decide), if_pos rfl, Rv32i.readReg_writeReg (by decide),
      if_neg hr11]

end Return

/-- **`two_sum` is correct.** Called at any address, with any array, length and target, it
    returns to its caller with the first pair whose elements sum up to the target, or with
    -1 and -1 where there is none; it writes no memory, and no register besides these two
    and its scratch registers. -/
theorem two_sum_correct (imemDepth dmemDepth : Nat) (imem : Nat → Word) (base : Word) (σ₀ : State)
    (h : Loaded imemDepth imem base code) (hpc : σ₀.pc = base) :
    ∃ n, Returns dmemDepth σ₀ ((Rv32i.step imemDepth dmemDepth imem)^[n] σ₀) := by
  have hpc₀ : σ₀.pc = codeAddr base 0 := by
    rw [hpc, codeAddr]
    exact (BitVec.add_zero base).symm
  obtain ⟨σ, hσ, hstart, hpc₁, hregs⟩ := @reaches_block imemDepth dmemDepth imem base code σ₀ h 0
    hpc₀ [.addi 13 0 0] (by decide) rfl
  have houter : Outer dmemDepth base σ₀ 0 σ := by
    refine ⟨hpc₁, Nat.zero_le _, by rw [← hσ]; rfl, ⟨by rw [← hσ]; rfl, fun r hr => ?_⟩,
      fun i' _ hi' => absurd hi' (Nat.not_lt_zero i')⟩
    exact hregs r fun hm => hr ((show Rv32i.dests _ ⊆ scratch by decide) hm)
  obtain ⟨τ, hloop, hτ⟩ := outer_loop h 0 σ houter
  have hresult : ∃ υ, Machine.Reaches (Rv32i.step imemDepth dmemDepth imem) τ υ ∧
      Returns dmemDepth σ₀ υ := by
    -- the outer loop is left at `ts_found` or at `ts_notfound`
    rcases hτ with ⟨i, j, hfound⟩ | hnone
    · obtain ⟨υ, hυ, ⟨hret, hmem, hkept⟩, h10, h11⟩ := @reaches_return imemDepth dmemDepth imem base
        σ₀ τ h 16 hfound.pc 13 14 0 (by decide) (by decide) rfl hfound.kept
      refine ⟨υ, hυ, hret, hmem, hkept, .inl ⟨i, j, hfound.first, ?_, ?_⟩⟩
      · rw [h10, hfound.x13, Rv32i.add_zero_imm]
      · rw [h11, hfound.x14, Rv32i.add_zero_imm]
    · obtain ⟨υ, hυ, ⟨hret, hmem, hkept⟩, h10, h11⟩ := @reaches_return imemDepth dmemDepth imem base
        σ₀ τ h 19 hnone.pc 0 0 (-1) (by decide) (by decide) rfl hnone.kept
      refine ⟨υ, hυ, hret, hmem, hkept, .inr ⟨hnone.none, ?_, ?_⟩⟩
      · rw [h10, Rv32i.readReg_zero]
        rfl
      · rw [h11, Rv32i.readReg_zero]
        rfl
  obtain ⟨υ, hυ, hret⟩ := hresult
  obtain ⟨n, hn⟩ := (hstart.trans hloop).trans hυ
  exact ⟨n, hn ▸ hret⟩

/-- `two_sum` at address 64. -/
def image (a : Nat) : Word :=
  [ 0x00000693, 0x04b6d463, 0x00269293, 0x005502b3, 0x0002a303, 0x406603b3, 0x00168713
  , 0x00b75e63, 0x00271413, 0x00850433, 0x00042483, 0x00748a63, 0x00170713, 0xfe9ff06f
  , 0x00168693, 0xfc9ff06f, 0x00068513, 0x00070593, 0x00008067, 0xfff00513, 0xfff00593
  , 0x00008067 ].getD (a - 16) 0

/-- The second call of the test program: the array 3, 2, 4 and the target 6. -/
def secondCall : State where
  pc := 64
  x := fun r => if r = 10 then 8 else if r = 11 then 3 else if r = 12 then 6 else 40
  mem := fun a => [0, 0, 3, 2, 4].getD a 0

/-- The second call returns. -/
theorem two_sum_correct_secondCall :
    ∃ n, Returns 16 secondCall ((Rv32i.step 64 16 image)^[n] secondCall) :=
  two_sum_correct 64 16 image 64 secondCall (Rv32i.loaded_of_forall_lt (by decide)) rfl

end URiscV.Asm.TwoSum
