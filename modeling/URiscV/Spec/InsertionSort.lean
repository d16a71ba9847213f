import URiscV.ForStd.InsertAt
import URiscV.Spec.StackArray

/-!
# The sorting test passes

`test_gem5_insertionsort.s` fills an array on its stack, sorts it and checks the result.
The loops are taken one after the other; at their heads the array is a function `f` on its
indices, and the inner loop moves elements of `f` up until there is a gap for the key.

## Key results

- `outer_turn`: one insertion
- `insertion_sort_correct`: the whole program
-/

namespace URiscV.Asm.InsertionSort

open InsertAt (SortedTo insertAt shiftUp)
open Rv32i (Instr Loaded State Word codeAddr readReg reaches_block reaches_branch reaches_jal
  wordIndex)

/-! ## The pseudo-random array -/

/-- One step of the generator, with its arithmetic shift to the right. -/
def xorshift (x : Word) : Word :=
  let x := x ^^^ (x <<< 13)
  let x := x ^^^ (x.sshiftRight 17)
  x ^^^ (x <<< 5)

/-- The generator behind `k` elements. -/
def seed : Nat → Word
  | 0 => 12345
  | k + 1 => xorshift (seed k)

/-- Element `k` of the array that is sorted. -/
def value (k : Nat) : Word := seed (k + 1) &&& 0x3FF

/-! ## The loops -/

/-- The registers that the loops write. -/
def scratch : Scratch where
  regs := [7, 8, 9, 10, 11, 17, 18, 19, 20, 21, 22, 23, 24, 25, 26, 27, 28, 29, 30, 31]
  free := by decide

section Program

variable {imemDepth d N : Nat} {imem : Nat → Word} {base : Word} {σ₀ : State}

/-! ## Filling the array -/

/-- At `fill_loop`, with `k` elements written. -/
structure Fill (d N : Nat) (base : Word) (σ₀ : State) (k : Nat) (σ : State) : Prop where
  pc : σ.pc = codeAddr base 6
  k_le : k ≤ N
  x7 : readReg σ.x 7 = seed k
  x8 : readReg σ.x 8 = BitVec.ofNat 32 k
  frame : Frame scratch d N σ₀ σ
  filled : ∀ j < k, arr d N σ₀ σ j = value j

/-- At `fill_done`. -/
structure Filled (d N : Nat) (base : Word) (σ₀ σ : State) : Prop where
  pc : σ.pc = codeAddr base 19
  frame : Frame scratch d N σ₀ σ
  filled : ∀ j < N, arr d N σ₀ σ j = value j

/-- The body of the loop, up to the jump. -/
def fillBody : List Instr :=
  [ .slli 9 7 13, .op .xor 7 7 9, .srai 9 7 17, .op .xor 7 7 9, .slli 9 7 5, .op .xor 7 7 9
  , .andi 10 7 0x3FF, .slli 11 8 2, .op .add 11 2 11, .sw 11 10 0, .addi 8 8 1 ]

/-- What one turn of the first loop computes. -/
theorem eval_fillBody (depth : Nat) (σ : State) :
    let τ := Rv32i.evalBlock depth fillBody σ
    readReg τ.x 7 = xorshift (readReg σ.x 7) ∧ readReg τ.x 8 = readReg σ.x 8 + 1 ∧
      τ.mem = Function.update σ.mem (wordIndex depth (readReg σ.x 2 + readReg σ.x 8 <<< 2 + 0))
        (xorshift (readReg σ.x 7) &&& 0x3FF) := by
  simp +decide only [fillBody, Rv32i.evalBlock, List.foldl_cons, List.foldl_nil, Rv32i.eval,
    Rv32i.effect, Rv32i.Effect.apply, Rv32i.readReg_writeReg, Rv32i.IntOp.eval, ne_eq, if_true,
    if_false]
  exact ⟨rfl, trivial, rfl⟩

/-- One turn of the first loop, or its end. -/
theorem fill_turn (h : Loaded imemDepth imem base (code (BitVec.ofNat 32 N))) (hd : d ≤ 30)
    (hN : N ≤ 2 ^ d) (k : Nat) : Rv32i.Triple imemDepth (2 ^ d) imem (Fill d N base σ₀ k) fun σ =>
      Filled d N base σ₀ σ ∨ (k < N ∧ Fill d N base σ₀ (k + 1) σ) := by
  intro σ hσ
  have hle : 2 ^ d ≤ 2 ^ 30 := Nat.pow_le_pow_right (by decide) hd
  have hhead : Rv32i.BranchOp.bge.taken (readReg σ.x 8) (readReg σ.x 5) = !decide (k < N) := by
    rw [hσ.x8, hσ.frame.x5]
    exact congrArg (!·) (Rv32i.slt_ofNat_ofNat (by have := hσ.k_le; omega) (by omega))
  have hbranch := @reaches_branch imemDepth (2 ^ d) imem base σ _ _ _ h 6 hσ.pc .bge 8 5
    .fill_done rfl
  rw [hhead] at hbranch
  -- the loop goes on, or is left
  by_cases hk : k < N
  · rw [decide_eq_true hk] at hbranch
    obtain ⟨τ, hτ, hbody, hpc, hregs⟩ := @reaches_block imemDepth (2 ^ d) imem base _
      { σ with pc := codeAddr base 7 } h 7 rfl fillBody ⟨_, rfl⟩ rfl
    have hjump := @reaches_jal imemDepth (2 ^ d) imem base τ _ _ _ h 18 hpc .fill_loop rfl
    obtain ⟨h7, h8, hmem⟩ := eval_fillBody (2 ^ d) { σ with pc := codeAddr base 7 }
    rw [hτ] at h7 h8 hmem
    have hmem' : τ.mem = Function.update σ.mem (index d N σ₀ k) (value k) := by
      rw [hmem, hσ.frame.x2, hσ.x8, hσ.x7, Rv32i.shiftLeft_two, Rv32i.add_zero_imm]
      rfl
    have hframe : Frame scratch d N σ₀ τ := hσ.frame.of_kept
      (fun r hr => hregs r fun hm => hr ((show Rv32i.dests _ ⊆ scratch.regs by decide) hm))
      fun a ha => by rw [hmem', Function.update_of_ne (ha k hk)]
    refine ⟨_, (hbranch.trans hbody).trans hjump, .inr ⟨hk, rfl, hk, ?_, ?_, hframe.jump, ?_⟩⟩
    · exact h7.trans (congrArg xorshift hσ.x7)
    · exact h8.trans ((congrArg (· + 1) hσ.x8).trans (Rv32i.ofNat_succ k))
    · intro j hj
      have hj' : arr d N σ₀ τ j = Function.update (arr d N σ₀ σ) k (value k) j :=
        arr_update hd hN hk (by omega) hmem'
      -- an earlier element, or the new one
      rcases Nat.lt_succ_iff_lt_or_eq.mp hj with hj | rfl
      · exact hj'.trans ((Function.update_of_ne (Nat.ne_of_lt hj) _ _).trans (hσ.filled j hj))
      · exact hj'.trans (Function.update_self _ _ _)
  · rw [decide_eq_false hk] at hbranch
    refine ⟨_, hbranch, .inl ⟨rfl, hσ.frame.jump, fun j hj => ?_⟩⟩
    exact hσ.filled j (by have := hσ.k_le; omega)

/-! ## Sorting it -/

/-- The array is a reordering of the pseudo-random one, with the first `i` elements sorted. -/
structure Prefix (d N : Nat) (σ₀ : State) (i : Nat) (σ : State) : Prop where
  frame : Frame scratch d N σ₀ σ
  sorted : SortedTo (fun k => (arr d N σ₀ σ k).toInt) i
  perm : ((List.range N).map (arr d N σ₀ σ)).Perm ((List.range N).map value)

/-- A jump leaves the array alone. -/
theorem Prefix.jump {i : Nat} {σ : State} (h : Prefix d N σ₀ i σ) {pc : Word} :
    Prefix d N σ₀ i { σ with pc := pc } := ⟨h.frame.jump, h.sorted, h.perm⟩

/-- At `sort_outer`. -/
structure Outer (d N : Nat) (base : Word) (σ₀ : State) (i : Nat) (σ : State) : Prop where
  pc : σ.pc = codeAddr base 20
  i_le : i ≤ N + 1
  x18 : readReg σ.x 18 = BitVec.ofNat 32 i
  sorted : Prefix d N σ₀ i σ

/-- At `sort_done`. -/
structure Sorted (d N : Nat) (base : Word) (σ₀ σ : State) : Prop where
  pc : σ.pc = codeAddr base 39
  sorted : Prefix d N σ₀ N σ

/-- Elements of `f` have been moved up, those from `p` to `i - 1`; they are not smaller than
    the key, element `i`. -/
structure Gap (d N : Nat) (σ₀ : State) (f : Nat → Word) (i p : Nat) (σ : State) : Prop where
  p_le : p ≤ i
  x18 : readReg σ.x 18 = BitVec.ofNat 32 i
  x21 : readReg σ.x 21 = f i
  x22 : readReg σ.x 22 + 1 = BitVec.ofNat 32 p
  frame : Frame scratch d N σ₀ σ
  arr : ∀ k < N, arr d N σ₀ σ k = shiftUp f p i k
  high : ∀ k, p ≤ k → k < i → (f i).toInt ≤ (f k).toInt

/-- And the gap. -/
theorem Gap.jump {f : Nat → Word} {i p : Nat} {σ : State} (h : Gap d N σ₀ f i p σ) {pc : Word} :
    Gap d N σ₀ f i p { σ with pc := pc } :=
  ⟨h.p_le, h.x18, h.x21, h.x22, h.frame.jump, h.arr, h.high⟩

/-- The inner loop loads without harm. -/
theorem Gap.of_kept {f : Nat → Word} {i p : Nat} {σ τ : State} (h : Gap d N σ₀ f i p σ)
    (hmem : τ.mem = σ.mem) (hregs : ∀ r ∉ ([23, 24, 25] : List (BitVec 5)),
      readReg τ.x r = readReg σ.x r) : Gap d N σ₀ f i p τ where
  p_le := h.p_le
  x18 := (hregs 18 (by decide)).trans h.x18
  x21 := (hregs 21 (by decide)).trans h.x21
  x22 := (congrArg (· + 1) (hregs 22 (by decide))).trans h.x22
  frame := h.frame.of_kept
    (fun r hr => hregs r fun hm => hr ((show [23, 24, 25] ⊆ scratch.regs by decide) hm))
    fun a _ => by rw [hmem]
  arr k hk := by rw [← h.arr k hk, Asm.arr, Asm.arr, hmem]
  high := h.high

/-- At `sort_insert`. -/
structure Insert (d N : Nat) (base : Word) (σ₀ : State) (f : Nat → Word) (i p : Nat)
    (σ : State) : Prop where
  pc : σ.pc = codeAddr base 33
  gap : Gap d N σ₀ f i p σ
  low : ∀ k < p, (f k).toInt ≤ (f i).toInt

section Inner

variable {f : Nat → Word} {i : Nat}

/-- The element in front of the gap. -/
theorem inner_load (h : Loaded imemDepth imem base (code (BitVec.ofNat 32 N))) {q : Nat}
    (hq : q < N) {σ : State} (hpc : σ.pc = codeAddr base 26) (hσ : Gap d N σ₀ f i (q + 1) σ)
    (h22 : readReg σ.x 22 = BitVec.ofNat 32 q) : ∃ τ,
      Machine.Reaches (Rv32i.step imemDepth (2 ^ d) imem) σ τ ∧ τ.pc = codeAddr base 29 ∧
      Gap d N σ₀ f i (q + 1) τ ∧ readReg τ.x 22 = BitVec.ofNat 32 q ∧
      readReg τ.x 24 = stack N σ₀ + BitVec.ofNat 32 (4 * q) ∧ readReg τ.x 25 = f q := by
  obtain ⟨τ, hτ, hload, hpc', hregs⟩ := @reaches_block imemDepth (2 ^ d) imem base _ σ h 26 hpc
    [.slli 23 22 2, .op .add 24 2 23, .lw 25 24 0] ⟨_, rfl⟩ rfl
  have hmem : τ.mem = σ.mem := by rw [← hτ]; exact Rv32i.mem_evalBlock (by decide)
  have hgap : Gap d N σ₀ f i (q + 1) τ := hσ.of_kept hmem
    fun r hr => hregs r fun hm => hr ((show Rv32i.dests _ ⊆ [23, 24, 25] by decide) hm)
  refine ⟨τ, hload, hpc', hgap, (hregs 22 (by decide)).trans h22, ?_, ?_⟩
  · have hval : readReg τ.x 24 = readReg σ.x 2 + readReg σ.x 22 <<< 2 := by rw [← hτ]; rfl
    rw [hval, h22, hσ.frame.x2, Rv32i.shiftLeft_two]
  · have hval : readReg τ.x 25 = σ.mem (wordIndex (2 ^ d)
        (readReg σ.x 2 + readReg σ.x 22 <<< 2 + 0)) := by rw [← hτ]; rfl
    rw [hval, h22, hσ.frame.x2, Rv32i.shiftLeft_two, Rv32i.add_zero_imm]
    exact (hσ.arr q hq).trans (InsertAt.shiftUp_of_le (Nat.le_succ q))

/-- An element that is greater than the key moves up. -/
theorem inner_shift (h : Loaded imemDepth imem base (code (BitVec.ofNat 32 N))) (hd : d ≤ 30)
    (hN : N ≤ 2 ^ d) (hi : i < N) {q : Nat} {σ : State} (hpc : σ.pc = codeAddr base 30)
    (hσ : Gap d N σ₀ f i (q + 1) σ) (h22 : readReg σ.x 22 = BitVec.ofNat 32 q)
    (h24 : readReg σ.x 24 = stack N σ₀ + BitVec.ofNat 32 (4 * q)) (h25 : readReg σ.x 25 = f q)
    (hkey : (f i).toInt ≤ (f q).toInt) : ∃ τ,
      Machine.Reaches (Rv32i.step imemDepth (2 ^ d) imem) σ τ ∧ τ.pc = codeAddr base 25 ∧
      Gap d N σ₀ f i q τ := by
  have hq : q < i := hσ.p_le
  obtain ⟨τ, hτ, hstore, hpc', hregs⟩ := @reaches_block imemDepth (2 ^ d) imem base _ σ h 30 hpc
    [.sw 24 25 4, .addi 22 22 (-1)] ⟨_, rfl⟩ rfl
  have hjump := @reaches_jal imemDepth (2 ^ d) imem base τ _ _ _ h 32 hpc' .sort_inner rfl
  have hmem : τ.mem = Function.update σ.mem (index d N σ₀ (q + 1)) (f q) := by
    have hval : τ.mem = Function.update σ.mem (wordIndex (2 ^ d) (readReg σ.x 24 + 4))
        (readReg σ.x 25) := by rw [← hτ]; rfl
    rw [hval, h24, h25, Rv32i.ofNat_add_four, index]
  have h22' : readReg τ.x 22 + 1 = BitVec.ofNat 32 q := by
    have hval : readReg τ.x 22 = readReg σ.x 22 + -1 := by rw [← hτ]; rfl
    rw [hval, h22]
    bv_omega
  have hframe : Frame scratch d N σ₀ τ := hσ.frame.of_kept
    (fun r hr => hregs r fun hm => hr ((show Rv32i.dests _ ⊆ scratch.regs by decide) hm))
    fun a ha => by rw [hmem, Function.update_of_ne (ha (q + 1) (by omega))]
  refine ⟨_, hstore.trans hjump, rfl, Nat.le_of_lt hq, (hregs 18 (by decide)).trans hσ.x18,
    (hregs 21 (by decide)).trans hσ.x21, h22', hframe.jump, fun k hk => ?_, fun k hk hki => ?_⟩
  · have hupdate : Asm.arr d N σ₀ τ k = Function.update (Asm.arr d N σ₀ σ) (q + 1) (f q) k :=
      arr_update hd hN (by omega) hk hmem
    refine hupdate.trans ?_
    rw [← InsertAt.update_shiftUp (f := f) hσ.p_le]
    -- the element goes to the gap, the others stay
    by_cases hkq : k = q + 1
    · rw [hkq, Function.update_self, Function.update_self]
    · rw [Function.update_of_ne hkq, Function.update_of_ne hkq, hσ.arr k hk]
  · rcases Nat.eq_or_lt_of_le hk with rfl | hk
    · exact hkey
    · exact hσ.high k hk hki

/-- One turn at `sort_inner`. -/
theorem inner_turn (h : Loaded imemDepth imem base (code (BitVec.ofNat 32 N))) (hd : d ≤ 30)
    (hN : N ≤ 2 ^ d) (hi : i < N) (hf : SortedTo (fun k => (f k).toInt) i) (p : Nat) :
    Rv32i.Triple imemDepth (2 ^ d) imem
      (fun σ => σ.pc = codeAddr base 25 ∧ Gap d N σ₀ f i p σ) fun σ =>
        (∃ p, Insert d N base σ₀ f i p σ) ∨
          ∃ q < p, σ.pc = codeAddr base 25 ∧ Gap d N σ₀ f i q σ := by
  rintro σ ⟨hpc, hσ⟩
  have hle : 2 ^ d ≤ 2 ^ 30 := Nat.pow_le_pow_right (by decide) hd
  have hbranch := @reaches_branch imemDepth (2 ^ d) imem base σ _ _ _ h 25 hpc .blt 22 0
    .sort_insert rfl
  cases p with
  | zero =>
    -- there is no element in front of the gap
    have h22 : readReg σ.x 22 = -1 := by
      have hzero : readReg σ.x 22 + 1 = 0 := hσ.x22
      bv_omega
    have htaken : Rv32i.BranchOp.blt.taken (readReg σ.x 22) (readReg σ.x 0) = true := by
      rw [h22]
      rfl
    rw [htaken] at hbranch
    exact ⟨_, hbranch, .inl ⟨0, rfl, hσ.jump, fun k hk => absurd hk (Nat.not_lt_zero k)⟩⟩
  | succ q =>
    have hq : q < i := hσ.p_le
    have h22 : readReg σ.x 22 = BitVec.ofNat 32 q := by
      have hsucc := hσ.x22
      rw [← Rv32i.ofNat_succ] at hsucc
      bv_omega
    have htaken : Rv32i.BranchOp.blt.taken (readReg σ.x 22) (readReg σ.x 0) = false := by
      rw [h22, Rv32i.readReg_zero]
      exact (Rv32i.slt_ofNat (by omega) 0).trans (decide_eq_false (Nat.not_lt_zero q))
    rw [htaken] at hbranch
    obtain ⟨τ, hload, hpc', hgap, hτ22, h24, h25⟩ := inner_load h (Nat.lt_trans hq hi) rfl
      (@Gap.jump _ _ _ _ _ _ _ hσ (codeAddr base 26)) h22
    have hcompare := @reaches_branch imemDepth (2 ^ d) imem base τ _ _ _ h 29 hpc' .bge 21 25
      .sort_insert rfl
    have htaken' : Rv32i.BranchOp.bge.taken (readReg τ.x 21) (readReg τ.x 25) =
        decide ((f q).toInt ≤ (f i).toInt) := by
      rw [hgap.x21, h25]
      show (!decide _) = _
      rw [← decide_not]
      exact decide_eq_decide.mpr Int.not_lt
    rw [htaken'] at hcompare
    by_cases hkey : (f q).toInt ≤ (f i).toInt
    · rw [decide_eq_true hkey] at hcompare
      refine ⟨_, (hbranch.trans hload).trans hcompare, .inl ⟨q + 1, rfl, hgap.jump, ?_⟩⟩
      intro k hk
      rcases Nat.lt_succ_iff_lt_or_eq.mp hk with hk | rfl
      · exact (hf k q hk hq).trans hkey
      · exact hkey
    · rw [decide_eq_false hkey] at hcompare
      obtain ⟨υ, hshift, hυ⟩ := inner_shift h hd hN hi rfl
        (@Gap.jump _ _ _ _ _ _ _ hgap (codeAddr base 30)) hτ22 h24 h25 (Int.not_le.mp hkey).le
      exact ⟨υ, (hbranch.trans hload).trans (hcompare.trans hshift),
        .inr ⟨q, Nat.lt_succ_self q, hυ⟩⟩

/-- The inner loop. -/
theorem inner_loop (h : Loaded imemDepth imem base (code (BitVec.ofNat 32 N))) (hd : d ≤ 30)
    (hN : N ≤ 2 ^ d) (hi : i < N) (hf : SortedTo (fun k => (f k).toInt) i) (p : Nat) :
    Rv32i.Triple imemDepth (2 ^ d) imem
      (fun σ => σ.pc = codeAddr base 25 ∧ Gap d N σ₀ f i p σ) fun σ =>
        ∃ p, Insert d N base σ₀ f i p σ :=
  Machine.Triple.loop (fun p => p) (inner_turn h hd hN hi hf) p

/-- The body of `sort_insert`, up to the jump. -/
def insertBody : List Instr :=
  [.addi 23 22 1, .slli 23 23 2, .op .add 24 2 23, .sw 24 21 0, .addi 18 18 1]

/-- What the insertion computes. -/
theorem eval_insertBody (depth : Nat) (σ : State) :
    let τ := Rv32i.evalBlock depth insertBody σ
    readReg τ.x 18 = readReg σ.x 18 + 1 ∧
      τ.mem = Function.update σ.mem (wordIndex depth
        (readReg σ.x 2 + (readReg σ.x 22 + 1) <<< 2 + 0)) (readReg σ.x 21) := by
  simp +decide only [insertBody, Rv32i.evalBlock, List.foldl_cons, List.foldl_nil, Rv32i.eval,
    Rv32i.effect, Rv32i.Effect.apply, Rv32i.readReg_writeReg, Rv32i.IntOp.eval, ne_eq, if_true,
    if_false]
  exact ⟨trivial, rfl⟩

/-- The key goes into the gap. -/
theorem insert_turn (h : Loaded imemDepth imem base (code (BitVec.ofNat 32 N))) (hd : d ≤ 30)
    (hN : N ≤ 2 ^ d) (hi : i < N) (hf : SortedTo (fun k => (f k).toInt) i)
    (hperm : ((List.range N).map f).Perm ((List.range N).map value)) (p : Nat) :
    Rv32i.Triple imemDepth (2 ^ d) imem (Insert d N base σ₀ f i p)
      (Outer d N base σ₀ (i + 1)) := by
  intro σ hσ
  have hgap := hσ.gap
  obtain ⟨τ, hτ, hstore, hpc, hregs⟩ := @reaches_block imemDepth (2 ^ d) imem base _ σ h 33 hσ.pc
    insertBody ⟨_, rfl⟩ rfl
  obtain ⟨h18, hmem⟩ := eval_insertBody (2 ^ d) σ
  rw [hτ] at h18 hmem
  rw [hgap.x18, Rv32i.ofNat_succ] at h18
  rw [hgap.x22, hgap.x21, hgap.frame.x2, Rv32i.shiftLeft_two, Rv32i.add_zero_imm, ← index] at hmem
  have hjump := @reaches_jal imemDepth (2 ^ d) imem base τ _ _ _ h 38 hpc .sort_outer rfl
  have harr (k : Nat) (hk : k < N) : arr d N σ₀ τ k = insertAt f p i k := by
    rw [arr_update hd hN (Nat.lt_of_le_of_lt hgap.p_le hi) hk hmem, insertAt]
    by_cases hkp : k = p
    · rw [hkp, Function.update_self, Function.update_self]
    · rw [Function.update_of_ne hkp, Function.update_of_ne hkp, hgap.arr k hk]
  have hframe : Frame scratch d N σ₀ τ := hgap.frame.of_kept
    (fun r hr => hregs r fun hm => hr ((show Rv32i.dests _ ⊆ scratch.regs by decide) hm))
    fun a ha => by rw [hmem, Function.update_of_ne (ha p (Nat.lt_of_le_of_lt hgap.p_le hi))]
  refine ⟨_, hstore.trans hjump, rfl, by omega, h18, ?_⟩
  refine Prefix.jump (σ := τ) ⟨hframe, fun a b hab hb => ?_, ?_⟩
  -- the key stands between the lower and the higher elements
  · have hsorted := InsertAt.sortedTo_insertAt hf hgap.p_le hσ.low hgap.high a b hab hb
    rw [InsertAt.insertAt_eq, InsertAt.insertAt_eq] at hsorted
    show (arr d N σ₀ τ a).toInt ≤ (arr d N σ₀ τ b).toInt
    rw [harr a (by omega), harr b (by omega), InsertAt.insertAt_eq, InsertAt.insertAt_eq]
    exact hsorted
  · have hmap : (List.range N).map (arr d N σ₀ τ) = (List.range N).map (insertAt f p i) :=
      List.map_congr_left fun k hk => harr k (List.mem_range.mp hk)
    rw [hmap]
    exact (InsertAt.perm_insertAt f hgap.p_le hi).trans hperm

end Inner

/-- The body of `sort_outer`. -/
def outerBody : List Instr := [.slli 19 18 2, .op .add 20 2 19, .lw 21 20 0, .addi 22 18 (-1)]

/-- What the outer loop does before the inner one. -/
theorem eval_outerBody (depth : Nat) (σ : State) :
    let τ := Rv32i.evalBlock depth outerBody σ
    readReg τ.x 22 = readReg σ.x 18 + -1 ∧
      readReg τ.x 21 =
        σ.mem (wordIndex depth (readReg σ.x 2 + readReg σ.x 18 <<< 2 + 0)) := by
  simp +decide only [outerBody, Rv32i.evalBlock, List.foldl_cons, List.foldl_nil, Rv32i.eval,
    Rv32i.effect, Rv32i.Effect.apply, Rv32i.readReg_writeReg, Rv32i.IntOp.eval, ne_eq, if_true,
    if_false]
  exact ⟨trivial, rfl⟩

/-- **One insertion.** -/
theorem outer_turn (h : Loaded imemDepth imem base (code (BitVec.ofNat 32 N))) (hd : d ≤ 30)
    (hN : N ≤ 2 ^ d) (i : Nat) : Rv32i.Triple imemDepth (2 ^ d) imem (Outer d N base σ₀ i) fun σ =>
      Sorted d N base σ₀ σ ∨ (i < N ∧ Outer d N base σ₀ (i + 1) σ) := by
  intro σ hσ
  have hle : 2 ^ d ≤ 2 ^ 30 := Nat.pow_le_pow_right (by decide) hd
  have hhead : Rv32i.BranchOp.bge.taken (readReg σ.x 18) (readReg σ.x 5) = !decide (i < N) := by
    rw [hσ.x18, hσ.sorted.frame.x5]
    exact congrArg (!·) (Rv32i.slt_ofNat_ofNat (by have := hσ.i_le; omega) (by omega))
  have hbranch := @reaches_branch imemDepth (2 ^ d) imem base σ _ _ _ h 20 hσ.pc .bge 18 5
    .sort_done rfl
  rw [hhead] at hbranch
  by_cases hi : i < N
  · rw [decide_eq_true hi] at hbranch
    obtain ⟨τ, hτ, hload, hpc, hregs⟩ := @reaches_block imemDepth (2 ^ d) imem base _
      { σ with pc := codeAddr base 21 } h 21 rfl outerBody ⟨_, rfl⟩ rfl
    obtain ⟨h22, h21⟩ := eval_outerBody (2 ^ d) { σ with pc := codeAddr base 21 }
    rw [hτ] at h22 h21
    have hmem : τ.mem = σ.mem := by rw [← hτ]; exact Rv32i.mem_evalBlock (by decide)
    rw [hσ.x18] at h22
    rw [hσ.x18, hσ.sorted.frame.x2, Rv32i.shiftLeft_two, Rv32i.add_zero_imm] at h21
    -- the gap starts at the key itself
    have hgap : Gap d N σ₀ (arr d N σ₀ σ) i i τ := by
      refine ⟨Nat.le_refl i, (hregs 18 (by decide)).trans hσ.x18, h21, ?_, ?_, fun k _ => ?_,
        fun k hk hki => absurd hki (Nat.not_lt.mpr hk)⟩
      · rw [h22]
        bv_omega
      · exact hσ.sorted.frame.of_kept
          (fun r hr => hregs r fun hm => hr ((show Rv32i.dests _ ⊆ scratch.regs by decide) hm))
          fun a _ => by rw [hmem]
      · rw [InsertAt.shiftUp_self, arr, arr, hmem]
    obtain ⟨υ, hloop, p, hυ⟩ := inner_loop h hd hN hi hσ.sorted.sorted i τ ⟨hpc, hgap⟩
    obtain ⟨ω, hinsert, hω⟩ := insert_turn h hd hN hi hσ.sorted.sorted hσ.sorted.perm p υ hυ
    exact ⟨ω, ((hbranch.trans hload).trans hloop).trans hinsert, .inr ⟨hi, hω⟩⟩
  · rw [decide_eq_false hi] at hbranch
    refine ⟨_, hbranch, .inl ⟨rfl, hσ.sorted.frame.jump, fun a b hab hb => ?_, hσ.sorted.perm⟩⟩
    exact hσ.sorted.sorted a b hab (by omega)

/-- The outer loop. -/
theorem outer_loop (h : Loaded imemDepth imem base (code (BitVec.ofNat 32 N))) (hd : d ≤ 30)
    (hN : N ≤ 2 ^ d) (i : Nat) :
    Rv32i.Triple imemDepth (2 ^ d) imem (Outer d N base σ₀ i) (Sorted d N base σ₀) := by
  refine Machine.Triple.loop (fun i => N + 1 - i) (fun i => (outer_turn h hd hN i).post ?_) i
  rintro σ (hdone | ⟨hi, hσ⟩)
  · exact .inl hdone
  · exact .inr ⟨i + 1, by omega, hσ⟩


/-! ## Checking it -/

/-- At `verify_loop`. -/
structure Verify (d N : Nat) (base : Word) (σ₀ : State) (k : Nat) (σ : State) : Prop where
  pc : σ.pc = codeAddr base 41
  k_le : k ≤ N
  x26 : readReg σ.x 26 = BitVec.ofNat 32 k
  x27 : readReg σ.x 27 = BitVec.ofNat 32 N + -1
  sorted : Prefix d N σ₀ N σ

/-- At `verify_pass`. -/
structure Pass (d N : Nat) (base : Word) (σ₀ σ : State) : Prop where
  pc : σ.pc = codeAddr base 49
  sorted : Prefix d N σ₀ N σ

/-- The body of `verify_loop`, up to the comparison. -/
def verifyBody : List Instr := [.slli 28 26 2, .op .add 29 2 28, .lw 30 29 0, .lw 31 29 4]

/-- What one turn of the last loop loads. -/
theorem eval_verifyBody (depth : Nat) (σ : State) :
    let τ := Rv32i.evalBlock depth verifyBody σ
    readReg τ.x 30 = σ.mem (wordIndex depth (readReg σ.x 2 + readReg σ.x 26 <<< 2 + 0)) ∧
      readReg τ.x 31 = σ.mem (wordIndex depth (readReg σ.x 2 + readReg σ.x 26 <<< 2 + 4)) := by
  simp +decide only [verifyBody, Rv32i.evalBlock, List.foldl_cons, List.foldl_nil, Rv32i.eval,
    Rv32i.effect, Rv32i.Effect.apply, Rv32i.readReg_writeReg, Rv32i.IntOp.eval, ne_eq, if_true,
    if_false]
  exact ⟨rfl, rfl⟩

/-- A step that writes no memory and scratch registers only. -/
theorem Prefix.of_kept {i : Nat} {σ τ : State} (h : Prefix d N σ₀ i σ) (hmem : τ.mem = σ.mem)
    (hregs : ∀ r ∉ scratch.regs, readReg τ.x r = readReg σ.x r) : Prefix d N σ₀ i τ := by
  have harr : arr d N σ₀ τ = arr d N σ₀ σ := by
    funext k
    rw [arr, arr, hmem]
  exact ⟨h.frame.of_kept hregs fun a _ => by rw [hmem], by rw [harr]; exact h.sorted,
    by rw [harr]; exact h.perm⟩

/-- The last element has no successor to compare with. -/
theorem pred_toNat {N : Nat} (hN : N < 2 ^ 31) :
    (BitVec.ofNat 32 N + -1).toInt.toNat = N - 1 := by
  cases N with
  | zero => rfl
  | succ m =>
    have hm : BitVec.ofNat 32 (m + 1) + -1 = BitVec.ofNat 32 m := by
      rw [← Rv32i.ofNat_succ]
      bv_omega
    have hnat : (BitVec.ofNat 32 m).toNat = m := Nat.mod_eq_of_lt (by omega)
    rw [hm, BitVec.toInt_eq_toNat_of_lt (by omega), hnat, Int.toNat_natCast, Nat.add_sub_cancel]

/-- One turn of the last loop, or its end. -/
theorem verify_turn (h : Loaded imemDepth imem base (code (BitVec.ofNat 32 N))) (hd : d ≤ 30)
    (hN : N ≤ 2 ^ d) (k : Nat) : Rv32i.Triple imemDepth (2 ^ d) imem (Verify d N base σ₀ k) fun σ =>
      Pass d N base σ₀ σ ∨ (k < N ∧ Verify d N base σ₀ (k + 1) σ) := by
  intro σ hσ
  have hle : 2 ^ d ≤ 2 ^ 30 := Nat.pow_le_pow_right (by decide) hd
  have hhead : Rv32i.BranchOp.bge.taken (readReg σ.x 26) (readReg σ.x 27) =
      !decide (k < N - 1) := by
    rw [hσ.x26, hσ.x27, ← pred_toNat (show N < 2 ^ 31 by omega)]
    exact Rv32i.bge_taken_ofNat (by have := hσ.k_le; omega) _
  have hbranch := @reaches_branch imemDepth (2 ^ d) imem base σ _ _ _ h 41 hσ.pc .bge 26 27
    .verify_pass rfl
  rw [hhead] at hbranch
  by_cases hk : k < N - 1
  · rw [decide_eq_true hk] at hbranch
    obtain ⟨τ, hτ, hload, hpc, hregs⟩ := @reaches_block imemDepth (2 ^ d) imem base _
      { σ with pc := codeAddr base 42 } h 42 rfl verifyBody ⟨_, rfl⟩ rfl
    obtain ⟨h30, h31⟩ := eval_verifyBody (2 ^ d) { σ with pc := codeAddr base 42 }
    rw [hτ] at h30 h31
    rw [hσ.x26, hσ.sorted.frame.x2, Rv32i.shiftLeft_two, Rv32i.add_zero_imm] at h30
    rw [hσ.x26, hσ.sorted.frame.x2, Rv32i.shiftLeft_two, Rv32i.ofNat_add_four] at h31
    have hmem : τ.mem = σ.mem := by rw [← hτ]; exact Rv32i.mem_evalBlock (by decide)
    have hcompare := @reaches_branch imemDepth (2 ^ d) imem base τ _ _ _ h 46 hpc .blt 31 30
      .verify_fail rfl
    -- two neighbours of a sorted array do not fail the check
    have htaken : Rv32i.BranchOp.blt.taken (readReg τ.x 31) (readReg τ.x 30) = false := by
      rw [h30, h31]
      exact decide_eq_false (Int.not_lt.mpr (hσ.sorted.sorted k (k + 1) (by omega) (by omega)))
    rw [htaken] at hcompare
    obtain ⟨υ, hυ, hnext, hpc', hregs'⟩ := @reaches_block imemDepth (2 ^ d) imem base _
      { τ with pc := codeAddr base 47 } h 47 rfl [.addi 26 26 1] ⟨_, rfl⟩ rfl
    have hjump := @reaches_jal imemDepth (2 ^ d) imem base υ _ _ _ h 48 hpc' .verify_loop rfl
    have hmem' : υ.mem = τ.mem := by rw [← hυ]; exact Rv32i.mem_evalBlock (by decide)
    have h26 : readReg υ.x 26 = BitVec.ofNat 32 (k + 1) := by
      have hval : readReg υ.x 26 = readReg τ.x 26 + 1 := by rw [← hυ]; rfl
      have h26τ : readReg τ.x 26 = BitVec.ofNat 32 k := (hregs 26 (by decide)).trans hσ.x26
      rw [hval, h26τ, Rv32i.ofNat_succ]
    have h27 : readReg υ.x 27 = BitVec.ofNat 32 N + -1 :=
      (hregs' 27 (by decide)).trans ((hregs 27 (by decide)).trans hσ.x27)
    have hsorted : Prefix d N σ₀ N τ := hσ.sorted.of_kept hmem
      fun r hr => hregs r fun hm => hr ((show Rv32i.dests _ ⊆ scratch.regs by decide) hm)
    have hsorted' : Prefix d N σ₀ N υ := hsorted.of_kept hmem'
      fun r hr => hregs' r fun hm => hr ((show Rv32i.dests _ ⊆ scratch.regs by decide) hm)
    exact ⟨_, ((hbranch.trans hload).trans (hcompare.trans hnext)).trans hjump,
      .inr ⟨by omega, rfl, by omega, h26, h27, hsorted'.jump⟩⟩
  · rw [decide_eq_false hk] at hbranch
    exact ⟨_, hbranch, .inl ⟨rfl, hσ.sorted.jump⟩⟩

/-- It finds no neighbours out of order. -/
theorem verify_loop (h : Loaded imemDepth imem base (code (BitVec.ofNat 32 N))) (hd : d ≤ 30)
    (hN : N ≤ 2 ^ d) (k : Nat) :
    Rv32i.Triple imemDepth (2 ^ d) imem (Verify d N base σ₀ k) (Pass d N base σ₀) := by
  refine Machine.Triple.loop (fun k => N - k) (fun k => (verify_turn h hd hN k).post ?_) k
  rintro σ (hpass | ⟨hk, hσ⟩)
  · exact .inl hpass
  · exact .inr ⟨k + 1, by omega, hσ⟩

/-! ## The whole program -/

/-- At the exit syscall, with the array sorted. -/
structure Passes (d N : Nat) (base : Word) (σ₀ σ : State) : Prop where
  exits : Exits scratch d N σ₀ (codeAddr base 54) σ
  sorted : ∀ j k, j < k → k < N → (arr d N σ₀ σ j).toInt ≤ (arr d N σ₀ σ k).toInt
  perm : ((List.range N).map (arr d N σ₀ σ)).Perm ((List.range N).map value)

/-- The start of the program. -/
def startBody (N : Word) : List Instr :=
  [ .addi 5 0 N, .slli 6 5 2, .op .sub 2 2 6, .lui 7 (3 <<< 12), .addi 7 7 57, .addi 8 0 0 ]

/-- What the instructions before the first loop compute. -/
theorem eval_startBody (depth : Nat) (N : Word) (σ : State) :
    let τ := Rv32i.evalBlock depth (startBody N) σ
    (readReg τ.x 5 = readReg σ.x 0 + N ∧ readReg τ.x 6 = (readReg σ.x 0 + N) <<< 2 ∧
        readReg τ.x 2 = readReg σ.x 2 - (readReg σ.x 0 + N) <<< 2) ∧
      readReg τ.x 7 = 12345 ∧ readReg τ.x 8 = readReg σ.x 0 + 0 := by
  simp +decide only [startBody, Rv32i.evalBlock, List.foldl_cons, List.foldl_nil, Rv32i.eval,
    Rv32i.effect, Rv32i.Effect.apply, Rv32i.readReg_writeReg, Rv32i.IntOp.eval, ne_eq, if_true,
    if_false]
  exact ⟨⟨trivial, rfl, rfl⟩, trivial⟩

/-- The first loop is entered. -/
theorem start (h : Loaded imemDepth imem base (code (BitVec.ofNat 32 N)))
    (hpc : σ₀.pc = codeAddr base 0) : ∃ σ,
      Machine.Reaches (Rv32i.step imemDepth (2 ^ d) imem) σ₀ σ ∧ Fill d N base σ₀ 0 σ := by
  obtain ⟨τ, hτ, hstart, hpc', hregs⟩ := @reaches_block imemDepth (2 ^ d) imem base _ σ₀ h 0 hpc
    (startBody (BitVec.ofNat 32 N)) ⟨_, rfl⟩ rfl
  obtain ⟨⟨h5, h6, h2⟩, h7, h8⟩ := eval_startBody (2 ^ d) (BitVec.ofNat 32 N) σ₀
  have hzero (v : Word) : readReg σ₀.x 0 + v = v := by
    rw [Rv32i.readReg_zero]
    exact BitVec.zero_add v
  rw [hτ, hzero] at h5 h6 h2 h8
  rw [hτ] at h7
  rw [Rv32i.shiftLeft_two] at h6 h2
  refine ⟨τ, hstart, hpc', Nat.zero_le N, h7, h8, ⟨h2, h5, h6, fun r hr => ?_, fun a _ => ?_⟩,
    fun j hj => absurd hj (Nat.not_lt_zero j)⟩
  · have hsub : Rv32i.dests (startBody (BitVec.ofNat 32 N)) ⊆ 2 :: 5 :: 6 :: scratch.regs := by
      show ([5, 6, 2, 7, 7, 8] : List (BitVec 5)) ⊆ _
      decide
    exact hregs r fun hm => hr (hsub hm)
  · rw [← hτ]
    exact congrFun (Rv32i.mem_evalBlock (by simp [startBody, Instr.isStore])) a

/-- It writes the pseudo-random array. -/
theorem fill_loop (h : Loaded imemDepth imem base (code (BitVec.ofNat 32 N))) (hd : d ≤ 30)
    (hN : N ≤ 2 ^ d) (k : Nat) :
    Rv32i.Triple imemDepth (2 ^ d) imem (Fill d N base σ₀ k) (Filled d N base σ₀) := by
  refine Machine.Triple.loop (fun k => N - k) (fun k => (fill_turn h hd hN k).post ?_) k
  rintro σ (hfilled | ⟨hk, hσ⟩)
  · exact .inl hfilled
  · exact .inr ⟨k + 1, by omega, hσ⟩

/-- From the filled array into the loop that sorts it. -/
theorem filled_turn (h : Loaded imemDepth imem base (code (BitVec.ofNat 32 N))) :
    Rv32i.Triple imemDepth (2 ^ d) imem (Filled d N base σ₀) (Outer d N base σ₀ 1) := by
  intro σ hσ
  obtain ⟨τ, hτ, hstep, hpc, hregs⟩ := @reaches_block imemDepth (2 ^ d) imem base _ σ h 19 hσ.pc
    [.addi 18 0 1] ⟨_, rfl⟩ rfl
  have hmem : τ.mem = σ.mem := by rw [← hτ]; exact Rv32i.mem_evalBlock (by decide)
  have hprefix : Prefix d N σ₀ 1 σ := by
    refine ⟨hσ.frame, fun a b hab hb => by omega, List.Perm.of_eq ?_⟩
    exact List.map_congr_left fun k hk => hσ.filled k (List.mem_range.mp hk)
  refine ⟨τ, hstep, hpc, by omega, by rw [← hτ]; rfl, hprefix.of_kept hmem fun r hr => ?_⟩
  exact hregs r fun hm => hr ((show Rv32i.dests _ ⊆ scratch.regs by decide) hm)

/-- From the sorted array into the loop that checks it. -/
theorem sorted_turn (h : Loaded imemDepth imem base (code (BitVec.ofNat 32 N))) :
    Rv32i.Triple imemDepth (2 ^ d) imem (Sorted d N base σ₀) (Verify d N base σ₀ 0) := by
  intro σ hσ
  obtain ⟨τ, hτ, hstep, hpc, hregs⟩ := @reaches_block imemDepth (2 ^ d) imem base _ σ h 39 hσ.pc
    [.addi 26 0 0, .addi 27 5 (-1)] ⟨_, rfl⟩ rfl
  have hmem : τ.mem = σ.mem := by rw [← hτ]; exact Rv32i.mem_evalBlock (by decide)
  have h27 : readReg τ.x 27 = readReg σ.x 5 + -1 := by rw [← hτ]; rfl
  rw [hσ.sorted.frame.x5] at h27
  refine ⟨τ, hstep, hpc, Nat.zero_le N, by rw [← hτ]; rfl, h27, hσ.sorted.of_kept hmem
    fun r hr => ?_⟩
  exact hregs r fun hm => hr ((show Rv32i.dests _ ⊆ scratch.regs by decide) hm)

/-- From the passed check to the exit syscall. -/
theorem pass_turn (h : Loaded imemDepth imem base (code (BitVec.ofNat 32 N))) :
    Rv32i.Triple imemDepth (2 ^ d) imem (Pass d N base σ₀) (Passes d N base σ₀) := by
  intro σ hσ
  obtain ⟨τ, hτ, hpass, hpc, hregs⟩ := @reaches_block imemDepth (2 ^ d) imem base _ σ h 49 hσ.pc
    [.addi 10 0 0] ⟨_, rfl⟩ rfl
  have hjump := @reaches_jal imemDepth (2 ^ d) imem base τ _ _ _ h 50 hpc .exit rfl
  have hmem : τ.mem = σ.mem := by rw [← hτ]; exact Rv32i.mem_evalBlock (by decide)
  have h10 : readReg τ.x 10 = 0 := by rw [← hτ]; rfl
  have hτsorted : Prefix d N σ₀ N τ := hσ.sorted.of_kept hmem
    fun r hr => hregs r fun hm => hr ((show Rv32i.dests _ ⊆ scratch.regs by decide) hm)
  obtain ⟨υ, hυ, hexit, hpc', hregs'⟩ := @reaches_block imemDepth (2 ^ d) imem base _
    { τ with pc := codeAddr base 52 } h 52 rfl [.op .add 2 2 6, .addi 17 0 93] ⟨_, rfl⟩ rfl
  have hmem' : υ.mem = τ.mem := by rw [← hυ]; exact Rv32i.mem_evalBlock (by decide)
  have hsp : readReg υ.x 2 = readReg τ.x 2 + readReg τ.x 6 := by rw [← hυ]; rfl
  have harr : arr d N σ₀ υ = arr d N σ₀ τ := by
    funext k
    rw [arr, arr, hmem']
  have hexits : Exits scratch d N σ₀ (codeAddr base 54) υ := by
    refine hτsorted.frame.exits hpc' ?_ (by rw [← hυ]; rfl) hsp (fun r hr => hregs' r fun hm => ?_)
      hmem'
    · exact (hregs' 10 (by decide)).trans h10
    · exact hr ((show Rv32i.dests _ ⊆ 2 :: scratch.regs by decide) hm)
  refine ⟨υ, (hpass.trans hjump).trans hexit, hexits, ?_, ?_⟩
  · rw [harr]
    exact hτsorted.sorted
  · rw [harr]
    exact hτsorted.perm

end Program

/-- **The sorting test passes.** Loaded at any address, with any contents of registers and
    memory and any place of the stack, the program gets to its exit syscall with status 0:
    the array on its stack is then the pseudo-random one in ascending order. Besides the
    array it has written no memory, and `sp` is back. -/
theorem insertion_sort_correct (imemDepth d N : Nat) (imem : Nat → Word) (base : Word)
    (σ₀ : State) (h : Loaded imemDepth imem base (code (BitVec.ofNat 32 N))) (hd : d ≤ 30)
    (hN : N ≤ 2 ^ d) (hpc : σ₀.pc = base) :
    ∃ n, Passes d N base σ₀ ((Rv32i.step imemDepth (2 ^ d) imem)^[n] σ₀) := by
  have hpc₀ : σ₀.pc = codeAddr base 0 := hpc.trans (BitVec.add_zero base).symm
  obtain ⟨σ₁, hstart, h₁⟩ := @start imemDepth d N imem base σ₀ h hpc₀
  have hrest := (fill_loop h hd hN 0).seq ((filled_turn h).seq ((outer_loop h hd hN 1).seq
    ((sorted_turn h).seq ((verify_loop h hd hN 0).seq (@pass_turn _ d _ _ _ σ₀ h)))))
  obtain ⟨σ₂, hrun, h₂⟩ := hrest σ₁ h₁
  obtain ⟨n, hn⟩ := hstart.trans hrun
  exact ⟨n, hn ▸ h₂⟩

/-- The test program, for 32 elements. -/
def image (a : Nat) : Word :=
  List.getD
    [ 0x02000293, 0x00229313, 0x40610133, 0x000033b7, 0x03938393, 0x00000413, 0x02545a63
    , 0x00d39493, 0x0093c3b3, 0x4113d493, 0x0093c3b3, 0x00539493, 0x0093c3b3, 0x3ff3f513
    , 0x00241593, 0x00b105b3, 0x00a5a023, 0x00140413, 0xfd1ff06f, 0x00100913, 0x04595663
    , 0x00291993, 0x01310a33, 0x000a2a83, 0xfff90b13, 0x020b4063, 0x002b1b93, 0x01710c33
    , 0x000c2c83, 0x019ad863, 0x019c2223, 0xfffb0b13, 0xfe5ff06f, 0x001b0b93, 0x002b9b93
    , 0x01710c33, 0x015c2023, 0x00190913, 0xfb9ff06f, 0x00000d13, 0xfff28d93, 0x03bd5063
    , 0x002d1e13, 0x01c10eb3, 0x000eaf03, 0x004eaf83, 0x01efca63, 0x001d0d13, 0xfe5ff06f
    , 0x00000513, 0x0080006f, 0x00100513, 0x00610133, 0x05d00893, 0x00000073 ] a 0

/-- Loaded at 0, with 32 elements. -/
theorem insertion_sort_correct_thirtyTwo :
    ∃ n, Passes 6 32 0 started ((Rv32i.step 64 64 image)^[n] started) :=
  insertion_sort_correct 64 6 32 image 0 started (Rv32i.loaded_of_forall_lt (by decide))
    (by decide) (by decide) rfl

end URiscV.Asm.InsertionSort
