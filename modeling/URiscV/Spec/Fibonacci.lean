import Mathlib.Data.Nat.Fib.Basic
import URiscV.Spec.StackArray

/-!
# The Fibonacci test

`test_gem5_fibonacci.s` leaves the first `N` Fibonacci numbers on its stack, as far as
words hold them. It does not check for `N < 2`, where its first stores are
beyond the array.

## Key results

- `fib_turn`: one number
- `fibonacci_correct`: the whole program
-/

namespace URiscV.Asm.Fibonacci

open Rv32i (Instr Loaded State Word codeAddr readReg reaches_block reaches_branch reaches_jal
  wordIndex)

/-- The Fibonacci numbers in words. -/
def fib (k : Nat) : Word := BitVec.ofNat 32 (Nat.fib k)

/-- The recursion, modulo `2 ^ 32`. -/
theorem fib_add (k : Nat) : fib k + fib (k + 1) = fib (k + 2) := by
  rw [fib, fib, fib, Nat.fib_add_two, BitVec.ofNat_add]

/-- The registers that the program writes, besides those of the stack. -/
def scratch : Scratch := ⟨[10, 11, 12, 13, 14, 15, 17], by decide⟩

section Program

variable {imemDepth d N : Nat} {imem : Nat → Word} {base : Word} {σ₀ : State}

/-- At `fib_loop`, with `k + 2` numbers written. -/
structure Loop (d N : Nat) (base : Word) (σ₀ : State) (k : Nat) (σ : State) : Prop where
  pc : σ.pc = codeAddr base 8
  k_le : k + 2 ≤ N
  x10 : readReg σ.x 10 = fib k
  x11 : readReg σ.x 11 = fib (k + 1)
  x12 : readReg σ.x 12 = BitVec.ofNat 32 (k + 2)
  frame : Frame scratch d N σ₀ σ
  stored : ∀ j < k + 2, arr d N σ₀ σ j = fib j

/-- At `fib_done`. -/
structure Done (d N : Nat) (base : Word) (σ₀ σ : State) : Prop where
  pc : σ.pc = codeAddr base 17
  frame : Frame scratch d N σ₀ σ
  stored : ∀ j < N, arr d N σ₀ σ j = fib j

/-- At the exit syscall, with the numbers on what was the stack. -/
structure Computes (d N : Nat) (base : Word) (σ₀ σ : State) : Prop where
  exits : Exits scratch d N σ₀ (codeAddr base 21) σ
  stored : ∀ j < N, arr d N σ₀ σ j = fib j

/-! ## The loop -/

/-- The body of the loop, up to the jump. -/
def loopBody : List Instr :=
  [ .op .add 13 10 11, .slli 14 12 2, .op .add 15 2 14, .sw 15 13 0, .addi 10 11 0, .addi 11 13 0
  , .addi 12 12 1 ]

/-- What one turn of the loop computes. -/
theorem eval_loopBody (depth : Nat) (σ : State) :
    let τ := Rv32i.evalBlock depth loopBody σ
    (readReg τ.x 10 = readReg σ.x 11 + 0 ∧
        readReg τ.x 11 = readReg σ.x 10 + readReg σ.x 11 + 0 ∧
        readReg τ.x 12 = readReg σ.x 12 + 1) ∧
      τ.mem = Function.update σ.mem (wordIndex depth (readReg σ.x 2 + readReg σ.x 12 <<< 2 + 0))
        (readReg σ.x 10 + readReg σ.x 11) := by
  simp +decide only [loopBody, Rv32i.evalBlock, List.foldl_cons, List.foldl_nil, Rv32i.eval,
    Rv32i.effect, Rv32i.Effect.apply, Rv32i.readReg_writeReg, Rv32i.IntOp.eval, ne_eq, if_true,
    if_false]
  exact ⟨trivial, rfl⟩

/-- **One number.** -/
theorem fib_turn (h : Loaded imemDepth imem base (code (BitVec.ofNat 32 N))) (hd : d ≤ 30)
    (hN : N ≤ 2 ^ d) (k : Nat) : Rv32i.Triple imemDepth (2 ^ d) imem (Loop d N base σ₀ k) fun σ =>
      Done d N base σ₀ σ ∨ (k + 2 < N ∧ Loop d N base σ₀ (k + 1) σ) := by
  intro σ hσ
  have hle : 2 ^ d ≤ 2 ^ 30 := Nat.pow_le_pow_right (by decide) hd
  have hk₂ := hσ.k_le
  have hhead : Rv32i.BranchOp.bge.taken (readReg σ.x 12) (readReg σ.x 5) = !decide (k + 2 < N) := by
    rw [hσ.x12, hσ.frame.x5]
    exact congrArg (!·) (Rv32i.slt_ofNat_ofNat (by omega) (by omega))
  have hbranch := @reaches_branch imemDepth (2 ^ d) imem base σ _ _ _ h 8 hσ.pc .bge 12 5
    .fib_done rfl
  rw [hhead] at hbranch
  -- the loop goes on, or is left
  by_cases hk : k + 2 < N
  · rw [decide_eq_true hk] at hbranch
    obtain ⟨τ, hτ, hbody, hpc, hregs⟩ := @reaches_block imemDepth (2 ^ d) imem base _
      { σ with pc := codeAddr base 9 } h 9 rfl loopBody ⟨_, rfl⟩ rfl
    have hjump := @reaches_jal imemDepth (2 ^ d) imem base τ _ _ _ h 16 hpc .fib_loop rfl
    obtain ⟨⟨h10, h11, h12⟩, hmem⟩ := eval_loopBody (2 ^ d) { σ with pc := codeAddr base 9 }
    rw [hτ] at h10 h11 h12 hmem
    rw [Rv32i.add_zero_imm] at h10 h11
    have hmem' : τ.mem = Function.update σ.mem (index d N σ₀ (k + 2)) (fib (k + 2)) := by
      rw [hmem, hσ.frame.x2, hσ.x12, hσ.x10, hσ.x11, Rv32i.shiftLeft_two, Rv32i.add_zero_imm,
        fib_add, index]
    have hframe : Frame scratch d N σ₀ τ := hσ.frame.of_kept
      (fun r hr => hregs r fun hm => hr ((show Rv32i.dests _ ⊆ scratch.regs by decide) hm))
      fun a ha => by rw [hmem', Function.update_of_ne (ha (k + 2) hk)]
    refine ⟨_, (hbranch.trans hbody).trans hjump,
      .inr ⟨hk, rfl, hk, h10.trans hσ.x11, ?_, ?_, hframe.jump, fun j hj => ?_⟩⟩
    · rw [← fib_add, ← hσ.x10, ← hσ.x11]
      exact h11
    · exact h12.trans ((congrArg (· + 1) hσ.x12).trans (Rv32i.ofNat_succ (k + 2)))
    · have hj' : arr d N σ₀ τ j = Function.update (arr d N σ₀ σ) (k + 2) (fib (k + 2)) j :=
        arr_update hd hN hk (by omega) hmem'
      -- an earlier number, or the new one
      rcases Nat.lt_succ_iff_lt_or_eq.mp hj with hj | rfl
      · exact hj'.trans ((Function.update_of_ne (Nat.ne_of_lt hj) _ _).trans (hσ.stored j hj))
      · exact hj'.trans (Function.update_self _ _ _)
  · rw [decide_eq_false hk] at hbranch
    exact ⟨_, hbranch, .inl ⟨rfl, hσ.frame.jump, fun j hj => hσ.stored j (by omega)⟩⟩

/-- The loop writes all numbers. -/
theorem fib_loop (h : Loaded imemDepth imem base (code (BitVec.ofNat 32 N))) (hd : d ≤ 30)
    (hN : N ≤ 2 ^ d) (k : Nat) :
    Rv32i.Triple imemDepth (2 ^ d) imem (Loop d N base σ₀ k) (Done d N base σ₀) := by
  refine Machine.Triple.loop (fun k => N - k) (fun k => (fib_turn h hd hN k).post ?_) k
  rintro σ (hdone | ⟨hk, hσ⟩)
  · exact .inl hdone
  · exact .inr ⟨k + 1, by omega, hσ⟩

/-! ## Start and end -/

/-- The start, up to the loop. -/
def startBody (N : Word) : List Instr :=
  [ .addi 5 0 N, .slli 6 5 2, .op .sub 2 2 6, .addi 10 0 0, .addi 11 0 1, .sw 2 10 0, .sw 2 11 4
  , .addi 12 0 2 ]

/-- What the instructions before the loop compute. -/
theorem eval_startBody (depth : Nat) (N : Word) (σ : State) :
    let τ := Rv32i.evalBlock depth (startBody N) σ
    let sp := readReg σ.x 2 - N <<< 2
    (readReg τ.x 5 = N ∧ readReg τ.x 6 = N <<< 2 ∧ readReg τ.x 2 = sp) ∧
      (readReg τ.x 10 = 0 ∧ readReg τ.x 11 = 1 ∧ readReg τ.x 12 = 2) ∧
      τ.mem = Function.update (Function.update σ.mem (wordIndex depth (sp + 0)) 0)
        (wordIndex depth (sp + 4)) 1 := by
  simp +decide only [startBody, Rv32i.evalBlock, List.foldl_cons, List.foldl_nil, Rv32i.eval,
    Rv32i.effect, Rv32i.Effect.apply, Rv32i.readReg_writeReg, Rv32i.readReg_zero, Rv32i.IntOp.eval,
    ne_eq, if_true, if_false]
  have hzero : (0 : Word) + N = N := BitVec.zero_add N
  rw [hzero]
  exact ⟨⟨rfl, rfl, rfl⟩, trivial, rfl⟩

theorem start (h : Loaded imemDepth imem base (code (BitVec.ofNat 32 N))) (hd : d ≤ 30)
    (hN₂ : 2 ≤ N) (hN : N ≤ 2 ^ d) (hpc : σ₀.pc = codeAddr base 0) : ∃ σ,
      Machine.Reaches (Rv32i.step imemDepth (2 ^ d) imem) σ₀ σ ∧ Loop d N base σ₀ 0 σ := by
  obtain ⟨τ, hτ, hstart, hpc', hregs⟩ := @reaches_block imemDepth (2 ^ d) imem base _ σ₀ h 0 hpc
    (startBody (BitVec.ofNat 32 N)) ⟨_, rfl⟩ rfl
  obtain ⟨⟨h5, h6, h2⟩, ⟨h10, h11, h12⟩, hmem⟩ := eval_startBody (2 ^ d) (BitVec.ofNat 32 N) σ₀
  rw [hτ] at h5 h6 h2 h10 h11 h12 hmem
  rw [Rv32i.shiftLeft_two] at h6 h2 hmem
  have hmem' : τ.mem =
      Function.update (Function.update σ₀.mem (index d N σ₀ 0) (fib 0)) (index d N σ₀ 1) (fib 1) :=
    hmem
  have hframe : Frame scratch d N σ₀ τ := by
    refine ⟨h2, h5, h6, fun r hr => hregs r fun hm => hr ?_, fun a ha => ?_⟩
    · have hsub : Rv32i.dests (startBody (BitVec.ofNat 32 N)) ⊆ 2 :: 5 :: 6 :: scratch.regs := by
        show ([5, 6, 2, 10, 11, 12] : List (BitVec 5)) ⊆ _
        decide
      exact hsub hm
    · rw [hmem', Function.update_of_ne (ha 1 (by omega)), Function.update_of_ne (ha 0 (by omega))]
  refine ⟨τ, hstart, hpc', hN₂, h10, h11, h12, hframe, fun j hj => ?_⟩
  -- the second store does not hit the first number
  have hne : index d N σ₀ 0 ≠ index d N σ₀ 1 := fun he =>
    absurd (index_inj hd hN (by omega) (by omega) he) (by decide)
  match j, hj with
  | 0, _ => rw [arr, hmem', Function.update_of_ne hne, Function.update_self]
  | 1, _ => rw [arr, hmem', Function.update_self]

/-- The way out. -/
theorem done_turn (h : Loaded imemDepth imem base (code (BitVec.ofNat 32 N))) :
    Rv32i.Triple imemDepth (2 ^ d) imem (Done d N base σ₀) (Computes d N base σ₀) := by
  intro σ hσ
  obtain ⟨τ, hτ, hexit, hpc, hregs⟩ := @reaches_block imemDepth (2 ^ d) imem base _ σ h 17 hσ.pc
    [.addi 10 11 0, .op .add 2 2 6, .addi 17 0 93, .addi 10 0 0] ⟨_, rfl⟩ rfl
  have hmem : τ.mem = σ.mem := by rw [← hτ]; exact Rv32i.mem_evalBlock (by decide)
  have hsp : readReg τ.x 2 = readReg σ.x 2 + readReg σ.x 6 := by rw [← hτ]; rfl
  refine ⟨τ, hexit, ?_, fun j hj => ?_⟩
  · exact hσ.frame.exits hpc (by rw [← hτ]; rfl) (by rw [← hτ]; rfl) hsp
      (fun r hr => hregs r fun hm =>
        hr ((show Rv32i.dests _ ⊆ 2 :: scratch.regs by decide) hm)) hmem
  · rw [arr, hmem]
    exact hσ.stored j hj

end Program

/-- **The Fibonacci test computes the Fibonacci numbers.** Loaded at any address, for two
    numbers or more, with any contents of registers and memory and any place of the stack,
    the program gets to its exit syscall with status 0 and the numbers modulo `2 ^ 32` on
    what was its stack. It has written no other memory, and `sp` is back. -/
theorem fibonacci_correct (imemDepth d N : Nat) (imem : Nat → Word) (base : Word) (σ₀ : State)
    (h : Loaded imemDepth imem base (code (BitVec.ofNat 32 N))) (hd : d ≤ 30) (hN₂ : 2 ≤ N)
    (hN : N ≤ 2 ^ d) (hpc : σ₀.pc = base) :
    ∃ n, Computes d N base σ₀ ((Rv32i.step imemDepth (2 ^ d) imem)^[n] σ₀) := by
  have hpc₀ : σ₀.pc = codeAddr base 0 := hpc.trans (BitVec.add_zero base).symm
  obtain ⟨σ₁, hstart, h₁⟩ := start h hd hN₂ hN hpc₀
  obtain ⟨σ₂, hrun, h₂⟩ := ((fib_loop h hd hN 0).seq (done_turn h)) σ₁ h₁
  obtain ⟨n, hn⟩ := hstart.trans hrun
  exact ⟨n, hn ▸ h₂⟩

/-- The test program, for 20 numbers. -/
def image (a : Nat) : Word :=
  List.getD
    [ 0x01400293, 0x00229313, 0x40610133, 0x00000513, 0x00100593, 0x00a12023, 0x00b12223
    , 0x00200613, 0x02565263, 0x00b506b3, 0x00261713, 0x00e107b3, 0x00d7a023, 0x00058513
    , 0x00068593, 0x00160613, 0xfe1ff06f, 0x00058513, 0x00610133, 0x05d00893, 0x00000513
    , 0x00000073 ] a 0

/-- Loaded at 0, with 20 numbers. -/
theorem fibonacci_correct_twenty :
    ∃ n, Computes 5 20 0 started ((Rv32i.step 32 32 image)^[n] started) :=
  fibonacci_correct 32 5 20 image 0 started (Rv32i.loaded_of_forall_lt (by decide)) (by decide)
    (by decide) (by decide) rfl

end URiscV.Asm.Fibonacci
