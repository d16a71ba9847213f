import URiscV.Spec.FrontEnd

/-!
# What issues after a reset

`pc_r` and IF/ID are reset, `pc_prev` and the output of the instruction SRAM are
not: they follow `pc_r` at every edge, also while `rst_n` is low. After at least one
such edge both stand at address 0, and so does `pc_r`: the word at address 0 goes
into IF/ID twice before `pc_prev` reaches 4.

## Key results

- `Streaming.run`: a streaming fetch unit goes from one word to the next
- `issueStream_boot`: what issues after a reset
- `startUp_iff`: when that is the program, each word once
-/

namespace URiscV.Hdl.RvCpu

variable {imemDepth dmemDepth : Nat} {xs : Nat → Word} {s : RvCpu}

/-- No redirect and no stall in the first `n` cycles. -/
def Undisturbed (imemDepth dmemDepth : Nat) (xs : Nat → Word) (s : RvCpu) (n : Nat) : Prop :=
  ∀ k < n, (Clocked.run (RvCpu.next imemDepth dmemDepth) xs s k).pcSrc (xs k) = false ∧
    (Clocked.run (RvCpu.next imemDepth dmemDepth) xs s k).hazardFlag = false

instance (imemDepth dmemDepth : Nat) (xs : Nat → Word) (s : RvCpu) (n : Nat) :
    Decidable (Undisturbed imemDepth dmemDepth xs s n) :=
  inferInstanceAs (Decidable (∀ k < n, _ ∧ _))

/-- A shorter run is undisturbed, too. -/
theorem Undisturbed.of_le {m n : Nat} (h : Undisturbed imemDepth dmemDepth xs s n) (hm : m ≤ n) :
    Undisturbed imemDepth dmemDepth xs s m :=
  fun k hk => h k (Nat.lt_of_lt_of_le hk hm)

/-- The rest of an undisturbed run. -/
theorem Undisturbed.drop {m n : Nat} (h : Undisturbed imemDepth dmemDepth xs s (m + n)) :
    Undisturbed imemDepth dmemDepth (fun k => xs (m + k))
      (Clocked.run (RvCpu.next imemDepth dmemDepth) xs s m) n := by
  intro k hk
  rw [← Clocked.run_add]
  exact h (m + k) (by omega)

/-! ## Streaming -/

/-- The sequence starts at its own address. -/
theorem seqAddr_zero (a : Word) : seqAddr a 0 = a := by simp [seqAddr]

/-- And goes on by four bytes. -/
theorem seqAddr_succ (a : Word) (j : Nat) : seqAddr a (j + 1) = seqAddr a j + 4 := by
  rw [seqAddr, seqAddr, BitVec.add_assoc]
  congr 1
  apply BitVec.eq_of_toNat_eq
  simp; omega

/-- A streaming fetch unit goes from one word to the next. -/
theorem Streaming.run {a : Word} (h : Streaming imemDepth s a) (n : Nat)
    (hn : Undisturbed imemDepth dmemDepth xs s n) :
    Streaming imemDepth (Clocked.run (RvCpu.next imemDepth dmemDepth) xs s n) (seqAddr a n) := by
  induction n with
  | zero => rw [seqAddr_zero]; exact h
  | succ n ih =>
    obtain ⟨hp, hz⟩ := hn n (Nat.lt_succ_self n)
    rw [Clocked.run_succ, seqAddr_succ]
    exact (ih (hn.of_le (Nat.le_succ n))).next hp hz

/-! ## The fetch unit after a reset -/

/-- The addresses that issue after a reset: the first one twice. -/
def bootAddr : Nat → Word
  | 0 => 0
  | j + 1 => seqAddr 0 j

section Boot

variable {imem dmem : Nat → Word}

/-- Two edges after a reset the fetch unit streams from address 0. -/
theorem streaming_boot (h : Undisturbed imemDepth dmemDepth xs (boot imem dmem) 2) :
    Streaming imemDepth (Clocked.run (RvCpu.next imemDepth dmemDepth) xs (boot imem dmem) 2) 0 := by
  obtain ⟨hp, hz⟩ := h 1 (by omega)
  -- at the first edge only `pc_r` gets ahead
  obtain ⟨e1, e2, e3, e4, e5, e6⟩ :=
    @next_front_of_ctrl_zero imemDepth dmemDepth (xs 0) (boot imem dmem) rfl
  rw [Clocked.run_succ, Clocked.run_zero] at hp hz
  rw [Clocked.run_succ, Clocked.run_succ, Clocked.run_zero]
  refine ⟨hp, ?_, ?_, ?_, ?_, ?_⟩
  · simp only [next_ifidPc, hz, e2]; rfl
  · rw [next_ifidI, hp, hz, e1, e4, wordAt_next, wordAt_next]; rfl
  · rw [next_pcPrev, e3]; rfl
  · rw [next_imemOut_of_not_pcSrc hp, e3, wordAt_next, wordAt_next]; rfl
  · simp only [next_pcR, hp, hz, e3]; rfl

/-- IF/ID `k + 1` edges after a reset. -/
theorem ifid_boot (k : Nat) (h : Undisturbed imemDepth dmemDepth xs (boot imem dmem) (k + 1)) :
    let t := Clocked.run (RvCpu.next imemDepth dmemDepth) xs (boot imem dmem) (k + 1)
    t.uIfu.ifidPc = bootAddr k ∧
      t.uIfu.ifidI = (boot imem dmem).wordAt imemDepth (bootAddr k) := by
  -- the first cycle fetches the word at 0, and from the second on the fetch unit streams
  cases k with
  | zero =>
    obtain ⟨-, -, -, -, hid, hi⟩ :=
      @next_front_of_ctrl_zero imemDepth dmemDepth (xs 0) (boot imem dmem) rfl
    refine ⟨hid, hi.trans ?_⟩
    simp [boot, wordAt, bootAddr, Sram.wordAddr]
  | succ j =>
    have h2 : Undisturbed imemDepth dmemDepth xs (boot imem dmem) (2 + j) :=
      h.of_le (by omega)
    have hst := (streaming_boot (h2.of_le (by omega))).run j h2.drop
    rw [← Clocked.run_add, Nat.add_comm 2 j] at hst
    exact ⟨hst.ifidPc, hst.ifidI.trans (wordAt_run xs _ _)⟩

/-- **What issues after a reset**: the reset value of IF/ID, the word at address 0,
    and then all words from address 0 on. -/
theorem issueStream_boot (n : Nat)
    (h : Undisturbed imemDepth dmemDepth xs (boot imem dmem) (n + 1)) :
    issueStream imemDepth dmemDepth xs (boot imem dmem) (n + 1) =
      (0, 0) :: (List.range n).map fun j =>
        (bootAddr j, (boot imem dmem).wordAt imemDepth (bootAddr j)) := by
  -- each undisturbed cycle issues what is in IF/ID
  induction n with
  | zero =>
    obtain ⟨hp, hz⟩ := h 0 (by omega)
    rw [Clocked.run_zero] at hp hz
    rw [issueStream_succ]
    simp only [Clocked.run_zero, issue, issues, hp, hz]
    rfl
  | succ n ih =>
    obtain ⟨hp, hz⟩ := h (n + 1) (by omega)
    obtain ⟨hid, hi⟩ := ifid_boot n (h.of_le (Nat.le_succ _))
    have hissue : (Clocked.run (RvCpu.next imemDepth dmemDepth) xs (boot imem dmem) (n + 1)).issue
        (xs (n + 1)) = [(bootAddr n, (boot imem dmem).wordAt imemDepth (bootAddr n))] := by
      simp only [issue, issues, hp, hz, hid, hi]
      rfl
    rw [issueStream_succ, ih (h.of_le (Nat.le_succ _)), hissue, List.range_succ, List.map_append]
    rfl

end Boot

/-- **Start-up.** Take any state `s` (any program), a reset of `k + 1` edges, and
    `n + 1` cycles after it without redirect and stall. The first of them holds the
    reset value of IF/ID, no instruction. What issues behind it is the program from
    address 0 on, each word once, only while there is no room for a second one. -/
theorem startUp_iff (xs₀ xs : Nat → Word) (s : RvCpu) (k n : Nat)
    (h : Undisturbed imemDepth dmemDepth xs (resetFor imemDepth dmemDepth xs₀ s k) (n + 1)) :
    streamAfter imemDepth dmemDepth xs₀ xs s k (n + 1) =
      (0, 0) :: (List.range n).map (fun j =>
        (seqAddr 0 j, s.wordAt imemDepth (seqAddr 0 j))) ↔
    n ≤ 1 := by
  have hboot : resetFor imemDepth dmemDepth xs₀ s k =
      boot s.uIfu.uImem.memory s.uMemu.uDmem.memory := run_reset _ _ _
  rw [hboot] at h
  rw [streamAfter, hboot, issueStream_boot n h, List.cons_inj_right, List.map_inj_left]
  constructor
  · intro hall
    by_contra hn
    -- the second word that issues is the one at address 0 again
    have hsecond : bootAddr 1 = seqAddr 0 1 :=
      congrArg Prod.fst (hall 1 (List.mem_range.mpr (by omega)))
    exact absurd hsecond (by decide)
  · intro hn j hj
    obtain rfl : j = 0 := by rw [List.mem_range] at hj; omega
    rfl

/-- An increment, and nops behind it. -/
def startUpProgram (a : Nat) : Word :=
  match a with
  | 0 => 0x00108093 -- addi x1, x1, 1
  | _ => 0x00000013 -- nop

/-- The first two cycles after a reset of three edges. -/
theorem startUp_two_cycles :
    streamAfter 4 4 (fun _ => 0) (fun _ => 0) (boot startUpProgram fun _ => 0) 2 2 =
      (0, 0) :: (List.range 1).map (fun j =>
        (seqAddr 0 j, (boot startUpProgram fun _ => 0).wordAt 4 (seqAddr 0 j))) :=
  (startUp_iff (fun _ => 0) (fun _ => 0) (boot startUpProgram fun _ => 0) 2 1 (by decide)).mpr
    (Nat.le_refl 1)

/-- In the third cycle the increment issues again. -/
theorem not_startUp_three_cycles :
    Undisturbed 4 4 (fun _ => 0)
      (resetFor 4 4 (fun _ => 0) (boot startUpProgram fun _ => 0) 2) 3 ∧
    streamAfter 4 4 (fun _ => 0) (fun _ => 0) (boot startUpProgram fun _ => 0) 2 3 ≠
      (0, 0) :: (List.range 2).map (fun j =>
        (seqAddr 0 j, (boot startUpProgram fun _ => 0).wordAt 4 (seqAddr 0 j))) :=
  ⟨by decide, by decide⟩

end URiscV.Hdl.RvCpu
