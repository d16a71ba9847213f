import URiscV.Spec.BackEnd

/-!
# The fetch unit

`pc_r`, `pc_prev`, the synchronous instruction SRAM and IF/ID advance together
only when nothing stalls: during a load-use stall `pc_r` and IF/ID hold while
`pc_prev` and the SRAM output keep advancing. `FetchPhase` lists the shapes these
registers can have in a state reached from reset, and `FetchPhase.next` how one
shape follows another.

## Key results

- `frontInv_of_reachable`: every reachable state is in one of the phases
- `issueStream_after_stall`: what issues after a load-use stall
- `issueStream_eq_seq_iff`: when that is what should issue
-/

namespace URiscV.Hdl.RvCpu

/-! ## Fetch phases -/

/-- The instruction-memory word at a byte address. -/
def wordAt (imemDepth : Nat) (s : RvCpu) (a : Word) : Word :=
  s.uIfu.uImem.memory (Sram.wordAddr imemDepth 32 a)

/-- The shapes of the fetch registers.

    * `boot`: after reset, address 0 in every stage and IF/ID empty;
    * `seq`: IF/ID and the SRAM output hold the words of their addresses, and the
      word behind IF/ID is the next one, or (`repeats`) the same one again;
    * `held`: after a stall, `pc_prev` has caught up with `pc_r` and the word
      behind IF/ID is two (or, after a repeat, one) further on;
    * `redirected`, `refetch`: the two cycles behind a redirect. -/
inductive FetchPhase (imemDepth : Nat) (s : RvCpu) : Prop
  | boot (hd1 : s.uIfu.pcSrcD1 = false) (hi : s.uIfu.ifidI = 0)
      (hprev : s.uIfu.pcPrev = 0) (hpc : s.uIfu.pcR = 0)
      (hout : s.uIfu.uImem.dataOut = s.wordAt imemDepth 0) (hctrl : s.uIdu.idex.ctrl = {})
  | seq (hd1 : s.uIfu.pcSrcD1 = false) (hi : s.uIfu.ifidI = s.wordAt imemDepth s.uIfu.ifidPc)
      (hout : s.uIfu.uImem.dataOut = s.wordAt imemDepth s.uIfu.pcPrev)
      (hpc : s.uIfu.pcR = s.uIfu.pcPrev + 4)
      (hnext : s.uIfu.pcPrev = s.uIfu.ifidPc + 4 ∨ s.uIfu.pcPrev = s.uIfu.ifidPc)
  | held (hd1 : s.uIfu.pcSrcD1 = false) (hi : s.uIfu.ifidI = s.wordAt imemDepth s.uIfu.ifidPc)
      (hout : s.uIfu.uImem.dataOut = s.wordAt imemDepth s.uIfu.pcPrev)
      (hpc : s.uIfu.pcR = s.uIfu.pcPrev)
      (hnext : s.uIfu.pcPrev = s.uIfu.ifidPc + 8 ∨ s.uIfu.pcPrev = s.uIfu.ifidPc + 4)
      (hctrl : s.uIdu.idex.ctrl = {})
  | redirected (hd1 : s.uIfu.pcSrcD1 = true) (hi : s.uIfu.ifidI = 0)
      (hctrl : s.uIdu.idex.ctrl = {})
  | refetch (hd1 : s.uIfu.pcSrcD1 = false) (hi : s.uIfu.ifidI = 0)
      (hout : s.uIfu.uImem.dataOut = s.wordAt imemDepth s.uIfu.pcPrev)
      (hpc : s.uIfu.pcR = s.uIfu.pcPrev + 4) (hctrl : s.uIdu.idex.ctrl = {})

/-- Front-end invariant: a fetch phase, and control bits from the decoder. -/
structure FrontInv (imemDepth : Nat) (s : RvCpu) : Prop where
  ctrl : CtrlOk s.uIdu.idex.ctrl
  phase : FetchPhase imemDepth s

section Step

variable {imemDepth dmemDepth : Nat} {x : Word} {s : RvCpu}

/-- The program does not change. -/
@[simp] theorem wordAt_next (a : Word) :
    (s.next imemDepth dmemDepth x).wordAt imemDepth a = s.wordAt imemDepth a := by
  simp [wordAt]

/-- No edge changes the program. -/
theorem wordAt_run (xs : Nat → Word) (n : Nat) (a : Word) :
    (Clocked.run (RvCpu.next imemDepth dmemDepth) xs s n).wordAt imemDepth a =
      s.wordAt imemDepth a :=
  Clocked.run_invariant (P := fun s' : RvCpu => s'.wordAt imemDepth a = s.wordAt imemDepth a)
    rfl (fun _ _ h => by rw [wordAt_next, h]) n

/-- The word at the pc comes out of the instruction memory. -/
theorem next_imemOut_of_not_pcSrc (h : s.pcSrc x = false) :
    (s.next imemDepth dmemDepth x).uIfu.uImem.dataOut = s.wordAt imemDepth s.uIfu.pcR := by
  simp [next_imemOut, h, wordAt]

/-- A bubble in EX stalls nothing. -/
theorem hazardFlag_of_ctrl_zero (hc : s.uIdu.idex.ctrl = {}) : s.hazardFlag = false :=
  hazardFlag_eq_false (by rw [hc])

/-- Behind an empty slot the instruction in IF/ID issues. -/
theorem issues_of_ctrl_zero (hc : s.uIdu.idex.ctrl = {}) : s.issues x = true := by
  rw [issues, pcSrc_of_ctrl_zero hc, hazardFlag_of_ctrl_zero hc]
  rfl

/-- The decoder leaves the all-zero word without control bits. -/
theorem next_ctrl_of_ifidI_zero (hi : s.uIfu.ifidI = 0) :
    (s.next imemDepth dmemDepth x).uIdu.idex.ctrl = {} := by
  rw [next_idex]
  split
  · rfl
  · split
    · rfl
    · simp only [idexDin, RvIdu.decode, hi]
      rfl

/-- The invariant holds behind a reset. -/
theorem frontInv_boot (imem dmem : Nat → Word) : FrontInv imemDepth (boot imem dmem) := by
  refine ⟨ctrlOk_zero, .boot rfl rfl rfl rfl ?_ rfl⟩
  simp [wordAt, boot, Sram.wordAddr]

/-- A phase whose ID/EX slot is empty has neither stall nor redirect, and an edge
    moves every fetch register on. -/
theorem next_front_of_ctrl_zero (hc : s.uIdu.idex.ctrl = {}) :
    let s' := s.next imemDepth dmemDepth x
    s'.uIfu.pcSrcD1 = false ∧ s'.uIfu.pcPrev = s.uIfu.pcR ∧ s'.uIfu.pcR = s.uIfu.pcR + 4 ∧
      s'.uIfu.uImem.dataOut = s.wordAt imemDepth s.uIfu.pcR ∧
      s'.uIfu.ifidPc = s.uIfu.pcPrev ∧
      s'.uIfu.ifidI = if s.uIfu.pcSrcD1 then 0 else s.uIfu.uImem.dataOut := by
  have hp : s.pcSrc x = false := pcSrc_of_ctrl_zero hc
  have hz := hazardFlag_of_ctrl_zero hc
  refine ⟨hp, rfl, ?_, next_imemOut_of_not_pcSrc hp, ?_, ?_⟩
  · simp [next_pcR, hp, hz]
  · simp [next_ifidPc, hz]
  · simp [next_ifidI, hp, hz]

/-- One edge of the fetch unit: which phase follows which. -/
theorem FetchPhase.next (h : FetchPhase imemDepth s) :
    FetchPhase imemDepth (s.next imemDepth dmemDepth x) := by
  cases h with
  | boot hd1 hi hprev hpc hout hctrl =>
    -- `pc_prev` and `pc_r` are both 0, so the word at address 0 comes twice
    -- `pc_prev` has not moved yet, so the word at address 0 is fetched again
    obtain ⟨e1, e2, e3, e4, e5, e6⟩ := @next_front_of_ctrl_zero imemDepth dmemDepth x s hctrl
    refine .seq e1 ?_ ?_ ?_ (.inr ?_)
    · rw [e6, hd1, e5, hprev, wordAt_next]; simpa using hout
    · rw [e4, e2, wordAt_next]
    · rw [e3, e2]
    · rw [e2, e5, hprev, hpc]
  | seq hd1 hi hout hpc hnext =>
    cases hp : s.pcSrc x with
    | true =>
      -- both flushes are due: IF/ID now, and once more in the next cycle
      -- both flushes are due: IF/ID now, and once more in the next cycle
      have hctrl : (s.next imemDepth dmemDepth x).uIdu.idex.ctrl = {} :=
        next_ctrl_of_not_issues (by simp [issues, hp])
      exact .redirected hp (by simp [next_ifidI, hp]) hctrl
    | false =>
      cases hz : s.hazardFlag with
      | true =>
        -- a load-use stall: IF/ID and `pc_r` hold, the SRAM output does not
        -- a load-use stall: IF/ID and `pc_r` hold, the SRAM output does not
        have hctrl : (s.next imemDepth dmemDepth x).uIdu.idex.ctrl = {} :=
          next_ctrl_of_not_issues (by simp [issues, hz])
        have hpc' : (s.next imemDepth dmemDepth x).uIfu.ifidPc = s.uIfu.ifidPc := by
          simp [next_ifidPc, hz]
        refine .held hp ?_ ?_ ?_ ?_ hctrl
        · rw [next_ifidI, hp, hd1, hz, hpc', wordAt_next]; simpa using hi
        · rw [next_imemOut_of_not_pcSrc hp, wordAt_next, next_pcPrev]
        · simp [next_pcR, hz]
        · rw [next_pcPrev, hpc', hpc]
          rcases hnext with h | h <;> rw [h]
          · exact .inl (by rw [BitVec.add_assoc]; rfl)
          · exact .inr rfl
      | false =>
        have hpc' : (s.next imemDepth dmemDepth x).uIfu.ifidPc = s.uIfu.pcPrev := by
          simp [next_ifidPc, hz]
        refine .seq hp ?_ ?_ ?_ (.inl ?_)
        · rw [next_ifidI, hp, hd1, hz, hpc', wordAt_next]; simpa using hout
        · rw [next_imemOut_of_not_pcSrc hp, wordAt_next, next_pcPrev]
        · simp [next_pcR, hz, hp]
        · rw [next_pcPrev, hpc', hpc]
  | held hd1 hi hout hpc hnext hctrl =>
    obtain ⟨e1, e2, e3, e4, e5, e6⟩ := @next_front_of_ctrl_zero imemDepth dmemDepth x s hctrl
    refine .seq e1 ?_ ?_ ?_ (.inr ?_)
    · rw [e6, hd1, e5, wordAt_next]; simpa using hout
    · rw [e4, e2, wordAt_next]
    · rw [e3, e2]
    · rw [e2, e5, hpc]
  | redirected hd1 hi hctrl =>
    obtain ⟨e1, e2, e3, e4, e5, e6⟩ := @next_front_of_ctrl_zero imemDepth dmemDepth x s hctrl
    -- the delayed flush empties IF/ID while the SRAM reads the target
    -- the delayed flush empties IF/ID while the SRAM reads the target
    refine .refetch e1 ?_ ?_ ?_ (next_ctrl_of_ifidI_zero hi)
    · rw [e6, hd1]; rfl
    · rw [e4, e2, wordAt_next]
    · rw [e3, e2]
  | refetch hd1 hi hout hpc hctrl =>
    obtain ⟨e1, e2, e3, e4, e5, e6⟩ := @next_front_of_ctrl_zero imemDepth dmemDepth x s hctrl
    refine .seq e1 ?_ ?_ ?_ (.inl ?_)
    · rw [e6, hd1, e5, wordAt_next]; simpa using hout
    · rw [e4, e2, wordAt_next]
    · rw [e3, e2]
    · rw [e2, e5, hpc]

/-- One cycle keeps it. -/
theorem FrontInv.next (h : FrontInv imemDepth s) :
    FrontInv imemDepth (s.next imemDepth dmemDepth x) :=
  ⟨next_ctrlOk, h.phase.next⟩

end Step

/-! ## Reachable states -/

/-- States reached from a reset of at least one clock edge, whatever the state
    before it and whatever `rst_n` does after it. -/
inductive Reachable (imemDepth dmemDepth : Nat) : RvCpu → Prop
  | reset (x : Word) (s : RvCpu) : Reachable imemDepth dmemDepth (s.clk imemDepth dmemDepth false x)
  | clk (rstN : Bool) (x : Word) {s : RvCpu} (h : Reachable imemDepth dmemDepth s) :
      Reachable imemDepth dmemDepth (s.clk imemDepth dmemDepth rstN x)

variable {imemDepth dmemDepth : Nat} {s : RvCpu}

/-- Behind a reset all states of a run are reachable. -/
theorem reachable_after (xs₀ xs : Nat → Word) (s : RvCpu) (k n : Nat) :
    Reachable imemDepth dmemDepth (after imemDepth dmemDepth xs₀ xs s k n) :=
  Clocked.run_invariant (.reset _ _) (fun x _ h => .clk true x h) n

/-- It holds in all of them. -/
theorem frontInv_of_reachable (h : Reachable imemDepth dmemDepth s) : FrontInv imemDepth s := by
  induction h with
  | reset x s => rw [clk_reset]; exact frontInv_boot _ _
  | clk rstN x _ ih =>
    cases rstN with
    | false => rw [clk_reset]; exact frontInv_boot _ _
    | true => exact ih.next

/-- When a stall is raised, IF/ID, the SRAM output and `pc_r` are in sequence. -/
theorem FrontInv.of_hazardFlag (h : FrontInv imemDepth s) (hz : s.hazardFlag = true) :
    s.uIfu.pcSrcD1 = false ∧ s.uIfu.ifidI = s.wordAt imemDepth s.uIfu.ifidPc ∧
      s.uIfu.uImem.dataOut = s.wordAt imemDepth s.uIfu.pcPrev ∧
      s.uIfu.pcR = s.uIfu.pcPrev + 4 ∧
      (s.uIfu.pcPrev = s.uIfu.ifidPc + 4 ∨ s.uIfu.pcPrev = s.uIfu.ifidPc) := by
  -- a stall needs a load in ID/EX, which only the streaming phase has
  -- a stall needs a load in ID/EX, which only the streaming phase has
  have hne : s.uIdu.idex.ctrl ≠ {} := fun hc => by
    rw [hazardFlag_of_ctrl_zero hc] at hz; cases hz
  cases h.phase with
  | seq hd1 hi hout hpc hnext => exact ⟨hd1, hi, hout, hpc, hnext⟩
  | boot _ _ _ _ _ hc | held _ _ _ _ _ hc | redirected _ _ hc | refetch _ _ _ _ hc =>
    exact absurd hc hne

/-! ## Streaming

Without stalls and redirects the fetch unit delivers one word after the other. -/

/-- IF/ID holds the word at `a`, the SRAM output the next one and `pc_r` the
    address after that. -/
structure Streaming (imemDepth : Nat) (s : RvCpu) (a : Word) : Prop where
  d1 : s.uIfu.pcSrcD1 = false
  ifidPc : s.uIfu.ifidPc = a
  ifidI : s.uIfu.ifidI = s.wordAt imemDepth a
  pcPrev : s.uIfu.pcPrev = a + 4
  imemOut : s.uIfu.uImem.dataOut = s.wordAt imemDepth (a + 4)
  pcR : s.uIfu.pcR = a + 8

/-- The pc goes up by fours. -/
theorem add_four_add_four (a : Word) : a + 4 + 4 = a + 8 := by rw [BitVec.add_assoc]; rfl

/-- In either order. -/
theorem add_four_add_eight (a : Word) : a + 4 + 8 = a + 8 + 4 := by
  rw [BitVec.add_assoc, BitVec.add_assoc]; rfl

/-- Without stall and redirect the next word follows. -/
theorem Streaming.next {x a : Word} (h : Streaming imemDepth s a) (hp : s.pcSrc x = false)
    (hz : s.hazardFlag = false) : Streaming imemDepth (s.next imemDepth dmemDepth x) (a + 4) where
  d1 := hp
  ifidPc := by simp [next_ifidPc, hz, h.pcPrev]
  ifidI := by rw [next_ifidI, hp, hz, h.d1, wordAt_next]; simpa using h.imemOut
  pcPrev := by rw [next_pcPrev, h.pcR, add_four_add_four]
  imemOut := by
    rw [next_imemOut_of_not_pcSrc hp, h.pcR, wordAt_next, add_four_add_four]
  pcR := by simp only [next_pcR, hp, hz, h.pcR, add_four_add_eight]; rfl

/-! ## After a load-use stall -/

/-- The addresses that issue after a stall of the instruction at `p`: the word
    behind it is lost and the one at `q` issues twice. -/
def stallAddr (p q : Word) : Nat → Word
  | 0 => p
  | 1 => q
  | j + 2 => q + BitVec.ofNat 32 (4 * j)

/-- The addresses that should issue: `p`, `p + 4`, `p + 8`, … -/
def seqAddr (p : Word) (j : Nat) : Word := p + BitVec.ofNat 32 (4 * j)

/-- The fetch registers `k + 1` cycles after the stall. -/
theorem run_after_stall {xs : Nat → Word} (h : FrontInv imemDepth s) (hz : s.hazardFlag = true)
    (n : Nat)
    (hsrc : ∀ k < n, (Clocked.run (next imemDepth dmemDepth) xs s k).pcSrc (xs k) = false)
    (hstall : ∀ k < n, 0 < k →
      (Clocked.run (next imemDepth dmemDepth) xs s k).hazardFlag = false) :
    ∀ k, k + 1 < n →
      let t := Clocked.run (next imemDepth dmemDepth) xs s (k + 1)
      let q := s.uIfu.pcPrev + 4
      t.uIfu.pcSrcD1 = false ∧
      t.uIfu.ifidPc = stallAddr s.uIfu.ifidPc q k ∧
      t.uIfu.ifidI = s.wordAt imemDepth (stallAddr s.uIfu.ifidPc q k) ∧
      t.uIfu.pcPrev = stallAddr s.uIfu.ifidPc q (k + 1) ∧
      t.uIfu.uImem.dataOut = s.wordAt imemDepth (stallAddr s.uIfu.ifidPc q (k + 1)) ∧
      t.uIfu.pcR = stallAddr s.uIfu.ifidPc q (k + 2) := by
  obtain ⟨hd1, hi, hout, hpc, -⟩ := h.of_hazardFlag hz
  intro k hk
  induction k with
  | zero =>
    -- the stalled edge: IF/ID and `pc_r` hold, `pc_prev` and the SRAM move on
    have hp : s.pcSrc (xs 0) = false := hsrc 0 (by omega)
    refine ⟨hp, ?_, ?_, ?_, ?_, ?_⟩
    · rw [Clocked.run_succ, Clocked.run_zero]; simp [next_ifidPc, hz, stallAddr]
    · rw [Clocked.run_succ, Clocked.run_zero, next_ifidI, hp, hd1, hz]; simpa [stallAddr] using hi
    · rw [Clocked.run_succ, Clocked.run_zero, next_pcPrev, hpc]; rfl
    · rw [Clocked.run_succ, Clocked.run_zero, next_imemOut_of_not_pcSrc hp, hpc]; rfl
    · rw [Clocked.run_succ, Clocked.run_zero]
      simp [next_pcR, hz, hpc, stallAddr]
  | succ k ih =>
    obtain ⟨i1, i2, i3, i4, i5, i6⟩ := ih (by omega)
    have hp := hsrc (k + 1) (by omega)
    have hz' := hstall (k + 1) (by omega) (by omega)
    rw [Clocked.run_succ]
    refine ⟨hp, ?_, ?_, ?_, ?_, ?_⟩
    · simp only [next_ifidPc, hz', i4]; rfl
    · rw [next_ifidI, hp, i1, hz']; simpa using i5
    · rw [next_pcPrev, i6]
    · rw [next_imemOut_of_not_pcSrc hp, wordAt_run, i6]
    · simp only [next_pcR, hp, hz', i6]
      simp only [stallAddr, Bool.false_eq_true, if_false]
      rw [BitVec.add_assoc]
      congr 1
      apply BitVec.eq_of_toNat_eq
      simp; omega

/-- **What issues after a stall.** From the cycle of the stall on, one element a
    cycle: the stalled one, then `q = pc_prev + 4` twice, then on from there. -/
theorem issueStream_after_stall {xs : Nat → Word} (h : FrontInv imemDepth s)
    (hz : s.hazardFlag = true) (n : Nat)
    (hsrc : ∀ k < n, (Clocked.run (next imemDepth dmemDepth) xs s k).pcSrc (xs k) = false)
    (hstall : ∀ k < n, 0 < k →
      (Clocked.run (next imemDepth dmemDepth) xs s k).hazardFlag = false) :
    issueStream imemDepth dmemDepth xs s n =
      (List.range (n - 1)).map fun j =>
        (stallAddr s.uIfu.ifidPc (s.uIfu.pcPrev + 4) j,
          s.wordAt imemDepth (stallAddr s.uIfu.ifidPc (s.uIfu.pcPrev + 4) j)) := by
  induction n with
  | zero => rfl
  | succ n ih =>
    rw [issueStream_succ, ih (fun k hk => hsrc k (by omega)) fun k hk => hstall k (by omega)]
    cases n with
    | zero =>
      -- nothing issues in the cycle of the stall
      simp [issue, issues, hz]
    | succ n =>
      obtain ⟨-, e2, e3, -⟩ := run_after_stall h hz (n + 2) hsrc hstall n (by omega)
      have hi : (Clocked.run (next imemDepth dmemDepth) xs s (n + 1)).issue (xs (n + 1)) =
          [(stallAddr s.uIfu.ifidPc (s.uIfu.pcPrev + 4) n,
            s.wordAt imemDepth (stallAddr s.uIfu.ifidPc (s.uIfu.pcPrev + 4) n))] := by
        simp only [issue, issues, hsrc (n + 1) (by omega), hstall (n + 1) (by omega) (by omega),
          e2, e3]
        rfl
      rw [hi]
      simp [List.range_succ]

/-- Consecutive words of a memory of at least two words are different words of
    it. -/
theorem wordAddr_add_four_ne (hd : 2 ≤ imemDepth) (a : Word) :
    Sram.wordAddr imemDepth 32 (a + 4) ≠ Sram.wordAddr imemDepth 32 a := by
  have hpos : 1 ≤ clog2 imemDepth := Nat.clog_pos (by omega) hd
  have hdvd : 2 ∣ 2 ^ clog2 imemDepth := Nat.pow_dvd_pow 2 hpos
  intro heq
  -- compare the two word addresses modulo two
  have hmod := congrArg (· % 2) heq
  simp only [Sram.wordAddr_eq, Nat.mod_mod_of_dvd _ hdvd, BitVec.toNat_add] at hmod
  have := a.isLt
  have h4 : (4 : Word).toNat = 4 := rfl
  rw [h4] at hmod
  omega

/-- A load-use stall of the instruction at `p = ifid_pc`, and the `n` cycles from
    it on with no redirect and no further stall: what issues is `p`, `p + 4`,
    `p + 8`, … as addresses of the instruction memory, each with its word, only
    while the run is too short to show the lost word. -/
theorem issueStream_eq_seq_iff {xs : Nat → Word} (hr : Reachable imemDepth dmemDepth s)
    (hz : s.hazardFlag = true) (n : Nat)
    (hsrc : ∀ k < n, (Clocked.run (next imemDepth dmemDepth) xs s k).pcSrc (xs k) = false)
    (hstall : ∀ k < n, 0 < k →
      (Clocked.run (next imemDepth dmemDepth) xs s k).hazardFlag = false) :
    (issueStream imemDepth dmemDepth xs s n).map
        (fun e => (Sram.wordAddr imemDepth 32 e.1, e.2)) =
      (List.range (n - 1)).map (fun j =>
        (Sram.wordAddr imemDepth 32 (seqAddr s.uIfu.ifidPc j),
          s.wordAt imemDepth (seqAddr s.uIfu.ifidPc j))) ↔
    n ≤ 2 ∨ (n = 3 ∧ s.uIfu.pcPrev = s.uIfu.ifidPc) ∨ imemDepth ≤ 1 := by
  have h := frontInv_of_reachable hr
  obtain ⟨-, -, -, -, hnext⟩ := h.of_hazardFlag hz
  rw [issueStream_after_stall h hz n hsrc hstall, List.map_map, List.map_inj_left]
  simp only [List.mem_range, Function.comp_apply, Prod.mk.injEq, wordAt]
  generalize hp : s.uIfu.ifidPc = p at hnext
  generalize hq : s.uIfu.pcPrev = q at hnext
  -- the words follow from the word addresses
  have hwords : (∀ j, j < n - 1 →
      Sram.wordAddr imemDepth 32 (stallAddr p (q + 4) j) =
          Sram.wordAddr imemDepth 32 (seqAddr p j) ∧
        s.uIfu.uImem.memory (Sram.wordAddr imemDepth 32 (stallAddr p (q + 4) j)) =
          s.uIfu.uImem.memory (Sram.wordAddr imemDepth 32 (seqAddr p j))) ↔
      ∀ j, j < n - 1 → Sram.wordAddr imemDepth 32 (stallAddr p (q + 4) j) =
          Sram.wordAddr imemDepth 32 (seqAddr p j) :=
    ⟨fun h j hj => (h j hj).1, fun h j hj => ⟨h j hj, by rw [h j hj]⟩⟩
  rw [hwords]
  have h0 : seqAddr p 0 = p := by simp [seqAddr]
  have h1 : seqAddr p 1 = p + 4 := rfl
  have h2 : seqAddr p 2 = p + 4 + 4 := (add_four_add_four p).symm
  constructor
  · intro heq
    by_contra hn
    simp only [not_or, not_and, Nat.not_le] at hn
    obtain ⟨hn2, hn3, hdepth⟩ := hn
    have e1 : Sram.wordAddr imemDepth 32 (q + 4) = Sram.wordAddr imemDepth 32 (p + 4) := by
      have := heq 1 (by omega)
      rwa [h1] at this
    rcases hnext with rfl | rfl
    · -- the word behind the stalled one is lost
      exact wordAddr_add_four_ne (by omega) _ e1
    · -- a repeat: the word after next is lost
      have hn4 : 4 ≤ n := by
        have := mt hn3 (by simp)
        omega
      have e2 := heq 2 (by omega)
      rw [h2] at e2
      simp only [stallAddr, Nat.mul_zero, BitVec.add_zero] at e2
      exact wordAddr_add_four_ne (by omega) _ e2.symm
  · rintro (hn | ⟨rfl, rfl⟩ | hdepth) j hj
    · obtain rfl : j = 0 := by omega
      rw [h0]; rfl
    · obtain rfl | rfl : j = 0 ∨ j = 1 := by omega
      · rw [h0]; rfl
      · rfl
    · have hclog : clog2 imemDepth = 0 := Nat.clog_of_right_le_one hdepth 2
      simp [Sram.wordAddr, hclog, Nat.mod_one]

/-- A load followed by a use of its result. -/
def loadUseProgram (a : Nat) : Word :=
  match a with
  | 1 => 0x00002083 -- lw x1, 0(x0)
  | 2 => 0x00508113 -- addi x2, x1, 5
  | _ => 0x00000013 -- nop

/-- The cycle in which the use is in ID and the load in EX. -/
def loadUseState : RvCpu := after 8 8 (fun _ => 0) (fun _ => 0) (boot loadUseProgram fun _ => 7) 0 4

/-- In the cycle behind the stall the use issues, as it should. -/
theorem issueStream_loadUseState :
    (issueStream 8 8 (fun _ => 0) loadUseState 2).map
        (fun e => (Sram.wordAddr 8 32 e.1, e.2)) =
      (List.range 1).map (fun j =>
        (Sram.wordAddr 8 32 (seqAddr loadUseState.uIfu.ifidPc j),
          loadUseState.wordAt 8 (seqAddr loadUseState.uIfu.ifidPc j))) :=
  (issueStream_eq_seq_iff (reachable_after (fun _ => 0) (fun _ => 0) _ 0 4) (by decide) 2
    (by decide) (by decide)).mpr (.inl (Nat.le_refl 2))

/-- Two cycles on, the word behind the use has been lost. -/
theorem issueStream_ne_loadUseState :
    Reachable 8 8 loadUseState ∧ loadUseState.hazardFlag = true ∧
    (∀ k < 4, (Clocked.run (next 8 8) (fun _ => 0) loadUseState k).pcSrc 0 = false) ∧
    (∀ k < 4, 0 < k →
      (Clocked.run (next 8 8) (fun _ => 0) loadUseState k).hazardFlag = false) ∧
    (issueStream 8 8 (fun _ => 0) loadUseState 4).map
        (fun e => (Sram.wordAddr 8 32 e.1, e.2)) ≠
      (List.range 3).map (fun j =>
        (Sram.wordAddr 8 32 (seqAddr loadUseState.uIfu.ifidPc j),
          loadUseState.wordAt 8 (seqAddr loadUseState.uIfu.ifidPc j))) :=
  ⟨reachable_after _ _ _ 0 4, by decide, by decide, by decide, by decide⟩

end URiscV.Hdl.RvCpu
