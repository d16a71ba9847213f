import URiscV.Spec.FrontEnd

/-!
# Redirects are precise

A taken branch or a jump resolves in EX (`pc_src`) when younger instructions are
already in IF/ID, at the SRAM output and on the address lines. To say which
instruction a slot holds, the run is accompanied by fetch tags: the word at the
SRAM output in cycle `n` has tag `n`, and the tag follows the word through IF/ID,
ID/EX, EX/MEM and MEM/WB under exactly the enables and flushes of those
registers. Tags are read off the run; the core does not depend on them.

## Key results

- `Tagged.order` / `Tagged.live`: tags decrease down the pipeline, and a slot
  that can write, store or redirect has one
- `redirect_refetch`: IF/ID in the three cycles behind a redirect
- `redirect_precise`: no instruction fetched on the wrong path has an effect
-/

namespace URiscV.Hdl.RvCpu

/-- The fetch tag of each pipeline slot; `none` is an empty slot. -/
structure Tags where
  ifid : Option Nat
  idex : Option Nat
  exm : Option Nat
  mwb : Option Nat

/-- The tags after the edge that ends cycle `now`. -/
def Tags.next (x : Word) (now : Nat) (s : RvCpu) (g : Tags) : Tags where
  ifid := if s.pcSrc x || s.uIfu.pcSrcD1 then none else if s.hazardFlag then g.ifid else some now
  idex := if s.pcSrc x || s.hazardFlag then none else g.ifid
  exm := g.idex
  mwb := g.exm

/-- The tags in cycle `n` of a run that starts with an empty pipeline. -/
def tags (imemDepth dmemDepth : Nat) (xs : Nat → Word) (s : RvCpu) : Nat → Tags
  | 0 => ⟨none, none, none, none⟩
  | n + 1 => (tags imemDepth dmemDepth xs s n).next (xs n) n
      (Clocked.run (RvCpu.next imemDepth dmemDepth) xs s n)

/-! ## Tags and effects -/

/-- In cycle `n`: tags decrease strictly down the pipeline and are all below `n`;
    a slot without tag holds nothing that writes, stores or redirects. -/
structure Tagged (n : Nat) (s : RvCpu) (g : Tags) : Prop where
  ifid_lt : ∀ k ∈ g.ifid, k < n
  idex_lt : ∀ k ∈ g.idex, k < n ∧ ∀ j ∈ g.ifid, k < j
  exm_lt : ∀ k ∈ g.exm, k < n ∧ (∀ j ∈ g.ifid, k < j) ∧ ∀ j ∈ g.idex, k < j
  mwb_lt : ∀ k ∈ g.mwb, k < n ∧ (∀ j ∈ g.ifid, k < j) ∧ (∀ j ∈ g.idex, k < j) ∧ ∀ j ∈ g.exm, k < j
  ifid_live : g.ifid = none → s.uIfu.ifidI = 0
  idex_live : g.idex = none → s.uIdu.idex.ctrl = {}
  exm_live : g.exm = none → s.uExu.regwrite = false ∧ s.uExu.memwrite = false
  mwb_live : g.mwb = none → s.uMemu.mwb.regwrite = false

section Step

variable {imemDepth dmemDepth : Nat} {x : Word} {s : RvCpu} {g : Tags} {n : Nat}

/-- Behind a reset nothing is tagged. -/
theorem tagged_boot (imem dmem : Nat → Word) :
    Tagged 0 (boot imem dmem) ⟨none, none, none, none⟩ := by
  constructor <;> simp [boot, IdEx.zero, ExMem.zero, MemWb.zero]

/-- One cycle: the tags stay in order, and what is not tagged has no effect. -/
theorem Tagged.next (h : Tagged n s g) :
    Tagged (n + 1) (s.next imemDepth dmemDepth x) (g.next x n s) where
  ifid_lt := by
    intro k hk
    simp only [Tags.next] at hk
    split at hk
    · simp at hk
    · split at hk
      · have := h.ifid_lt k hk; omega
      · simp at hk; omega
  idex_lt := by
    intro k hk
    simp only [Tags.next] at hk ⊢
    split at hk
    · simp at hk
    · next hf =>
      simp only [Bool.or_eq_true, not_or, Bool.not_eq_true] at hf
      have hlt := h.ifid_lt k hk
      refine ⟨by omega, fun j hj => ?_⟩
      split at hj
      · simp at hj
      · rw [hf.2] at hj
        simp at hj; omega
  exm_lt := by
    intro k hk
    have hk' : k ∈ g.idex := hk
    obtain ⟨hlt, hif⟩ := h.idex_lt k hk'
    refine ⟨by omega, fun j hj => ?_, fun j hj => ?_⟩
    · simp only [Tags.next] at hj
      split at hj
      · simp at hj
      · split at hj
        · exact hif j hj
        · simp at hj; omega
    · simp only [Tags.next] at hj
      split at hj
      · simp at hj
      · exact hif j hj
  mwb_lt := by
    intro k hk
    have hk' : k ∈ g.exm := hk
    obtain ⟨hlt, hif, hid⟩ := h.exm_lt k hk'
    refine ⟨by omega, fun j hj => ?_, fun j hj => ?_, fun j hj => hid j hj⟩
    · simp only [Tags.next] at hj
      split at hj
      · simp at hj
      · split at hj
        · exact hif j hj
        · simp at hj; omega
    · simp only [Tags.next] at hj
      split at hj
      · simp at hj
      · exact hif j hj
  ifid_live := by
    intro hk
    rw [next_ifidI]
    simp only [Tags.next] at hk
    split at hk
    · next hf => rw [if_pos hf]
    · next hf =>
      rw [if_neg hf]
      split at hk
      · next hz => rw [if_pos hz]; exact h.ifid_live hk
      · simp at hk
  idex_live := by
    intro hk
    simp only [Tags.next] at hk
    split at hk
    · next hf =>
      apply next_ctrl_of_not_issues
      simp only [Bool.or_eq_true] at hf
      rcases hf with hf | hf <;> simp [issues, hf]
    · exact next_ctrl_of_ifidI_zero (h.ifid_live hk)
  exm_live := by
    intro hk
    have hc := h.idex_live hk
    simp [next_exm, hc]
  mwb_live := by
    intro hk
    have hc := h.exm_live hk
    simp [next_mwb, hc.1]

/-- The tags of a run. -/
theorem tagged_run (xs : Nat → Word) (h0 : Tagged 0 s ⟨none, none, none, none⟩) (n : Nat) :
    Tagged n (Clocked.run (RvCpu.next imemDepth dmemDepth) xs s n)
      (tags imemDepth dmemDepth xs s n) := by
  induction n with
  | zero => exact h0
  | succ n ih => exact ih.next

/-- A redirecting slot has a tag. -/
theorem Tagged.idex_isSome (h : Tagged n s g) (hp : s.pcSrc x = true) : ∃ r, g.idex = some r := by
  cases hg : g.idex with
  | some r => exact ⟨r, rfl⟩
  | none => rw [pcSrc_of_ctrl_zero (h.idex_live hg)] at hp; cases hp

/-! ## Behind a redirect -/

/-- The three cycles behind a redirect to `T`: IF/ID is empty in the first two and
    holds the word at `T` in the third. -/
theorem redirect_refetch (hok : CtrlOk s.uIdu.idex.ctrl) (xs : Nat → Word)
    (hp : s.pcSrc (xs 0) = true) :
    let run := Clocked.run (RvCpu.next imemDepth dmemDepth) xs s
    (run 1).uIfu.ifidI = 0 ∧ (run 2).uIfu.ifidI = 0 ∧
      (run 3).uIfu.ifidPc = s.pcBranchTarget (xs 0) ∧
      (run 3).uIfu.ifidI = s.wordAt imemDepth (s.pcBranchTarget (xs 0)) ∧
      (run 1).issues (xs 1) = true ∧ (run 2).issues (xs 2) = true := by
  intro run
  have hz : s.hazardFlag = false := hazardFlag_of_pcSrc hok hp
  -- the redirect itself empties IF/ID and ID/EX
  -- the redirect itself empties IF/ID and ID/EX
  have hc1 : (run 1).uIdu.idex.ctrl = {} := next_ctrl_of_not_issues (by simp [issues, hp])
  have hi1 : (run 1).uIfu.ifidI = 0 := by
    show (s.next imemDepth dmemDepth (xs 0)).uIfu.ifidI = 0
    simp [next_ifidI, hp]
  have hpc1 : (run 1).uIfu.pcR = s.pcBranchTarget (xs 0) := by
    show (s.next imemDepth dmemDepth (xs 0)).uIfu.pcR = _
    simp [next_pcR, hz, hp]
  have hd1 : (run 1).uIfu.pcSrcD1 = true := hp
  have hmem1 (a : Word) : (run 1).wordAt imemDepth a = s.wordAt imemDepth a := wordAt_next a
  -- the delayed flush empties IF/ID once more while the SRAM reads the target
  obtain ⟨f1, f2, f3, f4, f5, f6⟩ :=
    @next_front_of_ctrl_zero imemDepth dmemDepth (xs 1) (run 1) hc1
  have hc2 : (run 2).uIdu.idex.ctrl = {} := next_ctrl_of_ifidI_zero hi1
  have hi2 : (run 2).uIfu.ifidI = 0 := by
    show ((run 1).next imemDepth dmemDepth (xs 1)).uIfu.ifidI = 0
    rw [f6, hd1]; rfl
  obtain ⟨-, -, -, -, g5, g6⟩ := @next_front_of_ctrl_zero imemDepth dmemDepth (xs 2) (run 2) hc2
  refine ⟨hi1, hi2, ?_, ?_, ?_, ?_⟩
  · show ((run 2).next imemDepth dmemDepth (xs 2)).uIfu.ifidPc = _
    rw [g5]
    show ((run 1).next imemDepth dmemDepth (xs 1)).uIfu.pcPrev = _
    rw [f2, hpc1]
  · show ((run 2).next imemDepth dmemDepth (xs 2)).uIfu.ifidI = _
    rw [g6]
    show (if ((run 1).next imemDepth dmemDepth (xs 1)).uIfu.pcSrcD1 = true then (0 : Word)
      else ((run 1).next imemDepth dmemDepth (xs 1)).uIfu.uImem.dataOut) = _
    rw [f1, f4, hpc1, hmem1]; rfl
  · exact issues_of_ctrl_zero hc1
  · exact issues_of_ctrl_zero hc2

/-- Tags in a cycle behind a redirect in cycle `t` of the instruction `r`: what
    is in the pipeline is `r`, older than `r`, or fetched after cycle `t + 1`. -/
structure Behind (t r : Nat) (g : Tags) : Prop where
  ifid : ∀ k ∈ g.ifid, t + 1 < k
  idex : ∀ k ∈ g.idex, t + 1 < k
  exm : ∀ k ∈ g.exm, k ≤ r ∨ t + 1 < k
  mwb : ∀ k ∈ g.mwb, k ≤ r ∨ t + 1 < k

/-- Tags stay behind the redirect: the word at the SRAM output enters IF/ID only
    once the delayed flush is over. -/
theorem Behind.next {t r : Nat} (h : Behind t r g)
    (hn : s.pcSrc x = false → s.uIfu.pcSrcD1 = false → t + 1 < n) :
    Behind t r (g.next x n s) where
  ifid := by
    intro k hk
    simp only [Tags.next] at hk
    split at hk
    · simp at hk
    · next hf =>
      simp only [Bool.or_eq_true, not_or, Bool.not_eq_true] at hf
      split at hk
      · exact h.ifid k hk
      · have := hn hf.1 hf.2
        simp at hk; omega
  idex := by
    intro k hk
    simp only [Tags.next] at hk
    split at hk
    · simp at hk
    · exact h.ifid k hk
  exm := fun k hk => .inr (h.idex k hk)
  mwb := fun k hk => h.exm k hk

end Step

/-! ## Tags name words -/

section Run

variable {imemDepth dmemDepth : Nat} {xs : Nat → Word} {s : RvCpu}

/-- The word with tag `k` in IF/ID is the one the SRAM put out in cycle `k`, with
    its address. -/
theorem tags_ifid (n : Nat) : ∀ k ∈ (tags imemDepth dmemDepth xs s n).ifid,
    (Clocked.run (RvCpu.next imemDepth dmemDepth) xs s n).uIfu.ifidI =
        (Clocked.run (RvCpu.next imemDepth dmemDepth) xs s k).uIfu.uImem.dataOut ∧
      (Clocked.run (RvCpu.next imemDepth dmemDepth) xs s n).uIfu.ifidPc =
        (Clocked.run (RvCpu.next imemDepth dmemDepth) xs s k).uIfu.pcPrev := by
  induction n with
  | zero => intro k hk; simp [tags] at hk
  | succ n ih =>
    intro k hk
    simp only [tags, Tags.next] at hk
    rw [Clocked.run_succ]
    split at hk
    · simp at hk
    · next hf =>
      rw [next_ifidI, if_neg hf, next_ifidPc]
      split at hk
      · next hz => simpa [hz] using ih k hk
      · next hz =>
        simp only [Option.mem_def, Option.some.injEq] at hk
        subst hk
        simp [hz]

/-- The instruction with tag `k` in ID/EX is the decode of that word. -/
theorem tags_idex (n : Nat) : ∀ k ∈ (tags imemDepth dmemDepth xs s n).idex, ∃ a b,
    (Clocked.run (RvCpu.next imemDepth dmemDepth) xs s n).uIdu.idex =
      RvIdu.decode (Clocked.run (RvCpu.next imemDepth dmemDepth) xs s k).uIfu.pcPrev
        (Clocked.run (RvCpu.next imemDepth dmemDepth) xs s k).uIfu.uImem.dataOut a b := by
  -- what is in ID/EX was in IF/ID one cycle before
  -- what is in ID/EX was in IF/ID one cycle before
  cases n with
  | zero => intro k hk; simp [tags] at hk
  | succ n =>
    intro k hk
    simp only [tags, Tags.next] at hk
    split at hk
    · simp at hk
    · next hf =>
      simp only [Bool.or_eq_true, not_or, Bool.not_eq_true] at hf
      obtain ⟨hi, hpc⟩ := tags_ifid n k hk
      rw [Clocked.run_succ, next_idex_of_issues (by simp [issues, hf.1, hf.2]), idexDin, hi, hpc]
      exact ⟨_, _, rfl⟩

/-- In every cycle behind a redirect the pipeline holds the redirecting
    instruction, older ones, and ones fetched after it. -/
theorem behind_run {t r : Nat} (h0 : Tagged 0 s ⟨none, none, none, none⟩)
    (hp : (Clocked.run (RvCpu.next imemDepth dmemDepth) xs s t).pcSrc (xs t) = true)
    (hr : (tags imemDepth dmemDepth xs s t).idex = some r) (j : Nat) :
    Behind t r (tags imemDepth dmemDepth xs s (t + 1 + j)) := by
  have ht := @tagged_run imemDepth dmemDepth s xs h0 t
  induction j with
  | zero =>
    have hflush : (tags imemDepth dmemDepth xs s (t + 1)).ifid = none ∧
        (tags imemDepth dmemDepth xs s (t + 1)).idex = none := by
      simp [tags, Tags.next, hp]
    constructor
    · simp [hflush.1]
    · simp [hflush.2]
    · intro k hk
      have hk' : k ∈ (tags imemDepth dmemDepth xs s t).idex := hk
      rw [hr] at hk'
      simp at hk'; omega
    · intro k hk
      have hk' : k ∈ (tags imemDepth dmemDepth xs s t).exm := hk
      have := (ht.exm_lt k hk').2.2 r hr
      omega
  | succ j ih =>
    refine ih.next fun _ hd1 => ?_
    cases j with
    | zero =>
      -- the cycle of the delayed flush
      have hd1' : (Clocked.run (RvCpu.next imemDepth dmemDepth) xs s (t + 1)).uIfu.pcSrcD1 = true :=
        hp
      rw [hd1'] at hd1; cases hd1
    | succ j =>
      show t + 1 < t + 1 + (j + 1)
      omega

end Run

/-- **Redirects are precise.** Take any program, a reset of `k + 1` edges and a run
    in whose cycle `t` the instruction in EX (tag `r`) redirects to `T`. IF/ID is
    empty in the next two cycles and holds `T` and the word at `T` in the third;
    and in every later cycle, what redirects was fetched for `T` or later (tag
    above `t + 1`), and what stores or writes a register was so too or is not
    younger than the redirecting instruction. -/
theorem redirect_precise (imemDepth dmemDepth : Nat) (xs₀ xs : Nat → Word) (s : RvCpu) (k t : Nat)
    (hp : (after imemDepth dmemDepth xs₀ xs s k t).pcSrc (xs t) = true) :
    let run := after imemDepth dmemDepth xs₀ xs s k
    let tag := tags imemDepth dmemDepth xs (resetFor imemDepth dmemDepth xs₀ s k)
    let T := (run t).pcBranchTarget (xs t)
    (run (t + 1)).uIfu.ifidI = 0 ∧ (run (t + 2)).uIfu.ifidI = 0 ∧
    (run (t + 3)).uIfu.ifidPc = T ∧ (run (t + 3)).uIfu.ifidI = s.wordAt imemDepth T ∧
    ∃ r, (tag t).idex = some r ∧ ∀ u, t < u →
      ((run u).pcSrc (xs u) = true → ∃ j, (tag u).idex = some j ∧ t + 1 < j) ∧
      ((run u).uExu.memwrite = true → ∃ j, (tag u).exm = some j ∧ (j ≤ r ∨ t + 1 < j)) ∧
      ((run u).uMemu.mwb.regwrite = true →
        ∃ j, (tag u).mwb = some j ∧ (j ≤ r ∨ t + 1 < j)) := by
  intro run tag T
  have hboot : resetFor imemDepth dmemDepth xs₀ s k =
      boot s.uIfu.uImem.memory s.uMemu.uDmem.memory := run_reset _ _ _
  have h0 : Tagged 0 (resetFor imemDepth dmemDepth xs₀ s k) ⟨none, none, none, none⟩ := by
    rw [hboot]; exact tagged_boot _ _
  have hok (n : Nat) : FrontInv imemDepth (run n) := by
    refine Clocked.run_invariant ?_ (fun _ _ h => h.next) n
    rw [hboot]; exact frontInv_boot _ _
  have hmem (n : Nat) (a : Word) : (run n).wordAt imemDepth a = s.wordAt imemDepth a := by
    rw [wordAt_run, hboot]
    rfl
  have hfetch := @redirect_refetch imemDepth dmemDepth (run t) (hok t).ctrl (fun j => xs (t + j)) hp
  have hadd (j : Nat) :
      Clocked.run (RvCpu.next imemDepth dmemDepth) (fun i => xs (t + i)) (run t) j = run (t + j) :=
    (Clocked.run_add t j).symm
  simp only [hadd] at hfetch
  obtain ⟨h1, h2, h3, h4, -, -⟩ := hfetch
  refine ⟨h1, h2, h3, h4.trans (hmem t T), ?_⟩
  -- whatever has an effect in a stage is tagged there
  have htag (n : Nat) : Tagged n (run n) (tag n) := tagged_run xs h0 n
  obtain ⟨r, hr⟩ := (htag t).idex_isSome hp
  refine ⟨r, hr, fun u hu => ?_⟩
  obtain ⟨j, rfl⟩ := Nat.exists_eq_add_of_le (show t + 1 ≤ u from hu)
  have hb : Behind t r (tag (t + 1 + j)) := behind_run h0 hp hr j
  refine ⟨fun hsrc => ?_, fun hst => ?_, fun hwr => ?_⟩
  · obtain ⟨i, hi⟩ := (htag _).idex_isSome hsrc
    exact ⟨i, hi, hb.idex i hi⟩
  · cases hi : (tag (t + 1 + j)).exm with
    | none => rw [((htag _).exm_live hi).2] at hst; cases hst
    | some i => exact ⟨i, rfl, hb.exm i hi⟩
  · cases hi : (tag (t + 1 + j)).mwb with
    | none => rw [(htag _).mwb_live hi] at hwr; cases hwr
    | some i => exact ⟨i, rfl, hb.mwb i hi⟩

/-- A jump over one instruction. -/
def jumpProgram (a : Nat) : Word :=
  match a with
  | 0 => 0x0080006f -- jal x0, 8
  | 1 => 0x00100093 -- addi x1, x0, 1
  | _ => 0x00200113 -- addi x2, x0, 2

/-- The jump at 0 is taken, and its target is in IF/ID three cycles later. -/
theorem redirect_jumpProgram :
    (after 8 8 (fun _ => 0) (fun _ => 0) (boot jumpProgram fun _ => 0) 0 5).uIfu.ifidI =
      (boot jumpProgram fun _ => 0).wordAt 8
        ((after 8 8 (fun _ => 0) (fun _ => 0) (boot jumpProgram fun _ => 0) 0 2).pcBranchTarget 0) :=
  (redirect_precise 8 8 (fun _ => 0) (fun _ => 0) (boot jumpProgram fun _ => 0) 0 2
    (by decide)).2.2.2.1

end URiscV.Hdl.RvCpu
