import URiscV.Spec.IsaRefinement
import URiscV.Spec.StallRedirect

/-!
# How many cycles a program takes

Every cycle of the pipeline behind a reset issues an instruction, or stalls, or redirects,
or issues one of the empty slots that a reset and a redirect leave in IF/ID. A reset leaves
one and a redirect two, so cycles can be counted by instructions, stalls and redirects.

## Key results

- `slots_next`: one cycle
- `cycles_eq`: whole runs
-/

namespace URiscV.Hdl.RvCpu

/-! ## One cycle -/

/-- The cycles up to the next issue of an instruction, if there is neither stall nor
    redirect; the all-zero word in IF/ID is an empty slot. -/
def slots (s : RvCpu) : Nat :=
  if s.uIfu.ifidI = 0 then if s.uIfu.pcSrcD1 then 3 else 2 else 1

/-- The instructions among the elements of an issue stream. -/
def instructionsOf (es : List Elem) : Nat := es.countP fun e => e.2 != 0

/-- A word counts as an instruction unless it is zero. -/
theorem instructionsOf_singleton (e : Elem) : instructionsOf [e] = if e.2 = 0 then 0 else 1 := by
  rw [instructionsOf, List.countP_singleton]
  by_cases h : e.2 = 0
  · rw [h]
    rfl
  · rw [if_neg h, if_pos (bne_iff_ne.mpr h)]

section Step

variable {imemDepth dmemDepth : Nat} {x : Word} {s : RvCpu}

/-- The next issue is one to three cycles away. -/
theorem slots_bounds : 1 ≤ s.slots ∧ s.slots ≤ 3 := by
  unfold slots
  split
  · split <;> omega
  · omega

/-- A word in IF/ID issues next. -/
theorem slots_of_word (hi : s.uIfu.ifidI ≠ 0) : s.slots = 1 := if_neg hi

/-- In IF/ID there is an instruction when the word that comes is one. -/
theorem slots_of_streaming {s' : RvCpu} {a : Word} (hwords : ∀ a, s.wordAt imemDepth a ≠ 0)
    (hi : s'.uIfu.ifidI = s.wordAt imemDepth a) : s'.slots = 1 :=
  slots_of_word (by rw [hi]; exact hwords a)

/-- A cycle behind an empty slot in ID/EX. -/
theorem slots_next_of_ctrl_zero (hc : s.uIdu.idex.ctrl = {})
    (hslots : 1 + (s.next imemDepth dmemDepth x).slots =
      s.slots + if s.uIfu.ifidI = 0 then 0 else 1) :
    1 + (s.next imemDepth dmemDepth x).slots = s.slots + instructionsOf (s.issue x) +
      s.hazardFlag.toNat + 3 * (s.pcSrc x).toNat := by
  rw [hslots, issue, issues_of_ctrl_zero hc, hazardFlag_of_ctrl_zero hc, pcSrc_of_ctrl_zero hc,
    if_pos rfl, instructionsOf_singleton]
  rfl

/-- **One cycle.** -/
theorem slots_next (h : FrontInv imemDepth s) (hwords : ∀ a, s.wordAt imemDepth a ≠ 0) :
    1 + (s.next imemDepth dmemDepth x).slots = s.slots + instructionsOf (s.issue x) +
      s.hazardFlag.toNat + 3 * (s.pcSrc x).toNat := by
  cases h.phase with
  | boot hd1 hi hprev hpc hout hctrl =>
    obtain ⟨e1, -, -, -, -, e6⟩ := @next_front_of_ctrl_zero imemDepth dmemDepth x s hctrl
    rw [hd1] at e6
    refine slots_next_of_ctrl_zero hctrl ?_
    rw [slots_of_streaming hwords (e6.trans hout), slots, if_pos hi, hd1, if_pos hi]
    rfl
  | held hd1 hi hout hpc hnext hctrl =>
    obtain ⟨e1, -, -, -, -, e6⟩ := @next_front_of_ctrl_zero imemDepth dmemDepth x s hctrl
    rw [hd1] at e6
    refine slots_next_of_ctrl_zero hctrl ?_
    rw [slots_of_streaming hwords (e6.trans hout), slots_of_streaming hwords hi,
      if_neg (by rw [hi]; exact hwords _)]
  | redirected hd1 hi hctrl =>
    obtain ⟨e1, -, -, -, -, e6⟩ := @next_front_of_ctrl_zero imemDepth dmemDepth x s hctrl
    rw [hd1, if_pos rfl] at e6
    refine slots_next_of_ctrl_zero hctrl ?_
    rw [slots, if_pos e6, e1, slots, if_pos hi, hd1, if_pos hi]
    rfl
  | refetch hd1 hi hout hpc hctrl =>
    obtain ⟨e1, -, -, -, -, e6⟩ := @next_front_of_ctrl_zero imemDepth dmemDepth x s hctrl
    rw [hd1] at e6
    refine slots_next_of_ctrl_zero hctrl ?_
    rw [slots_of_streaming hwords (e6.trans hout), slots, if_pos hi, hd1, if_pos hi]
    rfl
  | seq hd1 hi hout hpc hnext =>
    have hne : s.uIfu.ifidI ≠ 0 := by rw [hi]; exact hwords _
    rw [slots_of_word hne]
    cases hp : s.pcSrc x with
    | true =>
      -- both slots behind the redirect are empty
      have hz : s.hazardFlag = false := hazardFlag_of_pcSrc h.ctrl hp
      have hi' : (s.next imemDepth dmemDepth x).uIfu.ifidI = 0 := by simp [next_ifidI, hp]
      have hd1' : (s.next imemDepth dmemDepth x).uIfu.pcSrcD1 = true := hp
      rw [slots, if_pos hi', hd1', issue, issues, hp, hz]
      rfl
    | false =>
      cases hz : s.hazardFlag with
      | true =>
        -- IF/ID keeps its instruction
        have hi' : (s.next imemDepth dmemDepth x).uIfu.ifidI = s.uIfu.ifidI := by
          simp [next_ifidI, hp, hd1, hz]
        rw [slots_of_word (by rw [hi']; exact hne), issue, issues, hp, hz]
        rfl
      | false =>
        have hi' : (s.next imemDepth dmemDepth x).uIfu.ifidI = s.uIfu.uImem.dataOut := by
          simp [next_ifidI, hp, hd1, hz]
        rw [slots_of_streaming hwords (hi'.trans hout), issue, issues, hp, hz, Bool.not_false,
          Bool.and_self, if_pos rfl, instructionsOf_singleton, if_neg hne]
        rfl

/-- A stall or a redirect comes from an instruction that has just issued. -/
theorem stall_or_redirect_le (h : CtrlOk (s.next imemDepth dmemDepth x).uIdu.idex.ctrl)
    (x' : Word) :
    (s.next imemDepth dmemDepth x).hazardFlag.toNat +
        ((s.next imemDepth dmemDepth x).pcSrc x').toNat ≤ instructionsOf (s.issue x) := by
  -- a cycle that issues nothing leaves EX empty, and so does a zero word
  cases hi : s.issues x with
  | false =>
    have hc : (s.next imemDepth dmemDepth x).uIdu.idex.ctrl = {} := next_ctrl_of_not_issues hi
    rw [hazardFlag_of_ctrl_zero hc, pcSrc_of_ctrl_zero hc]
    exact Nat.zero_le _
  | true =>
    by_cases hw : s.uIfu.ifidI = 0
    · have hc : (s.next imemDepth dmemDepth x).uIdu.idex.ctrl = {} := next_ctrl_of_ifidI_zero hw
      rw [hazardFlag_of_ctrl_zero hc, pcSrc_of_ctrl_zero hc]
      exact Nat.zero_le _
    · rw [issue, hi, if_pos rfl, instructionsOf_singleton, if_neg hw]
      cases hp : (s.next imemDepth dmemDepth x).pcSrc x' with
      | true => rw [hazardFlag_of_pcSrc h hp]; exact Nat.le_refl 1
      | false => exact Bool.toNat_le _

end Step

/-! ## Whole runs -/

section Run

variable (imemDepth dmemDepth : Nat) (xs : Nat → Word) (s : RvCpu)

/-- The instructions issued, the stalls and the redirects in the first `n` cycles. -/
def instructions (n : Nat) : Nat := instructionsOf (issueStream imemDepth dmemDepth xs s n)

def stalls (n : Nat) : Nat :=
  (List.range n).countP fun k => (Clocked.run (next imemDepth dmemDepth) xs s k).hazardFlag

def redirects (n : Nat) : Nat :=
  (List.range n).countP fun k => (Clocked.run (next imemDepth dmemDepth) xs s k).pcSrc (xs k)

variable {imemDepth dmemDepth : Nat} {xs : Nat → Word} {s : RvCpu}

/-- The instructions of one more cycle. -/
theorem instructions_succ (n : Nat) : instructions imemDepth dmemDepth xs s (n + 1) =
    instructions imemDepth dmemDepth xs s n +
      instructionsOf ((Clocked.run (next imemDepth dmemDepth) xs s n).issue (xs n)) := by
  rw [instructions, issueStream_succ, instructionsOf, List.countP_append]
  rfl

/-- The stalls of one more cycle. -/
theorem stalls_succ (n : Nat) : stalls imemDepth dmemDepth xs s (n + 1) =
    stalls imemDepth dmemDepth xs s n +
      (Clocked.run (next imemDepth dmemDepth) xs s n).hazardFlag.toNat := by
  rw [stalls, List.range_succ, List.countP_append, List.countP_singleton]
  cases (Clocked.run (next imemDepth dmemDepth) xs s n).hazardFlag <;> rfl

/-- The redirects of one more cycle. -/
theorem redirects_succ (n : Nat) : redirects imemDepth dmemDepth xs s (n + 1) =
    redirects imemDepth dmemDepth xs s n +
      ((Clocked.run (next imemDepth dmemDepth) xs s n).pcSrc (xs n)).toNat := by
  rw [redirects, List.range_succ, List.countP_append, List.countP_singleton]
  cases (Clocked.run (next imemDepth dmemDepth) xs s n).pcSrc (xs n) <;> rfl

/-- The empty slots and the counts account for all cycles. -/
theorem run_slots (h : FrontInv imemDepth s) (hwords : ∀ a, s.wordAt imemDepth a ≠ 0) (n : Nat) :
    n + (Clocked.run (next imemDepth dmemDepth) xs s n).slots = s.slots +
      instructions imemDepth dmemDepth xs s n + stalls imemDepth dmemDepth xs s n +
      3 * redirects imemDepth dmemDepth xs s n := by
  induction n with
  | zero => exact Nat.zero_add _
  | succ n ih =>
    have hn : FrontInv imemDepth (Clocked.run (next imemDepth dmemDepth) xs s n) :=
      Clocked.run_invariant h (fun _ _ hi => hi.next) n
    have hone := @slots_next imemDepth dmemDepth (xs n) _ hn fun a => by
      rw [wordAt_run]
      exact hwords a
    rw [instructions_succ, stalls_succ, redirects_succ, Clocked.run_succ]
    omega

/-- Each stall and each redirect has its own instruction in front of it. -/
theorem stalls_add_redirects_le (hc : s.uIdu.idex.ctrl = {}) (n : Nat) :
    stalls imemDepth dmemDepth xs s (n + 1) + redirects imemDepth dmemDepth xs s (n + 1) ≤
      instructions imemDepth dmemDepth xs s n := by
  induction n with
  | zero =>
    rw [stalls_succ, redirects_succ, Clocked.run_zero, hazardFlag_of_ctrl_zero hc,
      pcSrc_of_ctrl_zero hc]
    exact Nat.le_refl 0
  | succ n ih =>
    have hone := @stall_or_redirect_le imemDepth dmemDepth (xs n)
      (Clocked.run (next imemDepth dmemDepth) xs s n) next_ctrlOk (xs (n + 1))
    rw [stalls_succ, redirects_succ, Clocked.run_succ, instructions_succ]
    omega

/-- **The cycles of a program.** Take any reset of at least one edge, and an instruction
    memory without all-zero words. In every run behind it the cycles are two for the
    start, one for each instruction issued, one more for each stall and three more for
    each redirect, less the slots that are under way; these are one whenever an
    instruction issues. Stalls and redirects are no more than instructions, so at least
    every fourth cycle issues one. -/
theorem cycles_eq (imemDepth dmemDepth : Nat) (xs₀ xs : Nat → Word) (s : RvCpu) (k n : Nat)
    (hwords : ∀ a, s.wordAt imemDepth a ≠ 0) :
    let s₀ := resetFor imemDepth dmemDepth xs₀ s k
    let s' := after imemDepth dmemDepth xs₀ xs s k n
    n + s'.slots = 2 + instructions imemDepth dmemDepth xs s₀ n +
        stalls imemDepth dmemDepth xs s₀ n + 3 * redirects imemDepth dmemDepth xs s₀ n ∧
      (1 ≤ s'.slots ∧ s'.slots ≤ 3) ∧ (s'.uIfu.ifidI ≠ 0 → s'.slots = 1) ∧
      stalls imemDepth dmemDepth xs s₀ n + redirects imemDepth dmemDepth xs s₀ n ≤
        instructions imemDepth dmemDepth xs s₀ n ∧
      n ≤ 4 * instructions imemDepth dmemDepth xs s₀ n + 1 := by
  intro s₀ s'
  have hboot : s₀ = boot s.uIfu.uImem.memory s.uMemu.uDmem.memory := run_reset _ _ _
  have hfront : FrontInv imemDepth s₀ := by rw [hboot]; exact frontInv_boot _ _
  have hwords' : ∀ a, s₀.wordAt imemDepth a ≠ 0 := by rw [hboot]; exact hwords
  -- behind the reset, the first issue is in the second cycle
  have hrun := @run_slots imemDepth dmemDepth xs s₀ hfront hwords' n
  have hstart : s₀.slots = 2 := by rw [hboot]; rfl
  rw [hstart] at hrun
  -- each stall and each redirect is raised by an instruction of its own
  have hle : stalls imemDepth dmemDepth xs s₀ n + redirects imemDepth dmemDepth xs s₀ n ≤
      instructions imemDepth dmemDepth xs s₀ n := by
    have hnext := @stalls_add_redirects_le imemDepth dmemDepth xs s₀ (by rw [hboot]; rfl) n
    rw [stalls_succ, redirects_succ] at hnext
    omega
  have hslots : 1 ≤ s'.slots ∧ s'.slots ≤ 3 := slots_bounds
  have hrun' : n + s'.slots = _ := hrun
  exact ⟨hrun, hslots, slots_of_word, hle, by omega⟩

/-- The use of the load is a jump: it stalls, and redirects. -/
theorem cycles_eq_followsProgram :
    stalls 4 4 (fun _ => 0)
      (resetFor 4 4 (fun _ => 0) (boot followsProgram fun _ => 12) 0) 17 = 1 ∧
    17 + (after 4 4 (fun _ => 0) (fun _ => 0) (boot followsProgram fun _ => 12) 0 17).slots =
      2 + instructions 4 4 (fun _ => 0)
        (resetFor 4 4 (fun _ => 0) (boot followsProgram fun _ => 12) 0) 17 +
      stalls 4 4 (fun _ => 0)
        (resetFor 4 4 (fun _ => 0) (boot followsProgram fun _ => 12) 0) 17 +
      3 * redirects 4 4 (fun _ => 0)
        (resetFor 4 4 (fun _ => 0) (boot followsProgram fun _ => 12) 0) 17 :=
  ⟨by decide, (cycles_eq 4 4 (fun _ => 0) (fun _ => 0) (boot followsProgram fun _ => 12) 0 17
    fun a => by
      show followsProgram _ ≠ 0
      unfold followsProgram
      split <;> decide).1⟩

end Run

end URiscV.Hdl.RvCpu
