import URiscV.Spec.FrontEnd

/-!
# Stalls and redirects

A stall needs a load in EX and a redirect a branch or a jump, so no instruction raises
both. Either of them leaves EX empty in the next cycle, and a redirect empties IF/ID as
well, twice: so EX stays empty for three cycles, and an empty EX raises neither.

A reset may come at any time: `rst_n` low in a cycle clears the control bits at once.

## Key results

- `Draining.clk` / `Flushing.clk`: how the empty slots move on
- `stall_redirect_exclusive`: `hazard_flag` and `pc_src` over time
-/

namespace URiscV.Hdl.RvCpu

/-- The registers as the logic sees them in a cycle with the given `rst_n`. -/
def inCycle (rstN : Bool) (s : RvCpu) : RvCpu := if rstN then s else s.asyncReset

/-- EX and IF/ID are empty. -/
structure Draining (s : RvCpu) : Prop where
  ctrl : s.uIdu.idex.ctrl = {}
  ifid : s.uIfu.ifidI = 0

/-- And IF/ID is about to be emptied once more. -/
structure Flushing (s : RvCpu) : Prop extends Draining s where
  d1 : s.uIfu.pcSrcD1 = true

section Step

variable {imemDepth dmemDepth : Nat} {rstN : Bool} {x : Word} {s : RvCpu}

/-- Without a reset the cycle starts in the state itself. -/
@[simp] theorem inCycle_true : s.inCycle true = s := rfl

/-- An empty EX raises neither flag. -/
theorem quiet_of_ctrl_zero (hc : s.uIdu.idex.ctrl = {}) :
    (s.inCycle rstN).pcSrc x = false ∧ (s.inCycle rstN).hazardFlag = false := by
  have hc' : (s.inCycle rstN).uIdu.idex.ctrl = {} := by
    cases rstN with
    | true => exact hc
    | false => rfl
  exact ⟨pcSrc_of_ctrl_zero hc', hazardFlag_of_ctrl_zero hc'⟩

/-- What raises a flag is not in reset. -/
theorem rstN_of_pcSrc (h : (s.inCycle rstN).pcSrc x = true) : rstN = true := by
  cases rstN with
  | true => rfl
  | false =>
    have hz : s.asyncReset.pcSrc x = false := pcSrc_of_ctrl_zero rfl
    exact hz.symm.trans h

/-- And neither is what raises a stall. -/
theorem rstN_of_hazardFlag (h : (s.inCycle rstN).hazardFlag = true) : rstN = true := by
  cases rstN with
  | true => rfl
  | false =>
    have hz : s.asyncReset.hazardFlag = false := hazardFlag_of_ctrl_zero rfl
    exact hz.symm.trans h

/-- A reset leaves EX and IF/ID empty. -/
theorem draining_reset : Draining (s.clk imemDepth dmemDepth false x) := by
  rw [clk_reset]
  exact ⟨rfl, rfl⟩

/-- An empty IF/ID leaves EX empty. -/
theorem Draining.clk (h : Draining s) :
    (s.clk imemDepth dmemDepth rstN x).uIdu.idex.ctrl = {} := by
  cases rstN with
  | true => exact next_ctrl_of_ifidI_zero h.ifid
  | false => exact draining_reset.ctrl

/-- The delayed flush empties IF/ID once more. -/
theorem Flushing.clk (h : Flushing s) : Draining (s.clk imemDepth dmemDepth rstN x) := by
  cases rstN with
  | true =>
    have hfront := (@next_front_of_ctrl_zero imemDepth dmemDepth x s h.ctrl).2.2.2.2.2
    rw [h.d1, if_pos rfl] at hfront
    exact ⟨h.toDraining.clk, hfront⟩
  | false => exact draining_reset

/-- A redirect empties EX and IF/ID, and will empty IF/ID once more. -/
theorem flushing_of_pcSrc (h : s.pcSrc x = true) :
    Flushing (s.next imemDepth dmemDepth x) where
  ctrl := next_ctrl_of_not_issues (by simp [issues, h])
  ifid := by simp [next_ifidI, h]
  d1 := h

/-- A redirect is not held back by a stall: it writes the PC. -/
theorem next_pcR_of_pcSrc (hok : CtrlOk s.uIdu.idex.ctrl) (h : s.pcSrc x = true) :
    (s.uIdu.uHdu s.uIfu.ifidI).pcWrite = true ∧
      (s.next imemDepth dmemDepth x).uIfu.pcR = s.pcBranchTarget x := by
  have hz := hazardFlag_of_pcSrc hok h
  constructor
  · rw [uHdu_pcWrite, hz]
    rfl
  · rw [next_pcR, hz, h]
    rfl

end Step

/-- **Stalls and redirects never collide.** Take any reachable state, and any run from
    it with resets in any cycle. In no cycle are `hazard_flag` and `pc_src` both high,
    so in a cycle with `pc_src` high `pc_write` is high as well and `pc_r` takes the
    target; `hazard_flag` is not high in two consecutive cycles; and in the three
    cycles behind one with `pc_src` high, both are low. -/
theorem stall_redirect_exclusive (imemDepth dmemDepth : Nat) (rstN : Nat → Bool) (xs : Nat → Word)
    (s : RvCpu) (hr : Reachable imemDepth dmemDepth s) :
    let run := Clocked.run (fun (i : Bool × Word) s => s.clk imemDepth dmemDepth i.1 i.2)
      (fun n => (rstN n, xs n)) s
    let seen := fun n => (run n).inCycle (rstN n)
    (∀ n, ¬((seen n).hazardFlag = true ∧ (seen n).pcSrc (xs n) = true)) ∧
    (∀ n, (seen n).pcSrc (xs n) = true →
      ((seen n).uIdu.uHdu (seen n).uIfu.ifidI).pcWrite = true ∧
        (run (n + 1)).uIfu.pcR = (seen n).pcBranchTarget (xs n)) ∧
    (∀ n, (seen n).hazardFlag = true → (seen (n + 1)).hazardFlag = false) ∧
    ∀ n, (seen n).pcSrc (xs n) = true → ∀ j, 1 ≤ j → j ≤ 3 →
      (seen (n + j)).pcSrc (xs (n + j)) = false ∧ (seen (n + j)).hazardFlag = false := by
  intro run seen
  have hok (n : Nat) : CtrlOk (run n).uIdu.idex.ctrl := by
    have hn : Reachable imemDepth dmemDepth (run n) :=
      Clocked.run_invariant hr (fun i _ h => .clk i.1 i.2 h) n
    exact (frontInv_of_reachable hn).ctrl
  -- with `rst_n` high the logic sees the registers as they are
  have hseen (n : Nat) (hrst : rstN n = true) : seen n = run n := by
    show (run n).inCycle (rstN n) = run n
    rw [hrst]
    rfl
  have hnext (n : Nat) (hrst : rstN n = true) :
      run (n + 1) = (run n).next imemDepth dmemDepth (xs n) := by
    show (run n).clk imemDepth dmemDepth (rstN n) (xs n) = _
    rw [hrst]
  refine ⟨?_, ?_, ?_, ?_⟩
  -- a stall needs a load in EX, a redirect a branch or a jump
  · rintro n ⟨hz, hp⟩
    have hrst := rstN_of_pcSrc hp
    rw [hseen n hrst] at hz hp
    rw [hazardFlag_of_pcSrc (hok n) hp] at hz
    cases hz
  · intro n hp
    have hrst := rstN_of_pcSrc hp
    rw [hseen n hrst] at hp ⊢
    rw [hnext n hrst]
    exact next_pcR_of_pcSrc (hok n) hp
  · intro n hz
    have hrst := rstN_of_hazardFlag hz
    rw [hseen n hrst] at hz
    -- a stall lets nothing into EX, and an empty EX does not stall
    have hc : (run (n + 1)).uIdu.idex.ctrl = {} := by
      rw [hnext n hrst]
      exact next_ctrl_of_not_issues (by simp [issues, hz])
    exact (quiet_of_ctrl_zero (x := xs (n + 1)) hc).2
  · intro n hp j hj1 hj3
    have hrst := rstN_of_pcSrc hp
    rw [hseen n hrst] at hp
    -- the redirect leaves both slots empty, and each edge moves the hole on
    have h1 : Flushing (run (n + 1)) := by
      rw [hnext n hrst]
      exact flushing_of_pcSrc hp
    have h2 : Draining (run (n + 2)) := h1.clk
    have h3 : (run (n + 3)).uIdu.idex.ctrl = {} := h2.clk
    obtain rfl | rfl | rfl : j = 1 ∨ j = 2 ∨ j = 3 := by omega
    · exact quiet_of_ctrl_zero h1.ctrl
    · exact quiet_of_ctrl_zero h2.ctrl
    · exact quiet_of_ctrl_zero h3

/-- A jump in EX in cycle 2: nothing is raised in the three cycles behind it. -/
def jumpFirst (a : Nat) : Word := if a = 0 then 0x0080006f else 0x00200113

/-- No redirect three cycles behind that of the jump. -/
theorem stall_redirect_exclusive_jumpFirst :
    (Clocked.run (fun (i : Bool × Word) s => s.clk 8 8 i.1 i.2) (fun _ => (true, 0))
      ((boot jumpFirst fun _ => 0).clk 8 8 false 0) 5).pcSrc 0 = false := by
  have h := stall_redirect_exclusive 8 8 (fun _ => true) (fun _ => 0)
    ((boot jumpFirst fun _ => 0).clk 8 8 false 0) (.reset _ _)
  exact (h.2.2.2 2 (by decide) 3 (by omega) (by omega)).1

end URiscV.Hdl.RvCpu
