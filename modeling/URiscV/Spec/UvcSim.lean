import URiscV.Spec.UvcRun

/-!
# Simulations of the cache testbench

A simulation makes the clock cycles of the testbench until its test is through, or until
the global watchdog ends it. Which of the two comes first, and when, can be told from the
sets of the cache: `endCycle` is the cycle in which the last item is done, and
`watchdogCycles` the last one before the watchdog.

## Key results

- `edgeTime_lt_iff`: the clock cycles that the watchdog leaves
- `after_eq`: a simulation is the testbench behind the cycles that take place
- `test_transactions`: what a simulation has driven, published and checked
- `test_over_iff`: how it ends
-/

namespace URiscV.Tb.L1cSim

open Hdl (L1Cache L1Req CacheSet)
open Hdl.Sys (setIndex)
open L1cUvc (resetSets serviceCycles serviceCycles_bounds)

/-! ## The end of a test -/

/-- The clock cycles that take place before the watchdog. -/
def watchdogCycles : Nat := 99995

/-- The cycle in which a test is through: its sequence has nothing to wait for when it is
    empty. -/
def endCycle (dut : L1Cache) (items : List L1Req) : Nat :=
  if items = [] then 0 else serviceCycles (resetSets dut) items + 2

/-- The positive edges before the watchdog. -/
theorem edgeTime_lt_iff {n : Nat} : edgeTime n < watchdogDelay ↔ n ≤ watchdogCycles := by
  unfold edgeTime watchdogDelay watchdogCycles clockPeriod resetDelay
  omega

section End

variable {dut : L1Cache} {items : List L1Req} {j n : Nat}

/-- A request takes two cycles at least and fourteen at most. -/
theorem endCycle_bounds (h : items ≠ []) :
    2 * items.length + 2 ≤ endCycle dut items ∧ endCycle dut items ≤ 14 * items.length + 2 := by
  obtain ⟨hlo, hhi⟩ := @serviceCycles_bounds (resetSets dut) items
  rw [endCycle, if_neg h]
  omega

/-- The end is not before that of an item. -/
theorem serviceCycles_take_le_endCycle (hj : j ≤ items.length) (hpos : j ≠ 0) :
    serviceCycles (resetSets dut) (items.take j) + 2 ≤ endCycle dut items := by
  have hne : items ≠ [] := by
    rintro rfl
    exact hpos (Nat.le_zero.mp hj)
  have hle := @L1cUvc.serviceCycles_le_append (resetSets dut) (items.take j) (items.drop j)
  rw [List.take_append_drop] at hle
  rw [endCycle, if_neg hne]
  omega

/-- The driver is through when no item is left. -/
theorem through_of_position {st : BitVec 4 → CacheSet} {u : L1cUvc} {left : List L1Req} {k : Nat}
    (h : L1cUvc.Position st u left k) : through u.driver = true ↔ left = [] := by
  cases h with
  | item k h hd hitems => simp [through, hd, hitems]
  | drive req h hd => simp [through, hd]
  | compare req h =>
    have hd : u.driver.loc = .release req := h.driver
    simp [through, hd]
  | miss req m h hne =>
    have hd : u.driver.loc = .resp req (m.cycles - 1) := by
      rw [h.driver, L1cUvc.driverLoc, if_neg hne]
    simp [through, hd]

/-- **When a test is through.** -/
theorem through_iff : through (L1cUvc.after dut items n).driver = true ↔
    endCycle dut items ≤ n := by
  rcases Nat.lt_or_ge n 2 with hn | hn
  · -- the driver still waits behind the reset
    obtain ⟨-, hitems, k, hd⟩ := @L1cUvc.seen_of_lt_two dut items n hn
    rw [through, hd, hitems, List.isEmpty_iff, endCycle]
    split
    · next hnil => exact ⟨fun _ => Nat.zero_le _, fun _ => hnil⟩
    · next hne => exact ⟨fun hnil => absurd hnil hne, fun hle => by omega⟩
  · obtain ⟨m, rfl⟩ := Nat.exists_eq_add_of_le' hn
    obtain ⟨done, left, k, h⟩ := L1cUvc.run_after dut items m
    rw [through_of_position h.position, h.left_eq_nil_iff, endCycle]
    split
    · next hnil =>
      subst hnil
      exact ⟨fun _ => Nat.zero_le _, fun _ => Nat.zero_le _⟩
    · exact Nat.add_le_add_iff_right.symm

end End

/-! ## One step -/

section Step

variable {s : L1cSim}

/-- A cycle takes place while the test runs and the watchdog is not due. -/
theorem ticks_iff : s.ticks = true ↔ s.status = .running ∧ s.cycle + 1 ≤ watchdogCycles := by
  rw [ticks, Bool.and_eq_true, beq_iff_eq, decide_eq_true_iff, edgeTime_lt_iff]

/-- A clock cycle takes place. -/
theorem step_of_running (h : s.status = .running) (hc : s.cycle + 1 ≤ watchdogCycles) :
    s.step = { uvc := s.uvc.step, cycle := s.cycle + 1, status := statusOf s.uvc.step } ∧
      s.publish = s.uvc.publish := by
  have ht := ticks_iff.mpr ⟨h, hc⟩
  rw [step, publish, if_pos ht, if_pos ht]
  exact ⟨rfl, rfl⟩

/-- The watchdog comes before the next edge. -/
theorem step_of_watchdog (h : s.status = .running) (hc : watchdogCycles < s.cycle + 1) :
    s.step = { s with status := .fatal watchdogText } ∧ s.publish = [] := by
  have ht : ¬s.ticks = true := fun ht => absurd (ticks_iff.mp ht).2 (Nat.not_le_of_lt hc)
  rw [step, publish, if_neg ht, if_neg ht, if_pos h]
  exact ⟨rfl, rfl⟩

/-- A simulation that has ended stays as it is. -/
theorem step_of_ended (h : s.status ≠ .running) : s.step = s ∧ s.publish = [] := by
  have ht : ¬s.ticks = true := fun ht => h (ticks_iff.mp ht).1
  rw [step, publish, if_neg ht, if_neg ht, if_neg h]
  exact ⟨rfl, rfl⟩

end Step

/-! ## Whole simulations -/

/-- The clock cycles that take place out of `n`. -/
def cyclesOf (dut : L1Cache) (items : List L1Req) (n : Nat) : Nat :=
  min n (min (endCycle dut items) watchdogCycles)

/-- The status that goes with them. -/
def statusAt (dut : L1Cache) (items : List L1Req) (n : Nat) : L1cStatus :=
  if endCycle dut items ≤ min n watchdogCycles then .finished
  else if n ≤ watchdogCycles then .running
  else .fatal watchdogText

section Simulation

variable (dut : L1Cache) (items : List L1Req)

/-- The status of a simulation whose clock cycles have all taken place. -/
theorem statusOf_after {n : Nat} (hn : n ≤ watchdogCycles) :
    statusOf (L1cUvc.after dut items n) = statusAt dut items n := by
  rw [statusOf, statusAt, Nat.min_eq_left hn]
  by_cases hend : endCycle dut items ≤ n
  · rw [if_pos (through_iff.mpr hend), if_pos hend]
  · rw [if_neg fun h => hend (through_iff.mp h), if_neg hend, if_pos hn]

/-- The test runs until its last item is answered or the watchdog is due. -/
theorem statusAt_eq_running {n : Nat} :
    statusAt dut items n = .running ↔ n < endCycle dut items ∧ n ≤ watchdogCycles := by
  unfold statusAt
  split_ifs <;> simp <;> omega

/-- Behind its end nothing changes. -/
theorem statusAt_succ {n : Nat} (h : statusAt dut items n ≠ .running) :
    statusAt dut items (n + 1) = statusAt dut items n ∧
      cyclesOf dut items (n + 1) = cyclesOf dut items n := by
  rw [Ne, statusAt_eq_running] at h
  constructor
  · unfold statusAt
    split_ifs <;> first | rfl | omega
  · unfold cyclesOf
    omega

/-- **A simulation is the testbench behind the clock cycles that take place.** -/
theorem after_eq (n : Nat) :
    after dut items n =
      { uvc := L1cUvc.after dut items (cyclesOf dut items n)
        cycle := cyclesOf dut items n
        status := statusAt dut items n } ∧
      published dut items n = L1cUvc.published dut items (cyclesOf dut items n) := by
  induction n with
  | zero =>
    have hzero : cyclesOf dut items 0 = 0 := Nat.zero_min _
    rw [hzero, ← statusOf_after dut items (Nat.zero_le _)]
    exact ⟨rfl, rfl⟩
  | succ n ih =>
    obtain ⟨hafter, hpub⟩ := ih
    have hnext : after dut items (n + 1) = (after dut items n).step := rfl
    have hpubNext : published dut items (n + 1) =
      published dut items n ++ (after dut items n).publish := rfl
    have hstatus : (after dut items n).status = statusAt dut items n := by rw [hafter]
    rw [hnext, hpubNext]
    by_cases hrun : statusAt dut items n = .running
    · obtain ⟨hend, hn⟩ := (statusAt_eq_running dut items).mp hrun
      have hcycles : cyclesOf dut items n = n := by
        unfold cyclesOf
        omega
      rw [hrun] at hstatus
      rw [hcycles] at hafter hpub
      have hcycle : (after dut items n).cycle = n := by rw [hafter]
      rcases Nat.lt_or_ge n watchdogCycles with hlt | hge
      · -- a clock cycle takes place
        have hcycles' : cyclesOf dut items (n + 1) = n + 1 := by
          unfold cyclesOf
          omega
        obtain ⟨hstep, hone⟩ := step_of_running hstatus (by rw [hcycle]; exact hlt)
        rw [hstep, hone, hpub, hcycles', ← statusOf_after dut items hlt, hafter]
        exact ⟨rfl, rfl⟩
      · -- the watchdog ends the simulation
        have hcycles' : cyclesOf dut items (n + 1) = n := by
          unfold cyclesOf
          omega
        have hstatus' : statusAt dut items (n + 1) = .fatal watchdogText := by
          rw [statusAt, if_neg (by omega), if_neg (by omega)]
        obtain ⟨hstep, hnone⟩ := step_of_watchdog hstatus (by
          rw [hcycle]
          exact Nat.lt_succ_of_le hge)
        rw [hstep, hnone, hpub, hcycles', hstatus', hafter, List.append_nil]
        exact ⟨rfl, rfl⟩
    -- behind the end nothing changes
    · obtain ⟨hstatus', hcycles⟩ := statusAt_succ dut items hrun
      obtain ⟨hstep, hnone⟩ := step_of_ended (hstatus ▸ hrun)
      rw [hstep, hnone, hstatus', hcycles, List.append_nil]
      exact ⟨hafter, hpub⟩

/-- When the test is through, all its items are done. -/
theorem seen_of_finished {n : Nat} (h : (after dut items n).status = .finished) :
    L1cUvc.Seen (resetSets dut) items (after dut items n).uvc (published dut items n) := by
  obtain ⟨hafter, hpub⟩ := after_eq dut items n
  have hend : endCycle dut items ≤ min n watchdogCycles := by
    rw [hafter] at h
    by_contra hlt
    have hstatus : statusAt dut items n = .finished := h
    rw [statusAt, if_neg hlt] at hstatus
    split at hstatus <;> cases hstatus
  obtain ⟨done, left, hitems, hseen, hdone⟩ := L1cUvc.seen_after dut items (cyclesOf dut items n)
  -- a finished test has been through its last item
  have hall : items.length ≤ done.length := by
    rw [hdone items.length (Nat.le_refl _), List.take_length]
    refine or_iff_not_imp_left.mpr fun hpos => ?_
    have hne : items ≠ [] := fun hnil => hpos (by rw [hnil, List.length_nil])
    have hcycle : endCycle dut items = serviceCycles (resetSets dut) items + 2 := if_neg hne
    unfold cyclesOf
    omega
  have hleft : left = [] := by
    rw [hitems, List.length_append] at hall
    exact List.eq_nil_of_length_eq_zero (by omega)
  rw [hleft, List.append_nil] at hitems
  rw [hafter, hpub]
  rwa [← hitems] at hseen

/-- **The transactions of a test.** The items done when `n` clock cycles have passed are
    exactly those whose service fits, behind the two cycles before the driver takes its
    first item, into the cycles that the watchdog leaves of them. They have got the answers
    that the sets of the cache give, one after the other; the monitor has published just
    these transactions, and the scoreboard has checked them, in this order; and neither
    the driver nor the monitor has reported a timeout. -/
theorem test_transactions (n : Nat) :
    ∃ j ≤ items.length,
      (∀ j' ≤ items.length, j' ≤ j ↔
        j' = 0 ∨ serviceCycles (resetSets dut) (items.take j') + 2 ≤ min n watchdogCycles) ∧
      (after dut items n).uvc.driver.done = L1cUvc.transactions (resetSets dut) (items.take j) ∧
      (after dut items n).uvc.driver.errors = [] ∧
      (after dut items n).uvc.monitorErrors = [] ∧
      published dut items n = L1cUvc.transactions (resetSets dut) (items.take j) ∧
      (after dut items n).uvc.scoreboard =
        (L1cUvc.transactions (resetSets dut) (items.take j)).foldl .write .buildPhase := by
  obtain ⟨hafter, hpub⟩ := after_eq dut items n
  obtain ⟨done, left, hitems, hseen, hdone⟩ := L1cUvc.seen_after dut items (cyclesOf dut items n)
  have htake : items.take done.length = done := by rw [hitems, List.take_left]
  rw [hafter, hpub]
  refine ⟨done.length, ?_, fun j hj => ?_, ?_⟩
  · rw [hitems, List.length_append]
    omega
  -- the cycles that take place are those up to the end of the test
  · rw [hdone j hj]
    refine or_congr_right' fun hpos => ?_
    have hend := @serviceCycles_take_le_endCycle dut items j hj hpos
    unfold cyclesOf
    omega
  · rw [htake]
    exact ⟨hseen.transactions, hseen.errors, hseen.monitorErrors, hseen.published,
      hseen.scoreboard⟩

/-- **How a simulation ends.** It runs until the cycles of all items have passed, two for a
    hit, nine for a miss with a clean victim and fourteen for one with a dirty victim; then
    the test is through. When these are more than the watchdog leaves, the simulation ends
    with its `uvm_fatal` instead. -/
theorem test_over_iff (n : Nat) :
    ((after dut items n).status = .finished ↔ endCycle dut items ≤ min n watchdogCycles) ∧
    ((after dut items n).status = .fatal watchdogText ↔
      watchdogCycles < min n (endCycle dut items)) ∧
    ((after dut items n).status = .running ↔ n < endCycle dut items ∧ n ≤ watchdogCycles) ∧
    (items ≠ [] → 2 * items.length + 2 ≤ endCycle dut items ∧
      endCycle dut items ≤ 14 * items.length + 2) := by
  have hstatus : (after dut items n).status = statusAt dut items n := by
    rw [(after_eq dut items n).1]
  rw [hstatus]
  refine ⟨?_, ?_, statusAt_eq_running dut items, endCycle_bounds⟩
  · unfold statusAt
    split_ifs <;> simp <;> omega
  · unfold statusAt
    split_ifs <;> simp <;> omega

end Simulation

end URiscV.Tb.L1cSim
