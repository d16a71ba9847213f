import URiscV.Rv32i.Program
import URiscV.Spec.IsaTrace
import URiscV.Spec.PassVerdict
import URiscV.Spec.ProgramLoad
import URiscV.Tb.AsmDirected

/-!
# The verdict of a directed test

From the source text of a test to the verdict of `scripts/run`: the program that
`scripts/assemble` has written is loaded, runs on the core, and `check` finds the registers
and the memory that the interpreter ends with. The literals of `ASSERT_EQ` have 64 bits and
the values 32, which are extended with zeros.

## Key results

- `Completes.after`: the core behind a program that is done
- `runTest_directed`: the verdict, from what `check` finds
- `runTest_iff_isa`: the verdict, from the interpreter
-/

namespace URiscV.Hdl.RvCpu

open Rv32i (decode fetch step exec)

/-! ## Programs that are done in time -/

/-- `addi x0, x0, 0`. -/
def nopWord : Word := 0x00000013

/-- The program is done behind its first `m` instructions, with nops from there on, and
    `cycles` are enough for it; the deviations of the core cannot show. -/
structure Completes (i d : Nat) (imem dmem : Nat → Word) (m cycles : Nat) : Prop where
  legal : ∀ a < 2 ^ i, (decode (imem a)).isSome = true
  first : repeatable (imem 0) = true
  ok : ∀ n < m, stepOk (2 ^ i) (2 ^ d) imem (exec (2 ^ i) (2 ^ d) imem dmem n) = true
  nops : ∀ n < cycles, m ≤ n →
    fetch (2 ^ i) imem (exec (2 ^ i) (2 ^ d) imem dmem n) = nopWord
  time : cost (2 ^ i) (2 ^ d) imem dmem m + 5 ≤ cycles

section Completes

variable {i d : Nat} {imem dmem : Nat → Word} {m cycles : Nat}

/-- What a nop is to the interpreter. -/
theorem decode_nop : decode nopWord = some (.addi 0 0 0) := by decide

/-- It is none of the instructions on which the core deviates. -/
theorem stepOk_of_nop {σ : Rv32i.State} (h : fetch (2 ^ i) imem σ = nopWord) :
    stepOk (2 ^ i) (2 ^ d) imem σ = true := by
  rw [stepOk, h, decode_nop]
  rfl

/-- The core does not deviate before `check`, neither in the program nor in the nops. -/
theorem Completes.stepOk (h : Completes i d imem dmem m cycles) {n : Nat} (hn : n < cycles) :
    Hdl.stepOk (2 ^ i) (2 ^ d) imem (exec (2 ^ i) (2 ^ d) imem dmem n) = true := by
  by_cases hm : n < m
  · exact h.ok n hm
  · exact stepOk_of_nop (h.nops n hn (by omega))

/-- The nops leave registers and memory alone. -/
theorem Completes.exec (h : Completes i d imem dmem m cycles) {n : Nat} (hm : m ≤ n)
    (hn : n ≤ cycles) :
    archOf (Rv32i.exec (2 ^ i) (2 ^ d) imem dmem n) =
      archOf (Rv32i.exec (2 ^ i) (2 ^ d) imem dmem m) := by
  induction n, hm using Nat.le_induction with
  | base => rfl
  | succ n hm ih =>
    have hdec : decode (fetch (2 ^ i) imem (Rv32i.exec (2 ^ i) (2 ^ d) imem dmem n)) =
        some (.addi 0 0 0) := by
      rw [h.nops n (by omega) hm, decode_nop]
    have hstep : Rv32i.exec (2 ^ i) (2 ^ d) imem dmem (n + 1) =
        Rv32i.eval (2 ^ d) (Rv32i.exec (2 ^ i) (2 ^ d) imem dmem n) (.addi 0 0 0) :=
      Rv32i.step_of_decode hdec
    rw [hstep, ← ih (by omega)]
    rfl

/-- More instructions cost more. -/
theorem cost_mono {n k : Nat} (h : n ≤ k) :
    cost (2 ^ i) (2 ^ d) imem dmem n ≤ cost (2 ^ i) (2 ^ d) imem dmem k := by
  induction k, h using Nat.le_induction with
  | base => exact Nat.le_refl _
  | succ k _ ih =>
    rw [cost]
    omega

/-- One instruction at most issues twice. -/
theorem length_secondIssue_le {t : Nat} : (secondIssue (2 ^ i) imem dmem t).length ≤ 1 := by
  rw [secondIssue]
  split
  · exact Nat.le_refl 1
  · exact Nat.zero_le 1

/-- Every instruction of the program is behind its stage when the cycles are over. -/
theorem Completes.drained (h : Completes i d imem dmem m cycles) (xs : Nat → Word) {t : Nat}
    (hlow : cycles ≤ t + 3) (hhigh : t < cycles) (x : Word) :
    (Clocked.run (RvCpu.next (2 ^ i) (2 ^ d)) xs (boot imem dmem) t).drained (2 ^ d) x =
      archOf (Rv32i.exec (2 ^ i) (2 ^ d) imem dmem m) := by
  obtain ⟨n, hn, hdrained, -, -, hcost⟩ :=
    @drained_trace_boot i d imem dmem h.legal h.first xs t fun n hn => h.stepOk (by omega)
  have hlen := @length_secondIssue_le i imem dmem t
  have htime := h.time
  have hdone : m ≤ n := by
    by_contra hlt
    -- fewer instructions would have taken fewer cycles
    have hless := @cost_mono i d imem dmem (n + 1) m (by omega)
    rw [cost] at hless
    omega
  rw [hdrained, h.exec hdone (by omega)]

/-- **The core behind a program that is done**, whichever edge ends the reset. -/
theorem Completes.after {s : RvCpu}
    (h : Completes i d s.uIfu.uImem.memory s.uMemu.uDmem.memory m cycles) (xs₀ xs : Nat → Word)
    (k : Nat) {n : Nat} (hlow : cycles ≤ n) (hhigh : n ≤ cycles + 1) :
    (RvCpu.after (2 ^ i) (2 ^ d) xs₀ xs s k n).uIdu.X =
        (Rv32i.exec (2 ^ i) (2 ^ d) s.uIfu.uImem.memory s.uMemu.uDmem.memory m).x ∧
      (RvCpu.after (2 ^ i) (2 ^ d) xs₀ xs s k n).uMemu.uDmem.memory =
        (Rv32i.exec (2 ^ i) (2 ^ d) s.uIfu.uImem.memory s.uMemu.uDmem.memory m).mem := by
  have hboot : resetFor (2 ^ i) (2 ^ d) xs₀ s k =
      boot s.uIfu.uImem.memory s.uMemu.uDmem.memory := run_reset _ _ _
  have htime := h.time
  obtain ⟨t, rfl⟩ : ∃ t, n = t + 3 := ⟨n - 3, by omega⟩
  rw [RvCpu.after, hboot]
  constructor
  · rw [X_eq_drained (backEndInv_boot _ _), h.drained xs (by omega) (by omega)]
    rfl
  · rw [dmem_eq_drained, h.drained xs (by omega) (by omega)]
    rfl

end Completes

end URiscV.Hdl.RvCpu

namespace URiscV.Tb

open URiscV.Hdl (RvCpu Word)
open URiscV.Scripts

/-! ## Vectors of known bits -/

namespace Logic

variable {m n : Nat}

/-- A known vector has its width. -/
theorem length_ofBitVec (v : BitVec n) : (ofBitVec v).length = n := by
  rw [ofBitVec, List.length_map, List.length_range]

/-- And its bits. -/
theorem getElem?_ofBitVec (v : BitVec n) (k : Nat) :
    (ofBitVec v)[k]? = if k < n then some (if v.getLsbD k then .one else .zero) else none := by
  rw [ofBitVec, List.getElem?_map]
  by_cases hk : k < n
  · rw [List.getElem?_range hk, if_pos hk]
    rfl
  · rw [List.getElem?_eq_none (by rw [List.length_range]; omega), if_neg hk]
    rfl

/-- Known vectors compare as their values do. -/
theorem ofBitVec_inj {v w : BitVec n} : ofBitVec v = ofBitVec w ↔ v = w := by
  refine ⟨fun h => BitVec.eq_of_getLsbD_eq fun k hk => ?_, congrArg ofBitVec⟩
  have hbit := congrArg (·[k]?) h
  simp only [getElem?_ofBitVec, if_pos hk, Option.some.injEq] at hbit
  cases hv : v.getLsbD k <;> cases hw : w.getLsbD k <;> simp_all

/-- Known bits are extended with known bits. -/
theorem extend_ofBitVec (h : m ≤ n) (v : BitVec m) :
    extend n (ofBitVec v) = ofBitVec (v.setWidth n) := by
  apply List.ext_getElem?
  intro k
  rw [extend, getElem?_ofBitVec, List.getElem?_append, length_ofBitVec, getElem?_ofBitVec,
    List.getElem?_replicate, BitVec.getLsbD_setWidth]
  by_cases hm : k < m
  · have hn : k < n := by omega
    simp [hm, hn]
  · have hz : v.getLsbD k = false := BitVec.getLsbD_of_ge v k (by omega)
    by_cases hn : k < n
    · have hsub : k - m < n - m := by omega
      simp [hm, hn, hsub, hz]
    · have hsub : ¬ k - m < n - m := by omega
      simp [hm, hn, hsub]

/-- A value against a longer literal. -/
theorem caseNe_ofBitVec (h : m ≤ n) (v : BitVec m) (lit : BitVec n) :
    caseNe (ofBitVec v) (ofBitVec lit) = decide (lit ≠ v.setWidth n) := by
  have hmax : max m n = n := Nat.max_eq_right h
  have hlit : extend n (ofBitVec lit) = ofBitVec lit := by
    rw [extend_ofBitVec (Nat.le_refl n), BitVec.setWidth_eq]
  rw [caseNe, length_ofBitVec, length_ofBitVec, hmax, extend_ofBitVec h, hlit]
  by_cases heq : lit = v.setWidth n
  · simp [heq]
  · have hne : ofBitVec (v.setWidth n) ≠ ofBitVec lit := fun hb => heq (ofBitVec_inj.mp hb).symm
    simp [heq, hne]

end Logic

namespace AsmTest

/-! ## A simulation in time -/

section InTime

variable {hex : Logic → String} {watchdogFirst : Nat → Bool} {testname : String}
  {stmts : List Stmt} {s : Sim} {now : Nat}

/-- Statements that do not wait for anything but edges take ten time units for each. -/
theorem duration_le (h : ∀ st ∈ stmts, ∀ now, ∃ t, st.doneAt now = some t ∧
    t ≤ now + if st = .posedge then 10 else 0) :
    ∃ t, duration stmts now = some t ∧ t ≤ now + 10 * stmts.count .posedge := by
  induction stmts generalizing now with
  | nil => exact ⟨now, rfl, by simp⟩
  | cons st rest ih =>
    obtain ⟨u, hu, hle⟩ := h st List.mem_cons_self now
    obtain ⟨t, ht, hle'⟩ := @ih u fun st' hst' => h st' (List.mem_cons_of_mem st hst')
    refine ⟨t, by rw [duration, hu]; exact ht, ?_⟩
    rw [List.count_cons]
    by_cases hp : st = .posedge
    · simp only [hp, if_true, beq_self_eq_true] at hle ⊢
      omega
    · simp only [hp, if_false, beq_iff_eq] at hle ⊢
      omega

/-- What a simulation in time displays: what its statements do, the summary, and perhaps the
    line of the watchdog. -/
theorem lines_of_inTime (h : inTime watchdogFirst stmts s.now = true) :
    let pass := stmts.foldl Stmt.passAfter s.pass
    (∀ l ∈ passFailLines testname pass,
      l ∈ (exec hex watchdogFirst testname stmts s).lines) ∧
    ∀ l ∈ (exec hex watchdogFirst testname stmts s).lines,
      l ∈ s.lines ∨ (∃ st ∈ stmts, l ∈ st.lines hex) ∨ l ∈ passFailLines testname pass ∨
        l = timeoutText := by
  induction stmts generalizing s with
  | nil =>
    have hb : beaten watchdogFirst 1 s.now = false := by simpa [inTime] using h
    unfold exec
    rw [hb, if_neg Bool.false_ne_true]
    -- the watchdog may still run between `print_pass_fail` and `$finish`
    split
    · constructor
      · intro l hl
        exact List.mem_append_left _ (List.mem_append_right _ hl)
      · intro l hl
        rcases List.mem_append.mp hl with hl | hl
        · exact (List.mem_append.mp hl).imp_right fun hl => .inr (.inl hl)
        · exact .inr (.inr (.inr (List.mem_singleton.mp hl)))
    · constructor
      · intro l hl
        exact List.mem_append_right _ hl
      · intro l hl
        exact (List.mem_append.mp hl).imp_right fun hl => .inr (.inl hl)
  | cons st rest ih =>
    obtain ⟨done, hdone⟩ : ∃ done, st.doneAt s.now = done := ⟨_, rfl⟩
    unfold inTime at h
    unfold exec
    rw [hdone] at h ⊢
    cases done with
    | none => cases h
    | some t =>
      simp only [Bool.and_eq_true, Bool.not_eq_true'] at h
      simp only [h.1, Bool.false_eq_true, if_false]
      obtain ⟨hsum, hall⟩ := @ih (s.step hex t st) h.2
      refine ⟨hsum, fun l hl => ?_⟩
      rcases hall l hl with hl | ⟨st', hst', hl⟩ | hl
      · rcases List.mem_append.mp hl with hl | hl
        · exact .inl hl
        · exact .inr (.inl ⟨st, List.mem_cons_self, hl⟩)
      · exact .inr (.inl ⟨st', List.mem_cons_of_mem st hst', hl⟩)
      · exact .inr (.inr hl)

end InTime

/-! ## What `check` finds -/

/-- The assertion holds of a value. -/
def Assertion.holds (a : Assertion) (v : Word) : Bool := a.literal == v.setWidth 64

/-- The word `FAIL` is neither in the name of the test nor in what it reports nor in what the
    simulator prints. -/
structure Directed.Quiet (c : Directed) (note : String) : Prop where
  testname : ¬Lines.Occurs "FAIL" c.testname
  report : ∀ s, ∀ l ∈ c.report s, ¬Lines.Occurs "FAIL" l
  note : ¬Lines.Occurs "FAIL" note

section Directed

variable {c : Directed} {s : RvCpu} {hex : Logic → String} {watchdogFirst : Nat → Bool}

/-- What the main sequence does: wait, check and report. -/
theorem sequence_execution (h : c.hexFile ≠ "") :
    (c.execution s).sequence = waitCycles (c.cycles + 6) ++
      (c.checks.map (Assertion.stmt s) ++ (c.report s).map .display) := by
  have hset : (c.execution s).setImem = [] := if_neg h
  have hwait : applyReset ++ waitCycles c.cycles = waitCycles (c.cycles + 6) := by
    rw [applyReset, waitCycles, waitCycles, waitCycles, Nat.add_comm c.cycles,
      List.replicate_add 6]
    rfl
  rw [sequence, hset, ← hwait]
  simp [Directed.execution]

/-- Waiting leaves `pass` alone. -/
theorem foldl_passAfter_posedge (n : Nat) (pass : Bool) :
    (waitCycles n).foldl Stmt.passAfter pass = pass := by
  induction n with
  | zero => rfl
  | succ n ih =>
    rw [waitCycles, List.replicate_succ]
    exact ih

/-- So does the report. -/
theorem foldl_passAfter_display (ls : List String) (pass : Bool) :
    (ls.map Stmt.display).foldl Stmt.passAfter pass = pass := by
  induction ls with
  | nil => rfl
  | cons l ls ih => exact ih

/-- The checks clear it when one of them does not hold. -/
theorem foldl_passAfter_checks (as : List Assertion) (pass : Bool) :
    (as.map (Assertion.stmt s)).foldl Stmt.passAfter pass =
      (pass && as.all fun a => a.holds (a.probe.value s)) := by
  induction as generalizing pass with
  | nil => exact (Bool.and_true pass).symm
  | cons a as ih =>
    have hone : Stmt.passAfter pass (a.stmt s) = (pass && a.holds (a.probe.value s)) := by
      rw [Assertion.stmt, Stmt.passAfter, Logic.caseNe_ofBitVec (by decide), Assertion.holds]
      by_cases heq : a.literal = (a.probe.value s).setWidth 64
      · simp [heq]
      · simp [heq]
    rw [List.map_cons, List.foldl_cons, hone, ih, List.all_cons, Bool.and_assoc]

/-- `pass` in the end. -/
theorem foldl_passAfter_execution (h : c.hexFile ≠ "") :
    (c.execution s).sequence.foldl Stmt.passAfter true =
      c.checks.all fun a => a.holds (a.probe.value s) := by
  rw [sequence_execution h, List.foldl_append, List.foldl_append, foldl_passAfter_posedge,
    foldl_passAfter_checks, foldl_passAfter_display, Bool.true_and]

/-- The main sequence is done before the watchdog. -/
theorem inTime_execution (h : c.hexFile ≠ "") (ht : 10 * (c.cycles + 6) < timeLimit) :
    inTime watchdogFirst (c.execution s).sequence 0 = true := by
  rw [sequence_execution h]
  obtain ⟨t, hdur, hle⟩ := @duration_le (waitCycles (c.cycles + 6) ++
    (c.checks.map (Assertion.stmt s) ++ (c.report s).map .display)) 0 fun st hst now => by
      rcases List.mem_append.mp hst with hst | hst
      · obtain rfl := List.eq_of_mem_replicate hst
        refine ⟨nextPosedge now, rfl, ?_⟩
        rw [if_pos rfl, nextPosedge, clkHalfPeriod]
        omega
      · rcases List.mem_append.mp hst with hst | hst
        · obtain ⟨a, -, rfl⟩ := List.mem_map.mp hst
          exact ⟨now, rfl, Nat.le_add_right _ _⟩
        · obtain ⟨l, -, rfl⟩ := List.mem_map.mp hst
          exact ⟨now, rfl, Nat.le_add_right _ _⟩
  -- only the waits take time
  have hcount : (waitCycles (c.cycles + 6) ++
      (c.checks.map (Assertion.stmt s) ++ (c.report s).map Stmt.display)).count Stmt.posedge =
        c.cycles + 6 := by
    have hchecks : (c.checks.map (Assertion.stmt s)).count .posedge = 0 :=
      List.count_eq_zero.mpr fun hmem => by
        obtain ⟨a, -, ha⟩ := List.mem_map.mp hmem
        cases ha
    have hreport : ((c.report s).map Stmt.display).count .posedge = 0 :=
      List.count_eq_zero.mpr fun hmem => by
        obtain ⟨l, -, hl⟩ := List.mem_map.mp hmem
        cases hl
    rw [List.count_append, List.count_append, hchecks, hreport, waitCycles,
      List.count_replicate_self]
  rw [hcount] at hle
  exact inTime_of_duration hdur (by omega)

/-- The summary of a test that passes. -/
theorem not_fail_passFailLines {testname : String} (h : ¬Lines.Occurs "FAIL" testname) :
    ∀ l ∈ passFailLines testname true, ¬Lines.Occurs "FAIL" l := by
  have hline : ("[" ++ testname ++ "]  " ++ "\x1b[1;32mPASSED\x1b[0m").toList =
      [] ++ '[' :: (testname.toList ++ ']' :: "  \x1b[1;32mPASSED\x1b[0m".toList) := by
    simp [String.toList_append]
  intro l hl
  rcases List.mem_cons.mp hl with rfl | hl
  · decide
  rcases List.mem_cons.mp hl with rfl | hl
  · -- neither of the brackets is in the word
    intro hocc
    rw [Lines.Occurs, if_pos rfl, hline, Lines.infix_append_cons_iff (by decide),
      Lines.infix_append_cons_iff (by decide)] at hocc
    rcases hocc with hocc | hocc | hocc
    · exact absurd hocc (by decide)
    · exact h hocc
    · exact absurd hocc (by decide)
  · rw [List.mem_singleton.mp hl]
    decide

/-- When the word is in the output of a test. -/
theorem fail_stdout_execution {note : String} (h : c.hexFile ≠ "")
    (ht : 10 * (c.cycles + 6) < timeLimit) (hquiet : c.Quiet note) :
    Lines.Occurs "FAIL" ((simulate hex watchdogFirst (c.execution s)).stdout note) ↔
      (c.checks.all fun a => a.holds (a.probe.value s)) = false := by
  obtain ⟨hsum, hall⟩ := @lines_of_inTime hex watchdogFirst c.testname _ Sim.init
    (@inTime_execution c s watchdogFirst h ht)
  have hpass : (c.execution s).sequence.foldl Stmt.passAfter Sim.init.pass =
      c.checks.all fun a => a.holds (a.probe.value s) := foldl_passAfter_execution h
  rw [hpass] at hsum hall
  rw [fail_stdout_iff, or_iff_left hquiet.note]
  constructor
  · rintro ⟨l, hl, hfail⟩
    by_contra hne
    rw [Bool.not_eq_false] at hne
    rw [hne] at hall
    -- where the line with the word may come from
    rcases hall l hl with hl | ⟨st, hst, hl⟩ | hl | rfl
    · cases hl
    · rw [sequence_execution h] at hst
      rcases List.mem_append.mp hst with hst | hst
      · rw [List.eq_of_mem_replicate hst] at hl
        cases hl
      rcases List.mem_append.mp hst with hst | hst
      · -- no assertion displays anything
        obtain ⟨a, ha, rfl⟩ := List.mem_map.mp hst
        have hholds := List.all_eq_true.mp hne a ha
        rw [Assertion.stmt, Stmt.lines, Logic.caseNe_ofBitVec (by decide),
          eq_of_beq (show (a.literal == _) = true from hholds)] at hl
        simp at hl
      · obtain ⟨l', hl', rfl⟩ := List.mem_map.mp hst
        rw [List.mem_singleton.mp hl] at hfail
        exact hquiet.report s l' hl' hfail
    · exact not_fail_passFailLines hquiet.testname l hl hfail
    · exact not_fail_timeoutText hfail
  -- a failed check makes `print_pass_fail` say so
  · intro hfalse
    rw [hfalse] at hsum
    obtain ⟨l, hmem, hfail⟩ := exists_fail_passFailLines c.testname
    exact ⟨l, hsum l hmem, hfail⟩

end Directed

/-! ## The core that `check` finds -/

section AtCheck

variable {imemDepth dmemDepth : Nat} {u : Nat → Word} {s : RvCpu}

/-- Some edges of reset, and some behind it. -/
theorem run_reset_release (r n : Nat) :
    Clocked.run (fun (e : Bool × Word) => RvCpu.clk imemDepth dmemDepth e.1 e.2)
        (fun k => (decide (r ≤ k), u k)) s (r + n) =
      Clocked.run (RvCpu.next imemDepth dmemDepth) (fun k => u (r + k))
        (Clocked.run (RvCpu.clk imemDepth dmemDepth false) u s r) n := by
  have hreset : Clocked.run (fun (e : Bool × Word) => RvCpu.clk imemDepth dmemDepth e.1 e.2)
      (fun k => (decide (r ≤ k), u k)) s r =
        Clocked.run (RvCpu.clk imemDepth dmemDepth false) u s r := by
    refine Clocked.run_relation (R := Eq) rfl fun k hk heq => ?_
    simp only [decide_eq_false (Nat.not_le.mpr hk)]
    rw [heq]
  rw [Clocked.run_add, hreset]
  refine Clocked.run_relation (R := Eq) rfl fun k _ heq => ?_
  simp only [decide_eq_true (Nat.le_add_right r k)]
  rw [heq]

end AtCheck

/-- The core with the program whose bytes are `raw`. -/
def Simulator.loaded (sim : Simulator) (raw : List Assemble.Byte) : RvCpu :=
  loadImem (bufferOf raw) sim.powerUp

/-- The interpreter after `m` instructions of that program. -/
def Simulator.isa (sim : Simulator) (raw : List Assemble.Byte) (m : Nat) : Rv32i.State :=
  Rv32i.exec (2 ^ 12) (2 ^ 12) (sim.loaded raw).uIfu.uImem.memory
    (sim.loaded raw).uMemu.uDmem.memory m

/-- What an assertion would read in the interpreter. -/
def Probe.valueIn (σ : Rv32i.State) : Probe → Word
  | .reg r => σ.x r
  | .dmem k => σ.mem k

/-- The program of a test is done in `m` instructions, before `check`. -/
abbrev Simulator.Completes (sim : Simulator) (raw : List Assemble.Byte) (m cycles : Nat) : Prop :=
  RvCpu.Completes 12 12 (sim.loaded raw).uIfu.uImem.memory (sim.loaded raw).uMemu.uDmem.memory m
    cycles

/-- `check` finds the values that the interpreter ends with. -/
theorem value_atCheck {sim : Simulator} {raw : List Assemble.Byte} {m cycles : Nat}
    (h : sim.Completes raw m cycles) (p : Probe) :
    p.value (sim.atCheck cycles (sim.loaded raw)) = p.valueIn (sim.isa raw m) := by
  obtain ⟨k, n, hedges, hsum, hlow, hhigh⟩ : ∃ k n, sim.resetEdges = k + 1 ∧
      cycles + 5 = sim.resetEdges + n ∧ cycles ≤ n ∧ n ≤ cycles + 1 := by
    rw [Simulator.resetEdges]
    -- the fifth edge is the last one of the reset, or the first one behind it
    cases sim.releasedFirst
    · exact ⟨4, cycles, rfl, Nat.add_comm _ _, Nat.le_refl _, Nat.le_succ _⟩
    · exact ⟨3, cycles + 1, rfl, by rw [if_pos rfl]; omega, Nat.le_succ _, Nat.le_refl _⟩
  have hcore : sim.atCheck cycles (sim.loaded raw) =
      RvCpu.after (2 ^ 12) (2 ^ 12) sim.unknown (fun j => sim.unknown (sim.resetEdges + j))
        (sim.loaded raw) k n := by
    rw [Simulator.atCheck, hsum, run_reset_release, hedges]
    rfl
  obtain ⟨hX, hmem⟩ := h.after sim.unknown (fun j => sim.unknown (sim.resetEdges + j)) k hlow hhigh
  rw [hcore]
  cases p with
  | reg r => exact congrFun hX r
  | dmem j => exact congrFun hmem j

/-- **The verdict of a directed test is that of the ISA.** Let `scripts/assemble` end with
    status 0 and the test name the file that it has written; let the program be done in `m`
    instructions, before `check`. On any simulator, with any contents of the memories and
    registers at power-up, `run_test` returns exactly if each assertion of `check` compares
    its literal with what the interpreter ends with, extended with zeros. -/
theorem runTest_iff_isa (sim : Simulator) (tc : Assemble.Toolchain) (inputAsm : String)
    (elf : Bool) (files : String → Option String) (c : Directed) (h : Host) (runDir : Path)
    (trace : Bool) (m : Nat)
    (hstatus : Assemble.status (Assemble.main tc inputAsm elf).1 = 0) (hname : c.hexFile ≠ "")
    (hfile : files c.hexFile = (Assemble.main tc inputAsm elf).2.hex)
    (hprog : sim.Completes tc.raw m c.cycles) (htime : 10 * (c.cycles + 6) < timeLimit)
    (hquiet : c.Quiet sim.note) (hbuilt : build h c.testname runDir trace = .ok ())
    (hrc : h.sim.returncode = 0) (hout : sim.stdout files c = some h.sim.stdout) :
    runTest h c.testname runDir trace = .ok () ↔
      ∀ a ∈ c.checks, a.holds (a.probe.valueIn (sim.isa tc.raw m)) = true := by
  have hload : loadProgram files (c.execution sim.powerUp) sim.powerUp =
      some (sim.loaded tc.raw) := loadProgram_assembled hstatus hname hfile
  rw [Simulator.stdout, hload, Option.map_some, Option.some.injEq] at hout
  rw [runTest_eq_ok_iff hbuilt hrc, ← hout, fail_stdout_execution hname htime hquiet,
    Bool.not_eq_false, List.all_eq_true]
  simp only [value_atCheck hprog]

/-! ## `test_asm_beq_taken` -/

/-- A word of the loaded program is one of `.text` or a nop. -/
theorem legal_loaded {sim : Simulator} {raw : List Assemble.Byte}
    (h : ∀ w ∈ Assemble.words (Assemble.pad raw),
      (Rv32i.decode (BitVec.ofNat 32 w)).isSome = true) :
    ∀ a < 2 ^ 12, (Rv32i.decode ((sim.loaded raw).uIfu.uImem.memory a)).isSome = true := by
  intro a ha
  show (Rv32i.decode (if a < imemDepth then bufferOf raw a else _)).isSome = true
  rw [if_pos (show a < imemDepth from ha), bufferOf, Readmemh.storeWords]
  split
  · next hlt =>
    have hlen : a < (Assemble.words (Assemble.pad raw)).length := by omega
    rw [Nat.sub_zero, List.getD_eq_getElem?_getD, List.getElem?_eq_getElem hlen, Option.getD_some]
    exact h _ (List.getElem_mem hlen)
  · show (Rv32i.decode nop).isSome = true
    decide

/-- The `.text` of `test_asm_beq_taken.s`. -/
def beqTakenText : Assemble.Toolchain where
  isFile := true
  installed := fun _ => true
  returncode := fun _ => 0
  raw :=
    [0x93, 0x00, 0x50, 0x00, -- addi x1, x0, 5
     0x13, 0x01, 0x50, 0x00, -- addi x2, x0, 5
     0x63, 0x86, 0x20, 0x00, -- beq x1, x2, taken
     0x13, 0x05, 0xf0, 0x0f, -- addi x10, x0, 255
     0x6f, 0x00, 0x80, 0x00, -- j _end
     0x13, 0x05, 0x10, 0x00, -- taken: addi x10, x0, 1
     0x13, 0x00, 0x00, 0x00] -- _end: addi x0, x0, 0

def beqTakenTest : Directed where
  testname := "test_asm_beq_taken"
  hexFile := "test_asm_beq_taken.hex"
  cycles := 30
  checks := [⟨.reg 10, 1, "`U_REGFILE_PATH.X[10]", "64'd1"⟩]
  report := fun s => ["[test_asm_beq_taken] x10=" ++ toString (s.uIdu.X 10).toNat ++ " (exp 1)"]

def beqTakenSimulator : Simulator where
  powerUp := RvCpu.boot (fun _ => 0) fun _ => 0
  unknown := fun _ => 0
  releasedFirst := true
  watchdogFirst := fun _ => false
  hex := fun _ => ""
  note := ""

/-- Nothing that the test displays by itself has the word. -/
theorem quiet_beqTaken : beqTakenTest.Quiet "" where
  testname := by decide
  note := by decide
  report := by
    intro s l hl hocc
    have hF : 'F' ∈ l.toList := hocc.subset (by decide)
    rw [List.mem_singleton.mp hl, String.toList_append, String.toList_append] at hF
    rcases List.mem_append.mp hF with hF | hF
    · rcases List.mem_append.mp hF with hF | hF
      · exact absurd hF (by decide)
      · -- a decimal number has digits only
        have hdigit : 'F'.isDigit = true :=
          Nat.isDigit_of_mem_toDigits (b := 10) (by decide) (by decide) (by simpa using hF)
        exact absurd hdigit (by decide)
    · exact absurd hF (by decide)

/-- The program is done in four instructions. -/
theorem completes_beqTaken : beqTakenSimulator.Completes beqTakenText.raw 4 30 where
  legal := legal_loaded (by decide)
  first := by decide
  ok := by decide
  nops := by decide
  time := by decide

/-- The test passes on a simulator that starts with zeros. -/
theorem runTest_iff_isa_beqTaken :
    runTest (builtHost ⟨0, (simulate (fun _ => "") (fun _ => false)
      (beqTakenTest.execution (beqTakenSimulator.atCheck 30
        (beqTakenSimulator.loaded beqTakenText.raw)))).stdout "", ""⟩)
      "test_asm_beq_taken" ["rundir"] false = .ok () := by
  refine (runTest_iff_isa beqTakenSimulator beqTakenText "/test_asm_beq_taken.s" false
    (fun _ => (Assemble.main beqTakenText "/test_asm_beq_taken.s" false).2.hex) beqTakenTest _
    ["rundir"] false 4 rfl (by decide) rfl completes_beqTaken (by decide) quiet_beqTaken
    (by decide) rfl ?_).mpr (by decide)
  rw [Simulator.stdout,
    @loadProgram_assembled beqTakenText "/test_asm_beq_taken.s" false _ _ _ rfl (by decide) rfl]
  rfl

end AsmTest

end URiscV.Tb
