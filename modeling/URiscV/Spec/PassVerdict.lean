import URiscV.Scripts.Run
import URiscV.Tb.AsmTest

/-!
# When a test is reported as passed

`run_test` returns when the simulation exits normally and has not printed the word
`FAIL`. A test whose assertions fail prints it, in the assertion and in its summary.
A test that the watchdog stops prints neither a summary nor the word: it is reported
as passed, unless an assertion had failed before.

## Key results

- `exec_of_inTime` / `exec_of_not_inTime`: the two ends of a simulation
- `returns_only_if_passed_iff`: when returning means that the test has passed
- `regression_ok`: what the summary of a regression says about its tests
-/

namespace URiscV.Tb.AsmTest

/-! ## Timing -/

/-- The main sequence gets through the statements, and to `print_pass_fail`, before
    the watchdog. -/
def inTime (watchdogFirst : Nat → Bool) : List Stmt → Nat → Bool
  | [], now => !beaten watchdogFirst 1 now
  | st :: rest, now =>
    match st.doneAt now with
    | none => false
    | some t => !beaten watchdogFirst (rest.length + 2) t && inTime watchdogFirst rest t

/-- The lines displayed by the statements that come before the watchdog. -/
def shown (hex : Logic → String) (watchdogFirst : Nat → Bool) : List Stmt → Nat → List String
  | [], _ => []
  | st :: rest, now =>
    match st.doneAt now with
    | none => []
    | some t =>
      if beaten watchdogFirst (rest.length + 2) t then []
      else st.lines hex ++ shown hex watchdogFirst rest t

/-- When the statements are done, if nothing stops them. -/
def duration : List Stmt → Nat → Option Nat
  | [], now => some now
  | st :: rest, now =>
    match st.doneAt now with
    | none => none
    | some t => duration rest t

section Timing

variable {watchdogFirst : Nat → Bool} {stmts : List Stmt} {now t : Nat}

/-- No statement goes back in time. -/
theorem le_of_doneAt {st : Stmt} (h : st.doneAt now = some t) : now ≤ t := by
  cases st with
  | posedge =>
    simp only [Stmt.doneAt, nextPosedge, Option.some.injEq] at h
    omega
  | delay d =>
    simp only [Stmt.doneAt, Option.some.injEq] at h
    omega
  | hang => cases h
  | display | assertEq | setPass =>
    simp only [Stmt.doneAt, Option.some.injEq] at h
    omega

/-- Statements take no negative time. -/
theorem le_of_duration (h : duration stmts now = some t) : now ≤ t := by
  induction stmts generalizing now with
  | nil =>
    cases h
    omega
  | cons st rest ih =>
    unfold duration at h
    split at h
    · cases h
    · next u hu =>
      have hu' := le_of_doneAt hu
      have ht := ih h
      omega

/-- Before its time the watchdog does not run. -/
theorem beaten_of_lt {k : Nat} (h : t < timeLimit) : beaten watchdogFirst k t = false := by
  have hlt : ¬timeLimit < t := by omega
  have hne : t ≠ timeLimit := by omega
  simp [beaten, hlt, hne]

/-- A sequence that takes less than the time limit is in time. -/
theorem inTime_of_duration (h : duration stmts now = some t) (ht : t < timeLimit) :
    inTime watchdogFirst stmts now = true := by
  induction stmts generalizing now with
  | nil =>
    cases h
    rw [inTime, beaten_of_lt ht]
    rfl
  | cons st rest ih =>
    unfold duration at h
    unfold inTime
    split at h
    · cases h
    · next u hu =>
      have hut := le_of_duration h
      simp only [beaten_of_lt (show u < timeLimit by omega), Bool.not_false, Bool.true_and]
      exact ih h

/-- A sequence that takes longer, or forever, is not. -/
theorem not_inTime_of_duration (h : ∀ t, duration stmts now = some t → timeLimit < t) :
    inTime watchdogFirst stmts now = false := by
  induction stmts generalizing now with
  | nil =>
    have hlt : timeLimit < now := h now rfl
    simp [inTime, beaten, hlt]
  | cons st rest ih =>
    unfold duration at h
    unfold inTime
    split
    · rfl
    · next u hu =>
      rw [hu] at h
      rw [ih h, Bool.and_false]

end Timing

/-! ## The two ends of a simulation -/

section Exec

variable {hex : Logic → String} {watchdogFirst : Nat → Bool} {testname : String}
  {stmts : List Stmt} {s : Sim}

/-- In time: the summary is printed, with the value of `pass`. -/
theorem exec_of_inTime (h : inTime watchdogFirst stmts s.now = true) :
    ∃ pass rest, (exec hex watchdogFirst testname stmts s).verdict = some pass ∧
      (exec hex watchdogFirst testname stmts s).lines =
        s.lines ++ shown hex watchdogFirst stmts s.now ++ passFailLines testname pass ++ rest := by
  induction stmts generalizing s with
  | nil =>
    have hb : beaten watchdogFirst 1 s.now = false := by simpa [inTime] using h
    unfold exec
    rw [hb, if_neg Bool.false_ne_true]
    -- the watchdog may still run between `print_pass_fail` and `$finish`
    split
    · exact ⟨s.pass, [timeoutText], rfl, by simp [shown, Sim.printPassFail, Sim.timeout]⟩
    · exact ⟨s.pass, [], rfl, by simp [shown, Sim.printPassFail]⟩
  | cons st rest ih =>
    obtain ⟨done, hdone⟩ : ∃ done, st.doneAt s.now = done := ⟨_, rfl⟩
    unfold inTime at h
    unfold exec shown
    rw [hdone] at h ⊢
    cases done with
    | none => cases h
    | some t =>
      simp only [Bool.and_eq_true, Bool.not_eq_true'] at h
      simp only [h.1, Bool.false_eq_true, if_false]
      obtain ⟨pass, more, hv, hl⟩ := @ih (s.step hex t st) h.2
      refine ⟨pass, more, hv, ?_⟩
      rw [hl]
      simp [Sim.step]

/-- Not in time: the watchdog is the last to print. -/
theorem exec_of_not_inTime (h : inTime watchdogFirst stmts s.now = false) :
    (exec hex watchdogFirst testname stmts s).verdict = s.verdict ∧
      (exec hex watchdogFirst testname stmts s).lines =
        s.lines ++ shown hex watchdogFirst stmts s.now ++ [timeoutText] := by
  induction stmts generalizing s with
  | nil =>
    -- the statements are through, but `print_pass_fail` is not
    have hb : beaten watchdogFirst 1 s.now = true := by simpa [inTime] using h
    unfold exec
    rw [hb, if_pos rfl]
    exact ⟨rfl, by simp [shown, Sim.timeout]⟩
  | cons st rest ih =>
    obtain ⟨done, hdone⟩ : ∃ done, st.doneAt s.now = done := ⟨_, rfl⟩
    unfold inTime at h
    unfold exec shown
    rw [hdone] at h ⊢
    cases done with
    | none => exact ⟨rfl, by simp [Sim.timeout]⟩
    | some t =>
      cases hb : beaten watchdogFirst (rest.length + 2) t with
      | true =>
        simp only [hb, if_true]
        exact ⟨rfl, by simp [Sim.timeout]⟩
      | false =>
        simp only [hb, Bool.not_false, Bool.true_and] at h
        obtain ⟨hv, hl⟩ := @ih (s.step hex t st) h
        simp only [hb, Bool.false_eq_true, if_false]
        refine ⟨hv, ?_⟩
        rw [hl]
        simp [Sim.step]

end Exec

/-! ## The word FAIL -/

/-- The line of a failed test. -/
theorem exists_fail_passFailLines (testname : String) :
    ∃ l ∈ passFailLines testname false, Lines.Occurs "FAIL" l := by
  refine ⟨"[" ++ testname ++ "]  " ++ "\x1b[1;31mFAILED!!!\x1b[0m", by simp [passFailLines], ?_⟩
  exact Lines.occurs_append_right (by decide)

/-- The message of the watchdog does not have the word. -/
theorem not_fail_timeoutText : ¬Lines.Occurs "FAIL" timeoutText := by decide

/-- When the word is in the output. -/
theorem fail_stdout_iff (s : Sim) (note : String) : Lines.Occurs "FAIL" (s.stdout note) ↔
    (∃ l ∈ s.lines, Lines.Occurs "FAIL" l) ∨ Lines.Occurs "FAIL" note :=
  Lines.occurs_unlines_append (by decide) note

end URiscV.Tb.AsmTest

namespace URiscV.Scripts

open Tb (AsmTest Logic)
open Tb.AsmTest (inTime shown simulate)

/-! ## The verdict of `run_test` -/

section RunTest

variable {h : Host} {testname : String} {runDir : Path} {trace : Bool}

/-- When everything is built and the simulation ends with status 0, the word decides. -/
theorem runTest_eq_ok_iff (hbuilt : build h testname runDir trace = .ok ())
    (hrc : h.sim.returncode = 0) :
    runTest h testname runDir trace = .ok () ↔ ¬Lines.Occurs "FAIL" h.sim.stdout := by
  have hrun : runTest h testname runDir trace =
      raiseIf (decide (Lines.Occurs "FAIL" h.sim.stdout)) "Simulation reported FAIL" := by
    simp only [runTest, hbuilt, verdict, hrc]
    rfl
  rw [hrun]
  by_cases hfail : Lines.Occurs "FAIL" h.sim.stdout
  · simp [hfail]
  · simp [hfail]

/-- Single-test mode ends normally when `run_test` returns. -/
theorem singleTest_eq_ok_iff : singleTest h testname trace = .ok () ↔
    runTest h testname (h.repoRoot ++ ["rundir", testname]) trace = .ok () := by
  -- a `RuntimeError` and a `SystemExit` both end the script with a message
  unfold singleTest
  split
  · next hr => simp [hr]
  · next hr => simp [hr]
  · next hr => simp [hr]

/-- Regression mode records a pass when `run_test` returns. -/
theorem runOne_eq_pass_iff {regressDir : Path} :
    runOne h regressDir trace testname = .ok (testname, .pass) ↔
      runTest h testname (regressDir ++ [testname]) trace = .ok () := by
  -- only a `RuntimeError` is recorded as a failure
  unfold runOne
  split
  · next hr => simp [hr]
  · next hr => simp [hr]
  · next hr => simp [hr]

end RunTest

/-- **A pass is a pass only if the watchdog stays out.** Take a directed test in any
    execution, whatever its tasks do and how long they take, and let `run_test` build
    and simulate it, the simulation ending with status 0. That `run_test` returns means
    that `print_pass_fail` was reached with `pass` set exactly if the main sequence gets
    to `print_pass_fail` before the watchdog, or the word `FAIL` has been displayed
    before the watchdog ends the simulation, or the simulator itself prints it.

    Single-test mode and regression mode say that the test passed when `run_test`
    returns. -/
theorem returns_only_if_passed_iff (hex : Logic → String) (watchdogFirst : Nat → Bool)
    (note : String) (t : AsmTest) (h : Host) (runDir : Path) (trace : Bool)
    (hbuilt : build h t.testname runDir trace = .ok ()) (hrc : h.sim.returncode = 0)
    (hout : h.sim.stdout = (simulate hex watchdogFirst t).stdout note) :
    (runTest h t.testname runDir trace = .ok () →
      (simulate hex watchdogFirst t).verdict = some true) ↔
    inTime watchdogFirst t.sequence 0 = true ∨
      (∃ l ∈ shown hex watchdogFirst t.sequence 0, Lines.Occurs "FAIL" l) ∨
      Lines.Occurs "FAIL" note := by
  rw [runTest_eq_ok_iff hbuilt hrc, hout, Tb.AsmTest.fail_stdout_iff]
  cases hin : inTime watchdogFirst t.sequence 0 with
  | true =>
    obtain ⟨pass, rest, hv, hl⟩ :=
      @Tb.AsmTest.exec_of_inTime hex _ t.testname _ Tb.AsmTest.Sim.init hin
    refine ⟨fun _ => .inl rfl, fun _ hno => ?_⟩
    cases pass with
    | true => exact hv
    | false =>
      -- the summary of a failed test has the word
      obtain ⟨l, hmem, hfail⟩ := Tb.AsmTest.exists_fail_passFailLines t.testname
      refine absurd (.inl ⟨l, ?_, hfail⟩) hno
      show l ∈ (Tb.AsmTest.exec hex watchdogFirst t.testname t.sequence Tb.AsmTest.Sim.init).lines
      rw [hl]
      simp [hmem]
  | false =>
    obtain ⟨hv, hl⟩ :=
      @Tb.AsmTest.exec_of_not_inTime hex _ t.testname _ Tb.AsmTest.Sim.init hin
    -- the verdict is missing, so returning means that no line had the word
    have hverdict : (simulate hex watchdogFirst t).verdict = none := hv
    have hlines : (simulate hex watchdogFirst t).lines =
        shown hex watchdogFirst t.sequence 0 ++ [Tb.AsmTest.timeoutText] := hl
    have hiff : (∃ l ∈ (simulate hex watchdogFirst t).lines, Lines.Occurs "FAIL" l) ↔
        ∃ l ∈ shown hex watchdogFirst t.sequence 0, Lines.Occurs "FAIL" l := by
      rw [hlines]
      simp [or_and_right, exists_or, Tb.AsmTest.not_fail_timeoutText]
    rw [hverdict, hiff]
    simp only [reduceCtorEq, false_or, imp_false, not_not]

/-- A machine on which every step before the simulation succeeds. -/
def builtHost (sim : CompletedProcess) : Host where
  repoRoot := ["repo"]
  findTbFile := fun _ => some (["repo", "tb", "cpu", "asm", "tests"], .svh)
  isFile := fun _ => true
  isDir := fun _ => true
  isExecutable := fun _ => true
  unknownVar := fun _ => none
  isUvmTest := fun _ => false
  uvmHome := true
  assembleRc := 0
  compileRc := 0
  sim := sim

/-- `test_asm_beq_taken`, with what `run` does, and the value of `x10` that `check` would
    find. -/
def beqTaken (run : List Tb.AsmTest.Stmt) (x10 : Logic) : AsmTest where
  testname := "test_asm_beq_taken"
  hexFile := "test_asm_beq_taken.hex"
  setDmem := []
  run := run
  check := [.assertEq "`U_REGFILE_PATH.X[10]" "64'd1" x10 (Logic.extend 64 [.one])]
  report := []

/-- Its simulation. -/
def simOf (t : AsmTest) : CompletedProcess where
  returncode := 0
  stdout := (simulate (fun _ => "") (fun _ => false) t).stdout ""
  stderr := ""

/-- The test as it is: it takes 355 time units. -/
theorem returns_only_if_passed_beqTaken :
    (simulate (fun _ => "") (fun _ => false)
      (beqTaken (Tb.AsmTest.waitCycles 30) [.one])).verdict = some true :=
  (returns_only_if_passed_iff (fun _ => "") (fun _ => false) ""
    (beqTaken (Tb.AsmTest.waitCycles 30) [.one])
    (builtHost (simOf (beqTaken (Tb.AsmTest.waitCycles 30) [.one]))) ["rundir"] false (by decide)
    rfl rfl).mpr (.inl (by decide)) (by decide +kernel)

/-- A program that never gets to the event its test waits for, and does not leave 1 in
    `x10`: the test is reported as passed. -/
theorem returns_without_verdict_hang :
    runTest (builtHost (simOf (beqTaken [.hang] [.zero]))) "test_asm_beq_taken" ["rundir"] false =
        .ok () ∧
      singleTest (builtHost (simOf (beqTaken [.hang] [.zero]))) "test_asm_beq_taken" false =
        .ok () ∧
      runOne (builtHost (simOf (beqTaken [.hang] [.zero]))) ["rundir", "regress"] false
        "test_asm_beq_taken" = .ok ("test_asm_beq_taken", .pass) ∧
      (simulate (fun _ => "") (fun _ => false) (beqTaken [.hang] [.zero])).verdict = none := by
  decide

/-! ## Regressions -/

section Regression

variable {α β : Type} {ε : Type} {f : α → Except ε β}

/-- What `mapM` collects, it has computed. -/
theorem mem_of_mapM_ok {xs : List α} {ys : List β} (h : xs.mapM f = .ok ys) :
    (∀ y ∈ ys, ∃ x ∈ xs, f x = .ok y) ∧ ∀ x ∈ xs, ∃ y ∈ ys, f x = .ok y := by
  induction xs generalizing ys with
  | nil =>
    cases h
    exact ⟨fun _ h => by simp at h, fun _ h => by simp at h⟩
  | cons x xs ih =>
    rw [List.mapM_cons] at h
    -- the loop stops at the first error
    cases hx : f x with
    | error e =>
      rw [hx] at h
      cases h
    | ok y =>
      rw [hx] at h
      cases hxs : xs.mapM f with
      | error e =>
        rw [hxs] at h
        cases h
      | ok zs =>
        rw [hxs] at h
        cases h
        obtain ⟨hback, hforth⟩ := ih hxs
        constructor
        · intro z hz
          rcases List.mem_cons.mp hz with rfl | hz
          · exact ⟨x, List.mem_cons_self, hx⟩
          · obtain ⟨w, hw, hfw⟩ := hback z hz
            exact ⟨w, List.mem_cons_of_mem x hw, hfw⟩
        · intro w hw
          rcases List.mem_cons.mp hw with rfl | hw
          · exact ⟨y, List.mem_cons_self, hx⟩
          · obtain ⟨z, hz, hfz⟩ := hforth w hw
            exact ⟨z, List.mem_cons_of_mem y hz, hfz⟩

/-- `run_one` keeps the name of its test. -/
theorem runOne_name {h : Host} {regressDir : Path} {trace : Bool} {testname : String}
    {o : String × Outcome} (hr : runOne h regressDir trace testname = .ok o) :
    o.1 = testname := by
  unfold runOne at hr
  split at hr <;> cases hr <;> rfl

/-- The recorded result of a name is that of one of its runs. -/
theorem resultOf_mem {outcomes : List (String × Outcome)} {t : String} {r : Outcome}
    (h : resultOf outcomes t = some r) : (t, r) ∈ outcomes := by
  unfold resultOf at h
  rw [Option.map_eq_some_iff] at h
  obtain ⟨o, hfind, rfl⟩ := h
  have hname : o.1 = t := by simpa using List.find?_some hfind
  have hmem : o ∈ outcomes := List.mem_reverse.mp (List.mem_of_find?_eq_some hfind)
  rw [← hname]
  exact hmem

/-- A name with an outcome has a result. -/
theorem resultOf_isSome {outcomes : List (String × Outcome)} {o : String × Outcome}
    (h : o ∈ outcomes) : ∃ r, resultOf outcomes o.1 = some r := by
  cases hfind : outcomes.reverse.find? (fun p => p.1 == o.1) with
  | none =>
    have hno := List.find?_eq_none.mp hfind o (List.mem_reverse.mpr h)
    simp at hno
  | some p => exact ⟨p.2, by rw [resultOf, hfind]; rfl⟩

/-- A summary without failures. -/
theorem summary_ok {tests : List String} {outcomes : List (String × Outcome)} {msg : String}
    (h : summary tests outcomes = .ok msg) : ∀ t ∈ tests, resultOf outcomes t ≠ some .fail := by
  simp only [summary] at h
  split at h
  -- only an empty list of failures gives a summary
  · next hempty =>
    rw [List.isEmpty_iff, List.filter_eq_nil_iff] at hempty
    intro t ht hfail
    exact hempty t ht (by rw [hfail]; rfl)
  · cases h

/-- A regression that ends normally has tests, and for each of them `run_test` has returned
    in a run of that test. -/
theorem regression_ok {listFile regressDir : Path} {trace : Bool} {runs : List (String × Host)}
    {msg : String} (h : regression listFile regressDir trace runs = .ok msg) :
    runs ≠ [] ∧ ∀ r ∈ runs, ∃ r' ∈ runs, r'.1 = r.1 ∧
      runTest r'.2 r'.1 (regressDir ++ [r'.1]) trace = .ok () := by
  unfold regression at h
  have hne : runs.isEmpty = false := by
    by_contra hempty
    rw [Bool.not_eq_false] at hempty
    rw [if_pos hempty] at h
    cases h
  rw [if_neg (by rw [hne]; exact Bool.false_ne_true)] at h
  refine ⟨fun hnil => (by rw [hnil] at hne; cases hne), fun r hr => ?_⟩
  cases hmap : runs.mapM (fun r => runOne r.2 regressDir trace r.1) with
  | error e =>
    rw [hmap] at h
    cases h
  | ok outcomes =>
    rw [hmap] at h
    obtain ⟨hback, hforth⟩ := mem_of_mapM_ok hmap
    obtain ⟨o, ho, hone⟩ := hforth r hr
    have hname := runOne_name hone
    obtain ⟨res, hres⟩ := resultOf_isSome ho
    -- no test of the list has failed
    have hpass : res = .pass := by
      have hne := summary_ok (show summary (runs.map (·.1)) outcomes = .ok msg from h) r.1
        (List.mem_map_of_mem hr)
      rw [← hname, hres] at hne
      cases res with
      | pass => rfl
      | fail => exact absurd rfl hne
    rw [hname, hpass] at hres
    -- the recorded result comes from some run of the same name
    obtain ⟨r', hr', hone'⟩ := hback _ (resultOf_mem hres)
    have hname' := runOne_name hone'
    refine ⟨r', hr', hname'.symm, ?_⟩
    rw [show (r.1, Outcome.pass) = (r'.1, Outcome.pass) by rw [← hname']] at hone'
    exact runOne_eq_pass_iff.mp hone'

end Regression

end URiscV.Scripts
