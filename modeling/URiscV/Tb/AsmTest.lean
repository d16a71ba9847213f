import URiscV.ForStd.Lines

/-!
# Directed asm tests

`test_asm_base` and the run sequencer of `test_asm_run`: the main sequence of a
test, and the watchdog that races with it.

A derived class overrides the tasks `run`, `check` and `report`. What they do in an
execution is the list of the statements they go through, with the values that the
assertions compare; a task may take any time, or wait for something that never
comes. Time is in units of the `timescale`.
-/

namespace URiscV.Tb

/-! ## Values -/

/-- A 4-state bit. -/
inductive Bit4 where
  | zero | one | x | z
deriving DecidableEq, Repr

/-- A 4-state vector, the least significant bit first. -/
abbrev Logic := List Bit4

/-- Extension of an unsigned vector to `n` bits. -/
def Logic.extend (n : Nat) (v : Logic) : Logic := v ++ List.replicate (n - v.length) .zero

/-- `!==`: bit for bit, unknown bits included. -/
def Logic.caseNe (a b : Logic) : Bool :=
  let n := max a.length b.length
  Logic.extend n a != Logic.extend n b

namespace AsmTest

/-! ## Statements -/

/-- A statement of a task. -/
inductive Stmt where
  /-- `@(posedge clk)`. -/
  | posedge
  /-- `#d`. -/
  | delay (d : Nat)
  /-- A wait for an event that never comes. -/
  | hang
  /-- `$display`. -/
  | display (text : String)
  /-- `ASSERT_EQ(a, b)`: the texts of its arguments, and their values. -/
  | assertEq (aText bText : String) (a b : Logic)
  /-- An assignment to `pass`. -/
  | setPass (v : Bool)
deriving DecidableEq, Repr

/-- `wait_cycles`. -/
def waitCycles (cycles : Nat) : List Stmt := List.replicate cycles .posedge

def clkHalfPeriod : Nat := 5

/-- The positive edge of `clk` behind time `now`: `clk` starts low and toggles every
    half period. -/
def nextPosedge (now : Nat) : Nat :=
  now + (2 * clkHalfPeriod - (now + clkHalfPeriod) % (2 * clkHalfPeriod))

/-- When a statement that starts at `now` is done; `none` if it never is. -/
def Stmt.doneAt (now : Nat) : Stmt → Option Nat
  | .posedge => some (nextPosedge now)
  | .delay d => some (now + d)
  | .hang => none
  | .display _ => some now
  | .assertEq .. => some now
  | .setPass _ => some now

/-- The text of a failing `ASSERT_EQ`; `hex` is the format `%08h`. -/
def assertEqText (hex : Logic → String) (aText bText : String) (a b : Logic) : String :=
  "\x1b[1;31mASSERT_EQ FAIL!!!: " ++ aText ++ " = 0x" ++ hex a ++ ", " ++ bText ++ " = 0x" ++
    hex b ++ "\x1b[0m"

/-- The lines a statement displays. -/
def Stmt.lines (hex : Logic → String) : Stmt → List String
  | .display text => [text]
  | .assertEq aText bText a b =>
    if Logic.caseNe a b then [assertEqText hex aText bText a b] else []
  | _ => []

/-- `pass` after a statement. -/
def Stmt.passAfter (pass : Bool) : Stmt → Bool
  | .assertEq _ _ a b => if Logic.caseNe a b then false else pass
  | .setPass v => v
  | _ => pass

end AsmTest

open AsmTest (Stmt)

/-- A directed test in one execution. -/
structure AsmTest where
  testname : String
  hexFile : String
  /-- What `set_dmem` displays. -/
  setDmem : List String
  run : List Stmt
  check : List Stmt
  report : List Stmt

namespace AsmTest

/-- `set_imem`: a test without `hex_file` is warned about. -/
def setImem (t : AsmTest) : List Stmt :=
  if t.hexFile = "" then
    [.display ("WARNING [" ++ t.testname ++ "]: hex_file not set — imem will be all NOPs")]
  else []

/-- `apply_reset`: five cycles of reset and one behind it. -/
def applyReset : List Stmt := waitCycles 5 ++ [.posedge]

/-- The main sequence up to `print_pass_fail`. -/
def sequence (t : AsmTest) : List Stmt :=
  t.setImem ++ t.setDmem.map .display ++ applyReset ++ t.run ++ t.check ++ t.report

/-- What `print_pass_fail` displays. -/
def passFailLines (testname : String) (pass : Bool) : List String :=
  ["\n====== Simulation Results ======\n",
    "[" ++ testname ++ "]  " ++
      if pass then "\x1b[1;32mPASSED\x1b[0m" else "\x1b[1;31mFAILED!!!\x1b[0m",
    "\n"]

/-! ## The simulation -/

/-- The time of the watchdog. -/
def timeLimit : Nat := 10000000

def timeoutText : String := "[TIMEOUT] Simulation exceeded time limit"

/-- The state of a simulation: the time, the member `pass`, the lines displayed so far,
    and the value of `pass` that `print_pass_fail` has printed. -/
structure Sim where
  now : Nat
  pass : Bool
  lines : List String
  verdict : Option Bool
deriving DecidableEq, Repr

/-- `new`: the test starts out as passed. -/
def Sim.init : Sim where
  now := 0
  pass := true
  lines := []
  verdict := none

/-- The watchdog has run when the main sequence, with `k` statements to go, gets to
    time `t`. Which of the two comes first at the time of the watchdog is up to the
    simulator. -/
def beaten (watchdogFirst : Nat → Bool) (k t : Nat) : Bool :=
  timeLimit < t || t == timeLimit && watchdogFirst k

/-- The watchdog: it reports and ends the simulation. -/
def Sim.timeout (s : Sim) : Sim := { s with lines := s.lines ++ [timeoutText] }

/-- `print_pass_fail`. -/
def Sim.printPassFail (testname : String) (s : Sim) : Sim :=
  { s with
    lines := s.lines ++ passFailLines testname s.pass
    verdict := some s.pass }

section Simulate

variable (hex : Logic → String) (watchdogFirst : Nat → Bool) (testname : String)

/-- A statement that is done at time `t`. -/
def Sim.step (t : Nat) (st : Stmt) (s : Sim) : Sim :=
  { s with
    now := t
    pass := st.passAfter s.pass
    lines := s.lines ++ st.lines hex }

/-- The rest of the main sequence, `print_pass_fail` and `$finish`, or up to the
    watchdog. -/
def exec : List Stmt → Sim → Sim
  | [], s =>
    if beaten watchdogFirst 1 s.now then s.timeout
    else if beaten watchdogFirst 0 s.now then (s.printPassFail testname).timeout
    else s.printPassFail testname
  | st :: rest, s =>
    match st.doneAt s.now with
    | none => s.timeout
    | some t =>
      if beaten watchdogFirst (rest.length + 2) t then s.timeout
      else exec rest (s.step hex t st)

end Simulate

/-- The end of the simulation of a test. -/
def simulate (hex : Logic → String) (watchdogFirst : Nat → Bool) (t : AsmTest) : Sim :=
  exec hex watchdogFirst t.testname t.sequence Sim.init

/-- The standard output of the simulation; `note` is what the simulator itself adds. -/
def Sim.stdout (note : String) (s : Sim) : String := Lines.unlines s.lines ++ note

end AsmTest

end URiscV.Tb
