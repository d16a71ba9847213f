import URiscV.ForStd.Clocked
import URiscV.Tb.AsmLoad

/-!
# Directed tests on the core

The tests of `tb/cpu/asm/tests` are alike: `run` waits for some cycles, `check` compares
registers and words of the data memory with 64-bit literals, `report` displays. What such a
test does depends on the core only through the state that `check` finds.
-/

namespace URiscV.Tb

open URiscV.Hdl (RvCpu Word)

/-- A vector of known bits. -/
def Logic.ofBitVec {n : Nat} (v : BitVec n) : Logic :=
  (List.range n).map fun k => if v.getLsbD k then .one else .zero

namespace AsmTest

/-! ## The tests -/

/-- What an assertion reads in the core. -/
inductive Probe where
  /-- `U_REGFILE_PATH.X[r]`. -/
  | reg (r : BitVec 5)
  /-- `U_DMEM_PATH.memory[k]`. -/
  | dmem (k : Fin 4096)

def Probe.value (s : RvCpu) : Probe → Word
  | .reg r => s.uIdu.X r
  | .dmem k => s.uMemu.uDmem.memory k

/-- `ASSERT_EQ` of a probe and a literal, with the texts of the two. -/
structure Assertion where
  probe : Probe
  literal : BitVec 64
  probeText : String
  literalText : String

/-- A test class: its name and `hex_file`, the cycles that `run` waits for, the assertions of
    `check`, and what `report` displays. -/
structure Directed where
  testname : String
  hexFile : String
  cycles : Nat
  checks : List Assertion
  report : RvCpu → List String

/-- The assertion, with the value that it finds. -/
def Assertion.stmt (s : RvCpu) (a : Assertion) : Stmt :=
  .assertEq a.probeText a.literalText (.ofBitVec (a.probe.value s)) (.ofBitVec a.literal)

/-- The execution of a test in which `check` and `report` find the core in state `s`. -/
def Directed.execution (c : Directed) (s : RvCpu) : AsmTest where
  testname := c.testname
  hexFile := c.hexFile
  setDmem := []
  run := waitCycles c.cycles
  check := c.checks.map (Assertion.stmt s)
  report := (c.report s).map .display

/-! ## The simulation -/

/-- What is up to the simulator: the state at power-up, the unknown values of the datapath,
    the order of events at one time, and what it prints itself. -/
structure Simulator where
  powerUp : RvCpu
  unknown : Nat → Word
  /-- `apply_reset` releases `rst_n` at the fifth edge; the core sees that at this edge, or
      only at the next one. -/
  releasedFirst : Bool
  watchdogFirst : Nat → Bool
  hex : Logic → String
  note : String

def dmemDepth : Nat := 4096

/-- The edges at which the core sees the reset. -/
def Simulator.resetEdges (sim : Simulator) : Nat := if sim.releasedFirst then 4 else 5

/-- The core in front of the last edge that `run` waits for, where `check` finds it. -/
def Simulator.atCheck (sim : Simulator) (cycles : Nat) (s : RvCpu) : RvCpu :=
  Clocked.run (fun e => RvCpu.clk imemDepth dmemDepth e.1 e.2)
    (fun k => (decide (sim.resetEdges ≤ k), sim.unknown k)) s (cycles + 5)

/-- The standard output of a test, with the files of the simulation directory. -/
def Simulator.stdout (sim : Simulator) (files : String → Option String) (c : Directed) :
    Option String :=
  (loadProgram files (c.execution sim.powerUp) sim.powerUp).map fun s =>
    (simulate sim.hex sim.watchdogFirst (c.execution (sim.atCheck c.cycles s))).stdout sim.note

end AsmTest

end URiscV.Tb
