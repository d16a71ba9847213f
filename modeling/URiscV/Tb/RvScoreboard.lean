import Mathlib.Data.List.Induction
import Mathlib.Logic.Function.Basic

/-!
# The core scoreboard

`riscv_scoreboard`: 64-bit reference registers and three counters, all two-state. A
transaction is a fetched word; nothing of it is a result, so there is nothing to compare.
`check_passed` is set and never cleared. The texts reported on the way are left out, the
verdict of `report_phase` is kept.
-/

namespace URiscV.Tb

/-- The fields of `riscv_transaction` that the monitor fills in. -/
structure RiscvTransaction where
  instruction : BitVec 32
  pc : BitVec 64

structure RiscvScoreboard where
  transactionsReceived : BitVec 32
  transactionsPassed : BitVec 32
  transactionsFailed : BitVec 32
  refRegs : BitVec 5 → BitVec 64

/-- What `report_phase` ends with. -/
inductive Verdict where
  | passed | failed | silent
deriving DecidableEq, Repr

namespace RiscvScoreboard

/-- `new` and `build_phase`. -/
def buildPhase : RiscvScoreboard where
  transactionsReceived := 0
  transactionsPassed := 0
  transactionsFailed := 0
  refRegs := fun _ => 0

section CheckInstruction

variable (s : RiscvScoreboard) (txn : RiscvTransaction)

/-- `expected_value` of the I-type branch. An assignment of `64'hx` to a two-state
    variable stores zero. -/
def expectedImm : BitVec 64 :=
  let rs1 := txn.instruction.extractLsb' 15 5
  let immExt := (txn.instruction.extractLsb' 20 12).signExtend 64
  match txn.instruction.extractLsb' 12 3 with
  | 0b000#3 => s.refRegs rs1 + immExt
  | _ => 0

/-- `expected_value` of the R-type branch. -/
def expectedReg : BitVec 64 :=
  let rs1 := txn.instruction.extractLsb' 15 5
  let rs2 := txn.instruction.extractLsb' 20 5
  match txn.instruction.extractLsb' 25 7 ++ txn.instruction.extractLsb' 12 3 with
  | 0b0000000_000#10 => s.refRegs rs1 + s.refRegs rs2
  | 0b0100000_000#10 => s.refRegs rs1 - s.refRegs rs2
  | 0b0000000_111#10 => s.refRegs rs1 &&& s.refRegs rs2
  | 0b0000000_110#10 => s.refRegs rs1 ||| s.refRegs rs2
  | _ => 0

/-- `if (rd != 0) ref_regs[rd] = expected_value`. -/
def setReg (expected : BitVec 64) : BitVec 5 → BitVec 64 :=
  let rd := txn.instruction.extractLsb' 7 5
  if rd ≠ 0 then Function.update s.refRegs rd expected else s.refRegs

/-- The reference registers behind `check_instruction`. -/
def nextRegs : BitVec 5 → BitVec 64 :=
  match txn.instruction.extractLsb' 0 7 with
  | 0b0010011#7 => s.setReg txn (s.expectedImm txn)
  | 0b0110011#7 => s.setReg txn (s.expectedReg txn)
  | _ => s.refRegs

/-- `check_instruction`. -/
def checkInstruction : RiscvScoreboard :=
  let checkPassed := true
  { s with
    refRegs := s.nextRegs txn
    transactionsPassed := if checkPassed then s.transactionsPassed + 1 else s.transactionsPassed
    transactionsFailed := if checkPassed then s.transactionsFailed else s.transactionsFailed + 1 }

/-- `write`. -/
def write : RiscvScoreboard :=
  { s with transactionsReceived := s.transactionsReceived + 1 }.checkInstruction txn

/-- The verdict of `report_phase`; the counters are signed. -/
def reportPhase : Verdict :=
  if 0 < s.transactionsFailed.toInt then .failed
  else if 0 < s.transactionsReceived.toInt then .passed
  else .silent

end CheckInstruction

/-- The scoreboard behind a sequence of transactions. -/
def afterAll (txns : List RiscvTransaction) : RiscvScoreboard := txns.foldl write buildPhase

/-- One transaction more. -/
theorem afterAll_concat (txns : List RiscvTransaction) (txn : RiscvTransaction) :
    afterAll (txns ++ [txn]) = (afterAll txns).write txn := by
  rw [afterAll, afterAll, List.foldl_append]
  rfl

end RiscvScoreboard

end URiscV.Tb
