import Mathlib.Logic.Function.Basic
import URiscV.ForStd.Clocked

/-!
# A sequential RV32I interpreter

The integer subset LUI, AUIPC, JAL, JALR, conditional branches, LW, SW, OP-IMM
and OP of RV32I, executed one instruction at a time on a Harvard machine whose
memories are arrays of words that wrap at their size. Only word-aligned jump
targets and data addresses are in scope: an address selects the word `addr / 4`.

`isLegal` recognises the legal words of the whole base instruction set;
`decode` those of the subset above.
-/

namespace Rv32i

abbrev Word := BitVec 32
abbrev Reg := BitVec 5

/-! ## Instructions -/

inductive BranchOp where
  | beq | bne | blt | bge | bltu | bgeu
deriving DecidableEq, Repr

/-- Whether the branch is taken. -/
def BranchOp.taken (a b : Word) : BranchOp → Bool
  | .beq => a == b
  | .bne => a != b
  | .blt => a.slt b
  | .bge => !a.slt b
  | .bltu => a.ult b
  | .bgeu => !a.ult b

inductive IntOp where
  | add | sub | sll | slt | sltu | xor | srl | sra | or | and
deriving DecidableEq, Repr

/-- Result of an integer operation; shifts use the low five bits of `b`. -/
def IntOp.eval (a b : Word) : IntOp → Word
  | .add => a + b
  | .sub => a - b
  | .sll => a <<< (b.toNat % 32)
  | .slt => if a.slt b then 1 else 0
  | .sltu => if a.ult b then 1 else 0
  | .xor => a ^^^ b
  | .srl => a >>> (b.toNat % 32)
  | .sra => a.sshiftRight (b.toNat % 32)
  | .or => a ||| b
  | .and => a &&& b

/-- Instructions, with the immediate as the sign-extended word. -/
inductive Instr where
  | lui (rd : Reg) (imm : Word)
  | auipc (rd : Reg) (imm : Word)
  | jal (rd : Reg) (imm : Word)
  | jalr (rd rs1 : Reg) (imm : Word)
  | branch (op : BranchOp) (rs1 rs2 : Reg) (imm : Word)
  | lw (rd rs1 : Reg) (imm : Word)
  | sw (rs1 rs2 : Reg) (imm : Word)
  | opImm (op : IntOp) (rd rs1 : Reg) (imm : Word)
  | op (op : IntOp) (rd rs1 rs2 : Reg)
deriving DecidableEq, Repr

/-! ## Decoding -/

def opcode (w : Word) : BitVec 7 := w.extractLsb' 0 7
def rd (w : Word) : Reg := w.extractLsb' 7 5
def funct3 (w : Word) : BitVec 3 := w.extractLsb' 12 3
def rs1 (w : Word) : Reg := w.extractLsb' 15 5
def rs2 (w : Word) : Reg := w.extractLsb' 20 5
def funct7 (w : Word) : BitVec 7 := w.extractLsb' 25 7

def immI (w : Word) : Word := (w.extractLsb' 20 12).signExtend 32

def immS (w : Word) : Word := (w.extractLsb' 25 7 ++ w.extractLsb' 7 5).signExtend 32

def immB (w : Word) : Word :=
  (w.extractLsb' 31 1 ++ w.extractLsb' 7 1 ++ w.extractLsb' 25 6 ++ w.extractLsb' 8 4 ++
    0#1).signExtend 32

def immU (w : Word) : Word := w.extractLsb' 12 20 ++ 0#12

def immJ (w : Word) : Word :=
  (w.extractLsb' 31 1 ++ w.extractLsb' 12 8 ++ w.extractLsb' 20 1 ++ w.extractLsb' 21 10 ++
    0#1).signExtend 32

def branchOp? (f3 : BitVec 3) : Option BranchOp :=
  match f3 with
  | 0b000#3 => some .beq
  | 0b001#3 => some .bne
  | 0b100#3 => some .blt
  | 0b101#3 => some .bge
  | 0b110#3 => some .bltu
  | 0b111#3 => some .bgeu
  | _ => none

/-- The operation of an OP-IMM word; the shifts constrain `imm[11:5]`. -/
def opImmOp? (f3 : BitVec 3) (f7 : BitVec 7) : Option IntOp :=
  match f3 with
  | 0b000#3 => some .add
  | 0b001#3 => if f7 = 0b0000000 then some .sll else none
  | 0b010#3 => some .slt
  | 0b011#3 => some .sltu
  | 0b100#3 => some .xor
  | 0b101#3 =>
    if f7 = 0b0000000 then some .srl else if f7 = 0b0100000 then some .sra else none
  | 0b110#3 => some .or
  | _ => some .and

/-- The operation of an OP word. -/
def opOp? (f3 : BitVec 3) (f7 : BitVec 7) : Option IntOp :=
  if f7 = 0b0000000 then
    match f3 with
    | 0b000#3 => some .add
    | 0b001#3 => some .sll
    | 0b010#3 => some .slt
    | 0b011#3 => some .sltu
    | 0b100#3 => some .xor
    | 0b101#3 => some .srl
    | 0b110#3 => some .or
    | _ => some .and
  else if f7 = 0b0100000 then
    match f3 with
    | 0b000#3 => some .sub
    | 0b101#3 => some .sra
    | _ => none
  else none

/-- Decode a word of the subset; `none` on every other word. -/
def decode (w : Word) : Option Instr :=
  match opcode w with
  | 0b0110111#7 => some (.lui (rd w) (immU w))
  | 0b0010111#7 => some (.auipc (rd w) (immU w))
  | 0b1101111#7 => some (.jal (rd w) (immJ w))
  | 0b1100111#7 => if funct3 w = 0b000 then some (.jalr (rd w) (rs1 w) (immI w)) else none
  | 0b1100011#7 => (branchOp? (funct3 w)).map fun op => .branch op (rs1 w) (rs2 w) (immB w)
  | 0b0000011#7 => if funct3 w = 0b010 then some (.lw (rd w) (rs1 w) (immI w)) else none
  | 0b0100011#7 => if funct3 w = 0b010 then some (.sw (rs1 w) (rs2 w) (immS w)) else none
  | 0b0010011#7 => (opImmOp? (funct3 w) (funct7 w)).map fun op => .opImm op (rd w) (rs1 w) (immI w)
  | 0b0110011#7 => (opOp? (funct3 w) (funct7 w)).map fun op => .op op (rd w) (rs1 w) (rs2 w)
  | _ => none

/-- Legal words of the base instruction set: the subset above with the byte and
    halfword loads and stores, FENCE, ECALL and EBREAK. -/
def isLegal (w : Word) : Bool :=
  (decode w).isSome ||
    match opcode w with
    | 0b0000011#7 => funct3 w ∈ [0b000, 0b001, 0b010, 0b100, 0b101]
    | 0b0100011#7 => funct3 w ∈ [0b000, 0b001, 0b010]
    | 0b0001111#7 => funct3 w = 0b000
    | 0b1110011#7 => w = 0x00000073 || w = 0x00100073
    | _ => false

/-! ## Machine state -/

/-- Architectural state; data memory is indexed by word. -/
structure State where
  pc : Word
  x : Reg → Word
  mem : Nat → Word

/-- Register read; `x0` reads as zero. -/
def readReg (x : Reg → Word) (r : Reg) : Word := if r = 0 then 0 else x r

/-- Register write; a write to `x0` is dropped. -/
def writeReg (x : Reg → Word) (r : Reg) (v : Word) : Reg → Word :=
  if r = 0 then x else Function.update x r v

/-- Word index of a byte address in a memory of `depth` words. -/
def wordIndex (depth : Nat) (addr : Word) : Nat := addr.toNat / 4 % depth

/-- What one instruction does: the next pc, the register it writes and the word
    it stores. -/
structure Effect where
  nextPc : Word
  regWrite : Option (Reg × Word) := none
  store : Option (Word × Word) := none

/-- Effect of an instruction. -/
def effect (dmemDepth : Nat) (s : State) : Instr → Effect
  | .lui rd imm => { nextPc := s.pc + 4, regWrite := some (rd, imm) }
  | .auipc rd imm => { nextPc := s.pc + 4, regWrite := some (rd, s.pc + imm) }
  | .jal rd imm => { nextPc := s.pc + imm, regWrite := some (rd, s.pc + 4) }
  | .jalr rd rs1 imm =>
    { nextPc := (readReg s.x rs1 + imm) &&& ~~~1#32, regWrite := some (rd, s.pc + 4) }
  | .branch op rs1 rs2 imm =>
    { nextPc := if op.taken (readReg s.x rs1) (readReg s.x rs2) then s.pc + imm else s.pc + 4 }
  | .lw rd rs1 imm =>
    { nextPc := s.pc + 4
      regWrite := some (rd, s.mem (wordIndex dmemDepth (readReg s.x rs1 + imm))) }
  | .sw rs1 rs2 imm =>
    { nextPc := s.pc + 4
      store := some (readReg s.x rs1 + imm, readReg s.x rs2) }
  | .opImm op rd rs1 imm =>
    { nextPc := s.pc + 4, regWrite := some (rd, op.eval (readReg s.x rs1) imm) }
  | .op op rd rs1 rs2 =>
    { nextPc := s.pc + 4
      regWrite := some (rd, op.eval (readReg s.x rs1) (readReg s.x rs2)) }

/-- The instruction transfers control: a jump, or a branch that is taken. -/
def transfers (s : State) : Instr → Bool
  | .jal .. => true
  | .jalr .. => true
  | .branch op rs1 rs2 _ => op.taken (readReg s.x rs1) (readReg s.x rs2)
  | _ => false

/-- Without a transfer the next instruction follows in memory. -/
theorem nextPc_of_not_transfers {dmemDepth : Nat} {s : State} {i : Instr}
    (h : transfers s i = false) : (effect dmemDepth s i).nextPc = s.pc + 4 := by
  cases i <;> simp_all [transfers, effect]

/-- The state an effect leaves. -/
def Effect.apply (dmemDepth : Nat) (e : Effect) (s : State) : State where
  pc := e.nextPc
  x := match e.regWrite with
    | some (rd, v) => writeReg s.x rd v
    | none => s.x
  mem := match e.store with
    | some (addr, v) => Function.update s.mem (wordIndex dmemDepth addr) v
    | none => s.mem

/-! ## The interpreter -/

section Interpreter

variable (imemDepth dmemDepth : Nat) (imem : Nat → Word)

/-- The word at the program counter. -/
def fetch (s : State) : Word := imem (wordIndex imemDepth s.pc)

/-- Effect of the instruction at the program counter; a word outside the subset
    stops the machine. -/
def stepEffect (s : State) : Effect :=
  match decode (fetch imemDepth imem s) with
  | some i => effect dmemDepth s i
  | none => { nextPc := s.pc }

/-- One step of the interpreter. -/
def step (s : State) : State := (stepEffect imemDepth dmemDepth imem s).apply dmemDepth s

/-- Register writes of one step, `x0` left out. -/
def regWrites (s : State) : List (Reg × Word) :=
  (stepEffect imemDepth dmemDepth imem s).regWrite.toList.filter fun p => p.1 != 0

/-- Stores of one step, as byte address and value. -/
def stores (s : State) : List (Word × Word) :=
  (stepEffect imemDepth dmemDepth imem s).store.toList

/-- The instruction at the program counter transfers control. -/
def transfersNext (s : State) : Bool := (decode (fetch imemDepth imem s)).all (transfers s)

/-- The initial state: pc 0, all registers zero. -/
def init (mem : Nat → Word) : State where
  pc := 0
  x := fun _ => 0
  mem := mem

variable (mem : Nat → Word)

/-- State after `n` instructions from the initial data memory `mem`. -/
def exec (n : Nat) : State :=
  Clocked.run (fun (_ : Unit) => step imemDepth dmemDepth imem) (fun _ => ()) (init mem) n

/-- Register writes of the first `n` instructions. -/
def regWriteLog (n : Nat) : List (Reg × Word) :=
  Clocked.log (fun (_ : Unit) => regWrites imemDepth dmemDepth imem)
    (fun _ => step imemDepth dmemDepth imem) (fun _ => ()) (init mem) n

/-- Stores of the first `n` instructions. -/
def storeLog (n : Nat) : List (Word × Word) :=
  Clocked.log (fun (_ : Unit) => stores imemDepth dmemDepth imem)
    (fun _ => step imemDepth dmemDepth imem) (fun _ => ()) (init mem) n

/-- The register writes of one instruction more. -/
theorem regWriteLog_succ (n : Nat) : regWriteLog imemDepth dmemDepth imem mem (n + 1) =
    regWriteLog imemDepth dmemDepth imem mem n ++
      regWrites imemDepth dmemDepth imem (exec imemDepth dmemDepth imem mem n) := rfl

/-- The stores of one instruction more. -/
theorem storeLog_succ (n : Nat) : storeLog imemDepth dmemDepth imem mem (n + 1) =
    storeLog imemDepth dmemDepth imem mem n ++
      stores imemDepth dmemDepth imem (exec imemDepth dmemDepth imem mem n) := rfl

end Interpreter

end Rv32i
