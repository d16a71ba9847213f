import URiscV.ForStd.Hex
import URiscV.Hdl.Cpu.RvCpu
import URiscV.Tb.AsmTest

/-!
# How a test gets its program

`$readmemh`, and the functions of `test_asm_base` that fill the instruction memory of the
core: `init_imem`, `set_imem` and `load_imem`.

A file for `$readmemh` is made of addresses and words, separated by white space and
comments. Digits may be grouped by underscores; the digits `x` and `z` are left out, a file
with one of them is none here.
-/

namespace URiscV.Tb

open URiscV.Hdl (RvCpu Word)

/-! ## `$readmemh` -/

namespace Readmemh

/-- Where the text behind a character stands. -/
inductive Mode where
  | code | line | block
deriving DecidableEq, Repr

/-- The text without its comments. -/
def stripComments : Mode → List Char → List Char
  | _, [] => []
  | .code, '/' :: '/' :: cs => stripComments .line cs
  | .code, '/' :: '*' :: cs => ' ' :: stripComments .block cs
  | .code, c :: cs => c :: stripComments .code cs
  | .line, '\n' :: cs => '\n' :: stripComments .code cs
  | .line, _ :: cs => stripComments .line cs
  | .block, '*' :: '/' :: cs => stripComments .code cs
  | .block, _ :: cs => stripComments .block cs

def isSpace (c : Char) : Bool := c == ' ' || c == '\n' || c == '\t' || c == '\x0c' || c == '\r'

/-- The addresses and words of a text. -/
def tokens (cs : List Char) : List (List Char) :=
  (cs.splitOnP isSpace).filter fun tok => !tok.isEmpty

/-- The number that is written as `cs`. -/
def number (cs : List Char) : Option Nat := Hex.value (cs.filter (· != '_'))

/-- A word behind the end of the memory is dropped. -/
def store (depth addr : Nat) (v : Word) (mem : Nat → Word) : Nat → Word :=
  if addr < depth then Function.update mem addr v else mem

/-- The memory after the addresses and words of a file, from address `addr` on. -/
def fill (depth : Nat) : List (List Char) → Nat → (Nat → Word) → Option (Nat → Word)
  | [], _, mem => some mem
  | ('@' :: digits) :: rest, _, mem =>
    match number digits with
    | some addr => fill depth rest addr mem
    | none => none
  | digits :: rest, addr, mem =>
    match number digits with
    | some v => fill depth rest (addr + 1) (store depth addr (BitVec.ofNat 32 v) mem)
    | none => none

end Readmemh

/-- `$readmemh(file, mem)` for a memory of `depth` words; `none` on a text it cannot read. -/
def readmemh (depth : Nat) (file : String) (mem : Nat → Word) : Option (Nat → Word) :=
  Readmemh.fill depth (Readmemh.tokens (Readmemh.stripComments .code file.toList)) 0 mem

/-! ## `test_asm_base` -/

namespace AsmTest

def imemDepth : Nat := 4096

/-- `addi x0, x0, 0`. -/
def nop : Word := 0x00000013

/-- `init_imem`. -/
def initImem : Nat → Word := fun _ => nop

/-- What `set_imem` leaves in the buffer, with the files of the simulation directory. -/
def setImemBuffer (files : String → Option String) (hexFile : String) (imem : Nat → Word) :
    Option (Nat → Word) :=
  if hexFile = "" then some imem
  else (files hexFile).bind fun text => readmemh imemDepth text imem

/-- `load_imem`. -/
def loadImem (imem : Nat → Word) (s : RvCpu) : RvCpu :=
  { s with
    uIfu := { s.uIfu with
      uImem := { s.uIfu.uImem with
        memory := fun i => if i < imemDepth then imem i else s.uIfu.uImem.memory i } } }

/-- `init_imem`, `set_imem` and `load_imem`: the core with its program, when the simulation
    gets that far. -/
def loadProgram (files : String → Option String) (t : AsmTest) (s : RvCpu) : Option RvCpu :=
  (setImemBuffer files t.hexFile initImem).map fun imem => loadImem imem s

end AsmTest

end URiscV.Tb
