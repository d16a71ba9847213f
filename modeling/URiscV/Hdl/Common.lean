import Mathlib.Algebra.Group.Nat.Defs
import Mathlib.Data.Nat.Log
import Mathlib.Logic.Function.Basic

/-!
# Common RTL blocks

The flip-flops, the synchronous SRAM and the one-hot converter of `hdl/common`,
each as the value its registers take at a positive clock edge. Every `rst_n` of
these flip-flops is asynchronous: a register whose `rst_n` is low holds `RESET`
before the edge already, and an edge taken while it is low keeps it there.

Values a 4-state simulator calls `x` (an out-of-range SRAM read, an undefined
ALU operation) are arbitrary bits here, supplied from outside.
-/

namespace URiscV.Hdl

/-- A 32-bit datapath word (`DW = 32`). -/
abbrev Word := BitVec 32

/-- `$clog2`. -/
abbrev clog2 (n : Nat) : Nat := Nat.clog 2 n

/-! ## Flip-flops -/

/-- `dffr`: resettable flip-flop. -/
def dffr {α : Type} (RESET : α) (rstN : Bool) (din : α) : α :=
  if !rstN then RESET else din

/-- `dffre`: resettable flip-flop with enable; `dout` is the current value. -/
def dffre {α : Type} (RESET : α) (rstN en : Bool) (din dout : α) : α :=
  if !rstN then RESET else if en then din else dout

/-- `dffr_sync_flush`: resettable flip-flop with synchronous flush. -/
def dffrSyncFlush {α : Type} (RESET FLUSH_VAL : α) (rstN flush : Bool) (din : α) : α :=
  if !rstN then RESET else if flush then FLUSH_VAL else din

/-- `dffre_sync_flush`: flush has priority over the enable. -/
def dffreSyncFlush {α : Type} (RESET FLUSH_VAL : α) (rstN en flush : Bool) (din dout : α) : α :=
  if !rstN then RESET else if flush then FLUSH_VAL else if en then din else dout

section FlipFlops

variable {α : Type} (RESET FLUSH_VAL din dout : α) (en flush : Bool)

/-- In reset the register has its reset value. -/
@[simp] theorem dffr_false : dffr RESET false din = RESET := rfl

/-- Outside it samples its input. -/
@[simp] theorem dffr_true : dffr RESET true din = din := rfl

/-- In reset the enable does not matter. -/
@[simp] theorem dffre_false : dffre RESET false en din dout = RESET := rfl

/-- Outside the register samples when it is enabled. -/
@[simp] theorem dffre_true :
    dffre RESET true en din dout = if en then din else dout := rfl

/-- The reset comes before the flush. -/
@[simp] theorem dffrSyncFlush_false : dffrSyncFlush RESET FLUSH_VAL false flush din = RESET := rfl

/-- A flush comes before the input. -/
@[simp] theorem dffrSyncFlush_true :
    dffrSyncFlush RESET FLUSH_VAL true flush din = if flush then FLUSH_VAL else din := rfl

/-- The reset comes before flush and enable. -/
@[simp] theorem dffreSyncFlush_false :
    dffreSyncFlush RESET FLUSH_VAL false en flush din dout = RESET := rfl

/-- A flush comes before the enable. -/
@[simp] theorem dffreSyncFlush_true :
    dffreSyncFlush RESET FLUSH_VAL true en flush din dout =
      if flush then FLUSH_VAL else if en then din else dout := rfl

end FlipFlops

/-! ## Synchronous SRAM -/

/-- `sram`: the storage array and the registered output. Cells `0 … DEPTH-1`
    exist; what the function holds beyond them is the arbitrary value an
    out-of-range read returns. -/
structure Sram (dataWidth : Nat) where
  memory : Nat → BitVec dataWidth
  dataOut : BitVec dataWidth

namespace Sram

variable {dataWidth : Nat}

/-- Byte address to word address: `IDX_BITS'(addr >> BYTE_SHIFT)`. -/
def wordAddr (depth dataWidth : Nat) {addrWidth : Nat} (addr : BitVec addrWidth) : Nat :=
  (addr >>> (clog2 dataWidth - 3)).toNat % 2 ^ clog2 depth

/-- Next contents of the array; a write outside it is lost. -/
def write (depth : Nat) (memory : Nat → BitVec dataWidth) (en : Bool) (wordAddr : Nat)
    (dataIn : BitVec dataWidth) : Nat → BitVec dataWidth :=
  if en && wordAddr < depth then Function.update memory wordAddr dataIn else memory

/-- Next value of `data_out`. -/
def read (memory : Nat → BitVec dataWidth) (cs we oe : Bool) (wordAddr : Nat)
    (dataOut : BitVec dataWidth) : BitVec dataWidth :=
  if cs && !we && oe then memory wordAddr
  else if !cs || we || !oe then 0
  else dataOut

/-- `sram` at a clock edge. -/
def clk (depth : Nat) {addrWidth : Nat} (addr : BitVec addrWidth) (dataIn : BitVec dataWidth)
    (cs we oe : Bool) (s : Sram dataWidth) : Sram dataWidth where
  memory := write depth s.memory (cs && we) (wordAddr depth dataWidth addr) dataIn
  dataOut := read s.memory cs we oe (wordAddr depth dataWidth addr) s.dataOut

/-- The word address in a memory of 32-bit words, as a number. -/
theorem wordAddr_eq (depth : Nat) {addrWidth : Nat} (addr : BitVec addrWidth) :
    wordAddr depth 32 addr = addr.toNat / 4 % 2 ^ clog2 depth := by
  have hclog : clog2 32 - 3 = 2 := by decide
  rw [wordAddr, hclog, BitVec.toNat_ushiftRight, Nat.shiftRight_eq_div_pow]

/-- Without a write enable the memory keeps its words. -/
@[simp] theorem write_disabled (depth : Nat) (memory : Nat → BitVec dataWidth) (a : Nat)
    (v : BitVec dataWidth) : write depth memory false a v = memory := by
  simp [write]

end Sram

/-! ## One-hot to binary -/

/-- `onehot2bin`: the loop keeps the last set bit it passes, cut to `$clog2` bits. -/
def onehot2bin (onehotWidth : Nat) (in_ : BitVec onehotWidth) : BitVec (clog2 onehotWidth) :=
  (List.range onehotWidth).foldl
    (fun out i => if in_.getLsbD i then BitVec.ofNat (clog2 onehotWidth) i else out) 0

end URiscV.Hdl
