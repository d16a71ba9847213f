import URiscV.ForStd.BitVec
import URiscV.Rv32i.Isa

/-!
# Loads and stores of RV32I

The eight access instructions on a memory of bytes, little-endian. Addresses are
natural numbers: an aligned access does not wrap around the address space.
`bytesOf` reads a memory of words as bytes.

## Key results

- `readBytes_bytesOf`: the bytes of an access that stays within a word are a slice of it
-/

namespace Rv32i

/-- A byte at every address. -/
abbrev Bytes := Nat → BitVec 8

/-- The `n` bytes at an address as a number, little-endian. -/
def readBytes (m : Bytes) (addr : Nat) : (n : Nat) → BitVec (8 * n)
  | 0 => 0#0
  | n + 1 => (m (addr + n) ++ readBytes m addr n).cast (Nat.add_comm 8 (8 * n))

/-- Only the bytes of the access matter. -/
theorem readBytes_congr {m m' : Bytes} {addr n : Nat}
    (h : ∀ k, addr ≤ k → k < addr + n → m k = m' k) : readBytes m addr n = readBytes m' addr n := by
  induction n with
  | zero => rfl
  | succ n ih =>
    rw [readBytes, readBytes, h (addr + n) (by omega) (by omega),
      ih fun k hk hk' => h k hk (by omega)]

/-- Byte `i` of a word. -/
def byte (v : Word) (i : Nat) : BitVec 8 := v.extractLsb' (8 * i) 8

/-! ## Loads -/

inductive LoadOp where
  | lb | lh | lw | lbu | lhu
deriving DecidableEq, Repr

/-- Bytes that are read. -/
def LoadOp.width : LoadOp → Nat
  | .lb | .lbu => 1
  | .lh | .lhu => 2
  | .lw => 4

/-- The loaded value is zero-extended. -/
def LoadOp.unsigned : LoadOp → Bool
  | .lbu | .lhu => true
  | .lb | .lh | .lw => false

/-- The loaded value. -/
def LoadOp.value (op : LoadOp) (m : Bytes) (addr : Nat) : Word :=
  if op.unsigned then (readBytes m addr op.width).setWidth 32
  else (readBytes m addr op.width).signExtend 32

/-- The access of a load word; `none` on every other word. -/
def loadOp? (w : Word) : Option LoadOp :=
  if opcode w = 0b0000011 then
    match funct3 w with
    | 0b000#3 => some .lb
    | 0b001#3 => some .lh
    | 0b010#3 => some .lw
    | 0b100#3 => some .lbu
    | 0b101#3 => some .lhu
    | _ => none
  else none

/-! ## Stores -/

inductive StoreOp where
  | sb | sh | sw
deriving DecidableEq, Repr

/-- Bytes that are written. -/
def StoreOp.width : StoreOp → Nat
  | .sb => 1
  | .sh => 2
  | .sw => 4

/-- The memory after the low bytes of `v` are stored. -/
def StoreOp.apply (op : StoreOp) (m : Bytes) (addr : Nat) (v : Word) : Bytes := fun k =>
  if addr ≤ k ∧ k < addr + op.width then byte v (k - addr) else m k

/-- The access of a store word; `none` on every other word. -/
def storeOp? (w : Word) : Option StoreOp :=
  if opcode w = 0b0100011 then
    match funct3 w with
    | 0b000#3 => some .sb
    | 0b001#3 => some .sh
    | 0b010#3 => some .sw
    | _ => none
  else none

/-- A load has the opcode LOAD. -/
theorem opcode_of_loadOp {w : Word} {op : LoadOp} (h : loadOp? w = some op) :
    opcode w = 0b0000011 := by
  unfold loadOp? at h
  split at h
  · assumption
  · cases h

/-- And a store the opcode STORE. -/
theorem opcode_of_storeOp {w : Word} {op : StoreOp} (h : storeOp? w = some op) :
    opcode w = 0b0100011 := by
  unfold storeOp? at h
  split at h
  · assumption
  · cases h

/-! ## Memories of words -/

/-- The bytes of a memory of words, little-endian. -/
def bytesOf (words : Nat → Word) : Bytes := fun k => byte (words (k / 4)) (k % 4)

/-- A word that is written changes its own four bytes. -/
theorem bytesOf_update (words : Nat → Word) (j : Nat) (v : Word) (k : Nat) :
    bytesOf (Function.update words j v) k =
      if k / 4 = j then byte v (k % 4) else bytesOf words k := by
  by_cases h : k / 4 = j
  · rw [if_pos h, bytesOf, h, Function.update_self]
  · rw [if_neg h, bytesOf, Function.update_of_ne h, bytesOf]

/-- An access that stays within a word reads a slice of it. -/
theorem readBytes_bytesOf {words : Nat → Word} {addr n : Nat} (h : addr % 4 + n ≤ 4) :
    readBytes (bytesOf words) addr n = (words (addr / 4)).extractLsb' (8 * (addr % 4)) (8 * n) := by
  induction n with
  | zero => exact BitVec.eq_of_zero_length rfl
  | succ n ih =>
    have hdiv : (addr + n) / 4 = addr / 4 := by omega
    have hmod : (addr + n) % 4 = addr % 4 + n := by omega
    rw [readBytes, ih (by omega), bytesOf, byte, hdiv, hmod]
    apply BitVec.eq_of_getLsbD_eq
    intro i hi
    rw [BitVec.getLsbD_cast, BitVec.getLsbD_append]
    simp only [BitVec.getLsbD_extractLsb']
    -- the bits of the earlier bytes, and those of the last one
    by_cases hlow : i < 8 * n
    · simp [hlow, hi]
    · simp [hlow, hi, show i - 8 * n < 8 by omega,
        show 8 * (addr % 4 + n) + (i - 8 * n) = 8 * (addr % 4) + i by omega]

/-- An aligned access stays within a word. -/
theorem add_le_of_dvd {addr width : Nat} (hw : width = 1 ∨ width = 2 ∨ width = 4)
    (h : width ∣ addr) : addr % 4 + width ≤ 4 := by
  rcases hw with rfl | rfl | rfl <;> omega

/-- A load reads a byte, a halfword or a word. -/
theorem LoadOp.width_cases (op : LoadOp) : op.width = 1 ∨ op.width = 2 ∨ op.width = 4 := by
  cases op <;> decide

/-- A store writes one. -/
theorem StoreOp.width_cases (op : StoreOp) : op.width = 1 ∨ op.width = 2 ∨ op.width = 4 := by
  cases op <;> decide

/-- The loaded value is an extension of a slice of the word. -/
theorem LoadOp.value_bytesOf {words : Nat → Word} {addr : Nat} {op : LoadOp}
    (h : op.width ∣ addr) : op.value (bytesOf words) addr =
      let slice := (words (addr / 4)).extractLsb' (8 * (addr % 4)) (8 * op.width)
      if op.unsigned then slice.setWidth 32 else slice.signExtend 32 := by
  rw [LoadOp.value, readBytes_bytesOf (add_le_of_dvd op.width_cases h)]

end Rv32i
