import URiscV.Rv32i.Memory
import URiscV.Spec.Execute

/-!
# Loads and stores

A load or store word from decoding to write-back, against the RV32I access on the bytes
of the data memory. Decoder, SRAM and write-back ignore `funct3`: every access moves the
whole word its address lies in. LW and SW are right. The narrow accesses are right only on
data that does not show the difference (`LoadOk`, `StoreOk`).

## Key results

- `writeData_eq_iff`: the value a load delivers
- `bytesOf_store_iff`: the memory a store leaves
- `loadStore_iff`: both
-/

namespace URiscV.Hdl

open Rv32i (LoadOp StoreOp loadOp? storeOp? bytesOf byte immI immS opcode_of_loadOp
  opcode_of_storeOp bytesOf_update)

/-! ## When a word access does -/

/-- The load delivers `word`, of which it should extend `op.width` bytes from `offset` on:
    these are the low ones and `word` is no larger a number, or `word` has all bits alike. -/
def LoadOk (op : LoadOp) (offset : Nat) (word : Word) : Prop :=
  if op.unsigned then offset = 0 ∧ word.toNat < 2 ^ (8 * op.width) ∨ word = 0#32
  else
    offset = 0 ∧ -2 ^ (8 * op.width - 1) ≤ word.toInt ∧ word.toInt < 2 ^ (8 * op.width - 1) ∨
      word = 0#32 ∨ word = BitVec.allOnes 32

/-- The store writes all of `v`, of which it should put the low `op.width` bytes at
    `offset`: the bytes `v` has there are those, and its other bytes are in `old` already. -/
def StoreOk (op : StoreOp) (offset : Nat) (old v : Word) : Prop :=
  (∀ i < op.width, byte v (offset + i) = byte v i) ∧
    ∀ i < 4, i < offset ∨ offset + op.width ≤ i → byte v i = byte old i

/-- LW delivers the right value. -/
theorem loadOk_lw (word : Word) : LoadOk .lw 0 word :=
  .inl ⟨rfl, BitVec.le_toInt word, BitVec.toInt_lt⟩

/-- SW leaves the right memory. -/
theorem storeOk_sw (old v : Word) : StoreOk .sw 0 old v := by
  constructor
  · intro i _
    rw [Nat.zero_add]
  · intro i hi hout
    have hw : StoreOp.sw.width = 4 := rfl
    omega

/-- A slice of the word extends to the word. -/
theorem loadOk_iff {op : LoadOp} {offset : Nat} {word : Word} (hd : op.width ∣ offset)
    (hlt : offset < 4) :
    (let slice := word.extractLsb' (8 * offset) (8 * op.width)
      if op.unsigned then slice.setWidth 32 else slice.signExtend 32) = word ↔
      LoadOk op offset word := by
  have hfit := Rv32i.add_le_of_dvd op.width_cases hd
  have hpos : 0 < op.width := by rcases op.width_cases with h | h | h <;> omega
  rw [LoadOk]
  by_cases h0 : offset = 0
  · -- the low bytes
    subst h0
    cases op.unsigned with
    | true =>
      simp only [if_true, Nat.mul_zero, true_and]
      rw [BitVec.setWidth_extractLsb'_zero_eq_self_iff]
      have hzero : word = 0#32 → word.toNat < 2 ^ (8 * op.width) := by
        rintro rfl
        exact Nat.two_pow_pos _
      exact ⟨.inl, fun h => h.elim id hzero⟩
    | false =>
      simp only [Bool.false_eq_true, if_false, Nat.mul_zero, true_and]
      rw [BitVec.signExtend_extractLsb'_zero_eq_self_iff (by omega) (by omega)]
      have hpow : (1 : Int) ≤ 2 ^ (8 * op.width - 1) := by
        exact_mod_cast Nat.one_le_two_pow
      have hzero : word = 0#32 → -2 ^ (8 * op.width - 1) ≤ word.toInt ∧
          word.toInt < 2 ^ (8 * op.width - 1) := by
        rintro rfl
        have hval : (0#32).toInt = 0 := rfl
        omega
      have hones : word = BitVec.allOnes 32 → -2 ^ (8 * op.width - 1) ≤ word.toInt ∧
          word.toInt < 2 ^ (8 * op.width - 1) := by
        rintro rfl
        have hval : (BitVec.allOnes 32).toInt = -1 := by decide
        omega
      exact ⟨.inl, fun h => h.elim id fun h => h.elim hzero hones⟩
  · -- bytes above the low ones
    have hle : op.width ≤ offset := Nat.le_of_dvd (by omega) hd
    cases op.unsigned with
    | true =>
      simp only [if_true, h0, false_and, false_or]
      exact BitVec.setWidth_extractLsb'_eq_self_iff (by omega)
    | false =>
      simp only [Bool.false_eq_true, if_false, h0, false_and, false_or]
      exact BitVec.signExtend_extractLsb'_eq_self_iff (by omega) (by omega) (by omega)

/-- The bytes of the memory with the whole word written are those the store leaves. -/
theorem storeOk_iff {op : StoreOp} {depth addr : Nat} {words : Nat → Word} {v : Word}
    (hd : op.width ∣ addr) (hlt : addr < 4 * depth) :
    (∀ k < 4 * depth, bytesOf (Function.update words (addr / 4) v) k =
      op.apply (bytesOf words) addr v k) ↔ StoreOk op (addr % 4) (words (addr / 4)) v := by
  have hfit := Rv32i.add_le_of_dvd op.width_cases hd
  constructor
  · intro h
    constructor
    · intro i hi
      have hk := h (addr + i) (by omega)
      rw [bytesOf_update, if_pos (by omega), StoreOp.apply, if_pos (by omega),
        Nat.add_sub_cancel_left] at hk
      rwa [show (addr + i) % 4 = addr % 4 + i by omega] at hk
    · intro i hi hout
      have hk := h (4 * (addr / 4) + i) (by omega)
      rw [bytesOf_update, if_pos (by omega), StoreOp.apply, if_neg (by omega), bytesOf] at hk
      rwa [show (4 * (addr / 4) + i) % 4 = i by omega,
        show (4 * (addr / 4) + i) / 4 = addr / 4 by omega] at hk
  · rintro ⟨hin, hout⟩ k hk
    rw [bytesOf_update, StoreOp.apply]
    -- the word of the store, or another one
    by_cases hword : k / 4 = addr / 4
    · rw [if_pos hword]
      -- a byte that the store is for, or another one of the word
      by_cases hacc : addr ≤ k ∧ k < addr + op.width
      · rw [if_pos hacc, ← hin (k - addr) (by omega)]
        congr 1
        omega
      · rw [if_neg hacc, bytesOf, hword]
        exact hout (k % 4) (by omega) (by omega)
    · -- another word
      rw [if_neg hword, if_neg (by omega)]

/-! ## One access -/

section Access

variable {dmemDepth : Nat} {x p a b v1 v2 w : Word} {m : RvMemu}

/-- MEM after the word `w` at `p` has passed it with forwarded operands `v1` and `v2`. -/
def access (dmemDepth : Nat) (x p a b v1 v2 w : Word) (m : RvMemu) : RvMemu :=
  let idex := RvIdu.decode p w a b
  m.clk dmemDepth true (RvExu.clk true idex v2 (RvExu.out x idex v1 v2).exResult)

/-- `write_data` of the instruction that has left MEM. -/
def RvMemu.writeData (m : RvMemu) : Word := rvWbu m.uDmem.dataOut m.mwb.aluout m.mwb.memtoreg

/-- An address within the memory does not wrap. -/
theorem wordAddr_of_lt {addr : Word} (h : addr.toNat < 4 * dmemDepth) :
    Sram.wordAddr dmemDepth 32 addr = addr.toNat / 4 := by
  have hle : dmemDepth ≤ 2 ^ clog2 dmemDepth := Nat.le_pow_clog (by omega) dmemDepth
  rw [Sram.wordAddr_eq]
  exact Nat.mod_eq_of_lt (by omega)

/-- A load delivers the word its address lies in, whatever its width. -/
theorem writeData_of_load (hop : Rv32i.opcode w = 0b0000011)
    (h : (v1 + immI w).toNat < 4 * dmemDepth) :
    (access dmemDepth x p a b v1 v2 w m).writeData =
      m.uDmem.memory ((v1 + immI w).toNat / 4) := by
  have hctrl : rvDatapathCtrl (ifidOpcode w) =
      { alusrc := true, memtoreg := true, regwrite := true, memread := true, aluOp := 0b11 } :=
    ctrl_of_opcode hop
  have himm : rvImmgen w = immI w := rvImmgen_of_opcode hop
  rw [access, out_decode hctrl himm, ← wordAddr_of_lt h]
  simp only [RvMemu.writeData, RvMemu.clk, RvExu.clk, RvIdu.decode, hctrl]
  rfl

/-- A store writes the word its address lies in, whatever its width. -/
theorem memory_of_store (hop : Rv32i.opcode w = 0b0100011)
    (h : (v1 + immS w).toNat < 4 * dmemDepth) :
    (access dmemDepth x p a b v1 v2 w m).uDmem.memory =
      Function.update m.uDmem.memory ((v1 + immS w).toNat / 4) v2 := by
  have hctrl : rvDatapathCtrl (ifidOpcode w) =
      { alusrc := true, memwrite := true, aluOp := 0b11 } :=
    ctrl_of_opcode hop
  have himm : rvImmgen w = immS w := rvImmgen_of_opcode hop
  have hlt : (v1 + immS w).toNat / 4 < dmemDepth := by omega
  rw [access, out_decode hctrl himm]
  simp only [RvMemu.clk, RvExu.clk, RvIdu.decode, hctrl]
  show Sram.write dmemDepth m.uDmem.memory true (Sram.wordAddr dmemDepth 32 (v1 + immS w)) v2 = _
  rw [wordAddr_of_lt h, Sram.write, Bool.true_and, if_pos (decide_eq_true hlt)]

/-- What a load brings back, against the bytes of the memory. -/
theorem writeData_eq_iff {op : LoadOp} (hop : loadOp? w = some op)
    (hd : op.width ∣ (v1 + immI w).toNat) (h : (v1 + immI w).toNat < 4 * dmemDepth) :
    (access dmemDepth x p a b v1 v2 w m).writeData =
      op.value (bytesOf m.uDmem.memory) (v1 + immI w).toNat ↔
    LoadOk op ((v1 + immI w).toNat % 4) (m.uDmem.memory ((v1 + immI w).toNat / 4)) := by
  have hd4 : op.width ∣ (v1 + immI w).toNat % 4 := by
    rcases op.width_cases with hw | hw | hw <;> rw [hw] at hd ⊢ <;> omega
  rw [writeData_of_load (opcode_of_loadOp hop) h, LoadOp.value_bytesOf hd,
    ← loadOk_iff hd4 (Nat.mod_lt _ (by omega)), eq_comm]

/-- And what a store leaves there. -/
theorem bytesOf_store_iff {op : StoreOp} (hop : storeOp? w = some op)
    (hd : op.width ∣ (v1 + immS w).toNat) (h : (v1 + immS w).toNat < 4 * dmemDepth) :
    (∀ k < 4 * dmemDepth, bytesOf (access dmemDepth x p a b v1 v2 w m).uDmem.memory k =
      op.apply (bytesOf m.uDmem.memory) (v1 + immS w).toNat v2 k) ↔
    StoreOk op ((v1 + immS w).toNat % 4) (m.uDmem.memory ((v1 + immS w).toNat / 4)) v2 := by
  rw [memory_of_store (opcode_of_storeOp hop) h]
  exact storeOk_iff hd h

/-- **Loads and stores.** Take any load or store word `w`, any operands `v1` and `v2`
    presented at EX, and any contents of the data memory, with the address aligned and
    inside the memory.

    * A load delivers the RV32I value exactly when the word in memory is one that a
      word access gets right.
    * A store leaves the bytes that RV32I leaves exactly when `v2` has the right bytes in
      the place of the access, and the old ones in the rest of the word. -/
theorem loadStore_iff (dmemDepth : Nat) (x p a b v1 v2 w : Word) (m : RvMemu) :
    (∀ op, loadOp? w = some op →
      op.width ∣ (v1 + immI w).toNat → (v1 + immI w).toNat < 4 * dmemDepth →
      ((access dmemDepth x p a b v1 v2 w m).writeData =
          op.value (bytesOf m.uDmem.memory) (v1 + immI w).toNat ↔
        LoadOk op ((v1 + immI w).toNat % 4) (m.uDmem.memory ((v1 + immI w).toNat / 4)))) ∧
    (∀ op, storeOp? w = some op →
      op.width ∣ (v1 + immS w).toNat → (v1 + immS w).toNat < 4 * dmemDepth →
      ((∀ k < 4 * dmemDepth, bytesOf (access dmemDepth x p a b v1 v2 w m).uDmem.memory k =
          op.apply (bytesOf m.uDmem.memory) (v1 + immS w).toNat v2 k) ↔
        StoreOk op ((v1 + immS w).toNat % 4)
          (m.uDmem.memory ((v1 + immS w).toNat / 4)) v2)) :=
  ⟨fun _ hop hd h => writeData_eq_iff hop hd h, fun _ hop hd h => bytesOf_store_iff hop hd h⟩

/-- A data memory with 0x1234 in word 0 and zeros elsewhere. -/
def dmem1234 : RvMemu := ⟨⟨fun j => if j = 0 then 0x1234 else 0, 0⟩, MemWb.zero⟩

/-- `lw x1, 0(x2)` and `sw x1, 0(x2)` at address 0. -/
theorem loadStore_lw_sw :
    (access 256 0 0 0 0 0 0 0x00012083 dmem1234).writeData =
      LoadOp.lw.value (bytesOf dmem1234.uDmem.memory) 0 ∧
    ∀ k < 1024, bytesOf (access 256 0 0 0 0 0 7 0x00112023 dmem1234).uDmem.memory k =
      StoreOp.sw.apply (bytesOf dmem1234.uDmem.memory) 0 7 k :=
  ⟨((loadStore_iff 256 0 0 0 0 0 0 0x00012083 dmem1234).1 .lw (by decide) (by decide)
      (by decide)).mpr (loadOk_lw _),
    ((loadStore_iff 256 0 0 0 0 0 7 0x00112023 dmem1234).2 .sw (by decide) (by decide)
      (by decide)).mpr (storeOk_sw _ _)⟩

/-- `lb x1, 0(x2)` delivers 0x1234 instead of 0x34, and `sb x1, 0(x2)` clears the byte at
    address 1 as well. -/
theorem loadStore_lb_sb_ne :
    loadOp? 0x00010083 = some .lb ∧
    (access 256 0 0 0 0 0 0 0x00010083 dmem1234).writeData ≠
      LoadOp.lb.value (bytesOf dmem1234.uDmem.memory) 0 ∧
    storeOp? 0x00110023 = some .sb ∧
    bytesOf (access 256 0 0 0 0 0 0 0x00110023 dmem1234).uDmem.memory 1 ≠
      StoreOp.sb.apply (bytesOf dmem1234.uDmem.memory) 0 0 1 :=
  ⟨by decide, by decide, by decide, by decide⟩

end Access

end URiscV.Hdl
