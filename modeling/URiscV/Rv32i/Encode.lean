import URiscV.ForStd.BitVec
import URiscV.Rv32i.Isa

/-!
# RV32I instruction formats

The layouts of the formats that carry an immediate: where the bits of the immediate
and of the register fields stand in the instruction word. Which immediates a format
represents is a matter of numbers: twelve signed bits (I, S), even numbers of thirteen
(B) or twenty-one (J) signed bits, multiples of 4096 (U).

## Key results

- `imm_encode`: the immediate is read back from the encoded word
- `encode_imm`: the word is built again from its fields and its immediate
- `fits_iff`: the immediates of a format as numbers
-/

namespace Rv32i

/-- The formats with an immediate. -/
inductive Format where
  | i | s | b | u | j
deriving DecidableEq, Repr

/-- The register fields and `funct3`; a format has some of them. -/
structure Fields where
  rd : Reg
  rs1 : Reg
  rs2 : Reg
  funct3 : BitVec 3
deriving DecidableEq, Repr

/-- The fields of a word. -/
def fields (w : Word) : Fields where
  rd := rd w
  rs1 := rs1 w
  rs2 := rs2 w
  funct3 := funct3 w

/-- The format of the instructions of an opcode that have an immediate operand. -/
def formatOf (op : BitVec 7) : Option Format :=
  match op with
  | 0b1101111#7 => some .j
  | 0b1100111#7 => some .i
  | 0b0010011#7 => some .i
  | 0b0000011#7 => some .i
  | 0b0100011#7 => some .s
  | 0b1100011#7 => some .b
  | 0b0110111#7 => some .u
  | 0b0010111#7 => some .u
  | _ => none

namespace Format

/-- The numbers that the immediate of a format represents. -/
def Representable (f : Format) (v : Int) : Prop :=
  match f with
  | .i => -2 ^ 11 ≤ v ∧ v < 2 ^ 11
  | .s => -2 ^ 11 ≤ v ∧ v < 2 ^ 11
  | .b => (-2 ^ 12 ≤ v ∧ v < 2 ^ 12) ∧ v % 2 = 0
  | .u => (-2 ^ 31 ≤ v ∧ v < 2 ^ 31) ∧ v % 2 ^ 12 = 0
  | .j => (-2 ^ 20 ≤ v ∧ v < 2 ^ 20) ∧ v % 2 = 0

instance (v : Int) : (f : Format) → Decidable (f.Representable v)
  | .i => inferInstanceAs (Decidable (_ ∧ _))
  | .s => inferInstanceAs (Decidable (_ ∧ _))
  | .b => inferInstanceAs (Decidable (_ ∧ _))
  | .u => inferInstanceAs (Decidable (_ ∧ _))
  | .j => inferInstanceAs (Decidable (_ ∧ _))

/-- The same of words. -/
def Fits (f : Format) (v : Word) : Prop :=
  match f with
  | .i => (v.extractLsb' 0 12).signExtend 32 = v
  | .s => (v.extractLsb' 0 12).signExtend 32 = v
  | .b => (v.extractLsb' 0 13).signExtend 32 = v ∧ v.extractLsb' 0 1 = 0#1
  | .u => v.extractLsb' 0 12 = 0#12
  | .j => (v.extractLsb' 0 21).signExtend 32 = v ∧ v.extractLsb' 0 1 = 0#1

/-- The instruction word with the opcode `op`, the fields `x` and the immediate `v`. -/
def encode (f : Format) (op : BitVec 7) (x : Fields) (v : Word) : Word :=
  match f with
  | .i => v.extractLsb' 0 12 ++ x.rs1 ++ x.funct3 ++ x.rd ++ op
  | .s => v.extractLsb' 5 7 ++ x.rs2 ++ x.rs1 ++ x.funct3 ++ v.extractLsb' 0 5 ++ op
  | .b =>
    v.extractLsb' 12 1 ++ v.extractLsb' 5 6 ++ x.rs2 ++ x.rs1 ++ x.funct3 ++
      v.extractLsb' 1 4 ++ v.extractLsb' 11 1 ++ op
  | .u => v.extractLsb' 12 20 ++ x.rd ++ op
  | .j =>
    v.extractLsb' 20 1 ++ v.extractLsb' 1 10 ++ v.extractLsb' 11 1 ++ v.extractLsb' 12 8 ++
      x.rd ++ op

/-- The immediate of a word of the format. -/
def imm (f : Format) (w : Word) : Word :=
  match f with
  | .i => immI w
  | .s => immS w
  | .b => immB w
  | .u => immU w
  | .j => immJ w

section Encode

variable {f : Format} {op : BitVec 7} {x : Fields} {v w : Word}

/-! ## Reading back -/

/-- An encoded word has the opcode it was given. -/
theorem opcode_encode : opcode (f.encode op x v) = op := by
  cases f <;> exact BitVec.extractLsb'_append_eq_right

/-- An immediate of the I format is read back. -/
theorem immI_encode (h : Fits .i v) : immI (encode .i op x v) = v := by
  have hs (k l : Nat) : (encode .i op x v).extractLsb' k l =
      (v.extractLsb' 0 12 ++ x.rs1 ++ x.funct3 ++ x.rd ++ op).extractLsb' k l := rfl
  rw [immI, hs 20 12]
  simp (disch := decide) only [BitVec.extractLsb'_append_eq_of_le, Nat.reduceSub,
    BitVec.extractLsb'_eq_self]
  exact h

/-- One of the S format, which stands in two fields. -/
theorem immS_encode (h : Fits .s v) : immS (encode .s op x v) = v := by
  have hs (k l : Nat) : (encode .s op x v).extractLsb' k l =
      (v.extractLsb' 5 7 ++ x.rs2 ++ x.rs1 ++ x.funct3 ++ v.extractLsb' 0 5 ++
        op).extractLsb' k l := rfl
  rw [immS, hs 25 7, hs 7 5]
  simp (disch := decide) only [BitVec.extractLsb'_append_eq_of_le,
    BitVec.extractLsb'_append_eq_of_add_le, Nat.reduceSub, BitVec.extractLsb'_eq_self]
  -- bits 5 to 11 stand next to bits 0 to 4 again
  rw [BitVec.extractLsb'_append_extractLsb'_eq_extractLsb' (by rfl)]
  exact h

/-- One of the B format, whose bit 0 is not stored. -/
theorem immB_encode (h : Fits .b v) : immB (encode .b op x v) = v := by
  obtain ⟨hext, hzero⟩ := h
  have hs (k l : Nat) : (encode .b op x v).extractLsb' k l =
      (v.extractLsb' 12 1 ++ v.extractLsb' 5 6 ++ x.rs2 ++ x.rs1 ++ x.funct3 ++
        v.extractLsb' 1 4 ++ v.extractLsb' 11 1 ++ op).extractLsb' k l := rfl
  -- the bit that the format leaves out is a slice of the immediate, too
  rw [immB, hs 31 1, hs 7 1, hs 25 6, hs 8 4, ← hzero]
  simp (disch := decide) only [BitVec.extractLsb'_append_eq_of_le,
    BitVec.extractLsb'_append_eq_of_add_le, Nat.reduceSub, BitVec.extractLsb'_eq_self]
  -- the pieces of the immediate are adjacent again
  simp (disch := rfl) only [BitVec.extractLsb'_append_extractLsb'_eq_extractLsb']
  exact hext

/-- One of the U format, whose low bits are zero. -/
theorem immU_encode (h : Fits .u v) : immU (encode .u op x v) = v := by
  have hzero : v.extractLsb' 0 12 = 0#12 := h
  have hs (k l : Nat) : (encode .u op x v).extractLsb' k l =
      (v.extractLsb' 12 20 ++ x.rd ++ op).extractLsb' k l := rfl
  rw [immU, hs 12 20, ← hzero]
  simp (disch := decide) only [BitVec.extractLsb'_append_eq_of_le, Nat.reduceSub,
    BitVec.extractLsb'_eq_self]
  rw [BitVec.extractLsb'_append_extractLsb'_eq_extractLsb' (by rfl)]
  exact BitVec.extractLsb'_eq_self

/-- One of the J format, whose bits are permuted. -/
theorem immJ_encode (h : Fits .j v) : immJ (encode .j op x v) = v := by
  obtain ⟨hext, hzero⟩ := h
  have hs (k l : Nat) : (encode .j op x v).extractLsb' k l =
      (v.extractLsb' 20 1 ++ v.extractLsb' 1 10 ++ v.extractLsb' 11 1 ++ v.extractLsb' 12 8 ++
        x.rd ++ op).extractLsb' k l := rfl
  rw [immJ, hs 31 1, hs 12 8, hs 20 1, hs 21 10, ← hzero]
  simp (disch := decide) only [BitVec.extractLsb'_append_eq_of_le,
    BitVec.extractLsb'_append_eq_of_add_le, Nat.reduceSub, BitVec.extractLsb'_eq_self]
  simp (disch := rfl) only [BitVec.extractLsb'_append_extractLsb'_eq_extractLsb']
  exact hext

/-- **The immediate is read back.** -/
theorem imm_encode (h : f.Fits v) : f.imm (f.encode op x v) = v := by
  cases f with
  | i => exact immI_encode h
  | s => exact immS_encode h
  | b => exact immB_encode h
  | u => exact immU_encode h
  | j => exact immJ_encode h

/-! ## Building the word again -/

/-- Slices of an immediate that is a sign extension. -/
theorem extractLsb'_imm {n k l : Nat} {y : BitVec n} (h : k + l ≤ n) (hn : n ≤ 32) :
    (y.signExtend 32 : Word).extractLsb' k l = y.extractLsb' k l :=
  BitVec.extractLsb'_signExtend_of_le h hn

/-- A word is the encoding of its I immediate. -/
theorem encode_immI (w : Word) : encode .i (opcode w) (fields w) (immI w) = w := by
  simp only [encode, immI]
  rw [extractLsb'_imm (by decide) (by decide)]
  simp only [BitVec.extractLsb'_eq_self, fields, rd, rs1, funct3, opcode]
  simp (disch := rfl) only [BitVec.extractLsb'_append_extractLsb'_eq_extractLsb']
  exact BitVec.extractLsb'_eq_self

/-- Of its S immediate. -/
theorem encode_immS (w : Word) : encode .s (opcode w) (fields w) (immS w) = w := by
  simp only [encode, immS]
  rw [extractLsb'_imm (by decide) (by decide), extractLsb'_imm (by decide) (by decide)]
  simp (disch := decide) only [BitVec.extractLsb'_append_eq_of_le,
    BitVec.extractLsb'_append_eq_of_add_le, Nat.reduceSub, BitVec.extractLsb'_eq_self, fields,
    rs1, rs2, funct3, opcode]
  simp (disch := rfl) only [BitVec.extractLsb'_append_extractLsb'_eq_extractLsb']
  exact BitVec.extractLsb'_eq_self

/-- Of its B immediate. -/
theorem encode_immB (w : Word) : encode .b (opcode w) (fields w) (immB w) = w := by
  simp only [encode, immB]
  rw [extractLsb'_imm (by decide) (by decide), extractLsb'_imm (by decide) (by decide),
    extractLsb'_imm (by decide) (by decide), extractLsb'_imm (by decide) (by decide)]
  simp (disch := decide) only [BitVec.extractLsb'_append_eq_of_le,
    BitVec.extractLsb'_append_eq_of_add_le, Nat.reduceSub, BitVec.extractLsb'_eq_self, fields,
    rs1, rs2, funct3, opcode]
  simp (disch := rfl) only [BitVec.extractLsb'_append_extractLsb'_eq_extractLsb']
  exact BitVec.extractLsb'_eq_self

/-- Of its U immediate. -/
theorem encode_immU (w : Word) : encode .u (opcode w) (fields w) (immU w) = w := by
  simp only [encode, immU]
  rw [BitVec.extractLsb'_append_eq_left]
  simp only [fields, rd, opcode]
  simp (disch := rfl) only [BitVec.extractLsb'_append_extractLsb'_eq_extractLsb']
  exact BitVec.extractLsb'_eq_self

/-- Of its J immediate. -/
theorem encode_immJ (w : Word) : encode .j (opcode w) (fields w) (immJ w) = w := by
  simp only [encode, immJ]
  rw [extractLsb'_imm (by decide) (by decide), extractLsb'_imm (by decide) (by decide),
    extractLsb'_imm (by decide) (by decide), extractLsb'_imm (by decide) (by decide)]
  simp (disch := decide) only [BitVec.extractLsb'_append_eq_of_le,
    BitVec.extractLsb'_append_eq_of_add_le, Nat.reduceSub, BitVec.extractLsb'_eq_self, fields,
    rd, opcode]
  simp (disch := rfl) only [BitVec.extractLsb'_append_extractLsb'_eq_extractLsb']
  exact BitVec.extractLsb'_eq_self

/-- **The word is built again.** -/
theorem encode_imm (f : Format) (w : Word) : f.encode (opcode w) (fields w) (f.imm w) = w := by
  cases f with
  | i => exact encode_immI w
  | s => exact encode_immS w
  | b => exact encode_immB w
  | u => exact encode_immU w
  | j => exact encode_immJ w

/-! ## Immediates as numbers -/

/-- A sign extension of `n` bits is that of its own low `n` bits. -/
theorem signExtend_imm {n : Nat} (y : BitVec n) (hn : n ≤ 32) :
    ((y.signExtend 32 : Word).extractLsb' 0 n).signExtend 32 = y.signExtend 32 := by
  rw [extractLsb'_imm (by omega) hn, BitVec.extractLsb'_eq_self]

/-- The lowest bit of an offset is zero. -/
theorem lowBit_imm {n : Nat} (y : BitVec n) (hn : n + 1 ≤ 32) :
    ((y ++ 0#1).signExtend 32 : Word).extractLsb' 0 1 = 0#1 := by
  rw [extractLsb'_imm (by omega) hn, BitVec.extractLsb'_append_eq_right]

/-- The immediate of a word is one of its format. -/
theorem fits_imm (f : Format) (w : Word) : f.Fits (f.imm w) := by
  cases f with
  | i => exact signExtend_imm _ (by decide)
  | s => exact signExtend_imm _ (by decide)
  | b => exact ⟨signExtend_imm _ (by decide), lowBit_imm _ (by decide)⟩
  | u => exact BitVec.extractLsb'_append_eq_right
  | j => exact ⟨signExtend_imm _ (by decide), lowBit_imm _ (by decide)⟩

/-- What a format can hold, as a range and an alignment. -/
theorem fits_iff : f.Fits v ↔ f.Representable v.toInt := by
  cases f with
  | i | s => exact BitVec.signExtend_extractLsb'_zero_eq_self_iff (by decide) (by decide)
  | b | j =>
    exact and_congr (BitVec.signExtend_extractLsb'_zero_eq_self_iff (by decide) (by decide))
      (BitVec.extractLsb'_zero_eq_zero_iff (by decide))
  | u =>
    have hlo : -2 ^ 31 ≤ v.toInt := BitVec.le_toInt v
    have hhi : v.toInt < 2 ^ 31 := BitVec.toInt_lt
    show v.extractLsb' 0 12 = 0#12 ↔ _
    rw [BitVec.extractLsb'_zero_eq_zero_iff (by decide)]
    exact ⟨fun h => ⟨⟨hlo, hhi⟩, h⟩, fun h => h.2⟩

end Encode

/-- The represented numbers are signed 32-bit numbers. -/
theorem toInt_ofInt_of_representable {f : Format} {v : Int} (h : f.Representable v) :
    (BitVec.ofInt 32 v).toInt = v := by
  have hbounds : -2 ^ 31 ≤ v ∧ v < 2 ^ 31 := by
    -- each format has at most 32 signed bits
    cases f <;> simp only [Representable] at h <;> omega
  rw [BitVec.toInt_ofInt]
  exact Int.bmod_eq_of_le (by omega) (by omega)

end Format

end Rv32i
