import URiscV.Rv32i.Encode
import URiscV.Spec.Execute

/-!
# The immediate generator and the instruction encoding

`rv_immgen` selects the immediate by the opcode; for the opcodes of each format it
selects the immediate of that format, so it undoes the encoding and the encoding
undoes it.

## Key results

- `rvImmgen_of_formatOf`: `rv_immgen` on the words of a format
- `rvImmgen_inverts_encode`: decoding and encoding are inverse
-/

namespace URiscV.Hdl

open Rv32i (Format Fields opcode fields formatOf)

/-- `rv_immgen` yields the immediate of the format of the opcode. -/
theorem rvImmgen_of_formatOf {f : Format} {w : Word} (h : formatOf (opcode w) = some f) :
    rvImmgen w = f.imm w := by
  obtain ⟨op, hop⟩ : ∃ op, opcode w = op := ⟨_, rfl⟩
  rw [rvImmgen_of_opcode hop]
  rw [hop] at h
  -- an opcode without a format selects no immediate
  unfold formatOf at h
  split at h <;> cases h <;> rfl

/-- **Immediate decoding inverts the encoding.** Take any opcode of a format with an
    immediate. For every number that the immediate of the format represents, and
    whatever the remaining fields are, `rv_immgen` yields that number, as a word, from
    the encoded word. Conversely, its output on any word with that opcode is an
    immediate of the format, and encoding it with the fields of the word gives the word
    again. -/
theorem rvImmgen_inverts_encode (f : Format) (op : BitVec 7) (hop : formatOf op = some f) :
    (∀ (x : Fields) (v : Int), f.Representable v →
      rvImmgen (f.encode op x (BitVec.ofInt 32 v)) = BitVec.ofInt 32 v ∧
        (rvImmgen (f.encode op x (BitVec.ofInt 32 v))).toInt = v) ∧
    ∀ w : Word, opcode w = op → f.Representable (rvImmgen w).toInt ∧
      f.encode op (fields w) (rvImmgen w) = w := by
  constructor
  -- encode, then decode: the number fits, so the word is its immediate
  · intro x v hv
    have hv32 : (BitVec.ofInt 32 v).toInt = v := Format.toInt_ofInt_of_representable hv
    have hfits : f.Fits (BitVec.ofInt 32 v) := by
      rw [Format.fits_iff, hv32]
      exact hv
    have himm : rvImmgen (f.encode op x (BitVec.ofInt 32 v)) = BitVec.ofInt 32 v := by
      rw [rvImmgen_of_formatOf (by rw [Format.opcode_encode, hop]), Format.imm_encode hfits]
    exact ⟨himm, by rw [himm, hv32]⟩
  -- decode, then encode: the word has its own fields
  · rintro w rfl
    rw [rvImmgen_of_formatOf hop]
    exact ⟨Format.fits_iff.mp (f.fits_imm w), f.encode_imm w⟩

/-- A branch back by 4096 bytes, the farthest there is: `beq x1, x2, -4096`. -/
theorem rvImmgen_inverts_encode_beq :
    (rvImmgen (Format.b.encode 0b1100011#7 { rd := 0, rs1 := 1, rs2 := 2, funct3 := 0 }
      (BitVec.ofInt 32 (-4096)))).toInt = -4096 ∧
    Format.b.encode 0b1100011#7 (fields 0x80208063#32) (rvImmgen 0x80208063#32) = 0x80208063#32 :=
  have h := rvImmgen_inverts_encode .b 0b1100011#7 rfl
  ⟨(h.1 _ (-4096) (by decide)).2, (h.2 0x80208063#32 rfl).2⟩

end URiscV.Hdl
