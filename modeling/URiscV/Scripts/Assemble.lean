import Mathlib.Data.List.GetD
import URiscV.ForStd.Hex
import URiscV.ForStd.Lines
import URiscV.Scripts.Run

/-!
# `scripts/assemble`

The script runs the GNU tools on a source file and writes `.text` as a file for
`$readmemh`, one word a line. `Toolchain` is what it sees of the machine; what it prints
along the way, the listing that goes with the hex file and its warnings about other
sections are left out, nothing reads them.
-/

namespace URiscV.Scripts

namespace Assemble

/-! ## The hex file -/

abbrev Byte := BitVec 8

/-- `int.from_bytes(…, 'little')`. -/
def fromBytesLittle : List Byte → Nat
  | [] => 0
  | b :: bs => b.toNat + 256 * fromBytesLittle bs

/-- `.text`, padded to a multiple of 4 bytes. -/
def pad (raw : List Byte) : List Byte :=
  if raw.length % 4 = 0 then raw else raw ++ List.replicate (4 - raw.length % 4) 0

/-- The instruction words of the padded bytes. -/
def words (raw : List Byte) : List Nat :=
  (List.range (raw.length / 4)).map fun i => fromBytesLittle ((raw.drop (4 * i)).take 4)

/-- `f'{word:08x}'`. -/
def hexWord (word : Nat) : String := String.ofList (Hex.digits 8 word)

/-- The contents of the hex file. -/
def hexText (raw : List Byte) : String :=
  Lines.unlines ("@00000000" :: (words (pad raw)).map hexWord)

/-! ## The script -/

inductive Tool where
  | as | ld | objcopy | objdump
deriving DecidableEq, Repr

def Tool.name : Tool → String
  | .as => "riscv64-unknown-elf-as"
  | .ld => "riscv64-unknown-elf-ld"
  | .objcopy => "riscv64-unknown-elf-objcopy"
  | .objdump => "riscv64-unknown-elf-objdump"

/-- The machine during one call of the script. -/
structure Toolchain where
  /-- The source file is there. -/
  isFile : Bool
  /-- `which`. -/
  installed : Tool → Bool
  /-- Return codes of the four commands. -/
  returncode : Tool → Int
  /-- The bytes of `.text` that `objcopy` leaves in `prog.bin`. -/
  raw : List Byte

/-- How the script ends when it does not run to its end. -/
inductive Exit where
  | message (msg : String)
  | code (n : Nat)
deriving DecidableEq, Repr

/-- The files that the script has written when it ends. -/
structure Files where
  hex : Option String := none
  dis : Bool := false
  elf : Bool := false
deriving DecidableEq, Repr

/-- `check_toolchain`: the tools that are missing. -/
def missing (t : Toolchain) : List Tool :=
  [Tool.as, .ld, .objcopy, .objdump].filter fun x => !t.installed x

def missingText (tools : List Tool) : String :=
  "ERROR: toolchain binaries not found: " ++ ", ".intercalate (tools.map Tool.name) ++
    "\nInstall with:  sudo apt install binutils-riscv64-unknown-elf"

/-- The script behind `check_toolchain`. A tool that fails ends it (`run_tool`), and the
    files written before stay. -/
def build (t : Toolchain) (elf : Bool) : Option Exit × Files :=
  if t.returncode .as != 0 then (some (.code 1), {})
  else if t.returncode .ld != 0 then (some (.code 1), {})
  else if t.returncode .objcopy != 0 then (some (.code 1), {})
  else if t.returncode .objdump != 0 then (some (.code 1), { hex := some (hexText t.raw) })
  else (none, { hex := some (hexText t.raw), dis := true, elf := elf })

/-- The script on the source file `inputAsm`. -/
def main (t : Toolchain) (inputAsm : String) (elf : Bool) : Option Exit × Files :=
  if !t.isFile then (some (.message ("ERROR: input file not found: " ++ inputAsm)), {})
  else if !(missing t).isEmpty then (some (.message (missingText (missing t))), {})
  else build t elf

/-- The exit status that the caller of the script sees. -/
def status : Option Exit → Int
  | none => 0
  | some (.message _) => 1
  | some (.code n) => n

section Lemmas

variable {t : Toolchain} {inputAsm : String} {elf : Bool}

/-- A run with exit status 0 has written the hex file. -/
theorem hex_of_status (h : status (main t inputAsm elf).1 = 0) :
    (main t inputAsm elf).2.hex = some (hexText t.raw) := by
  -- every error on the way to the `.hex` file ends with another status
  unfold main build at *
  split at h
  · cases h
  · split at h
    · cases h
    · split at h
      · cases h
      · split at h
        · cases h
        · split at h
          · cases h
          · split at h
            · cases h
            · simp_all

/-! ## Bytes and words -/

/-- The padded text ends with a whole word. -/
theorem length_pad (raw : List Byte) : (pad raw).length = 4 * ((raw.length + 3) / 4) := by
  unfold pad
  split
  · omega
  · rw [List.length_append, List.length_replicate]
    omega

/-- The padding is zero. -/
theorem getD_pad (raw : List Byte) (k : Nat) : (pad raw).getD k 0 = raw.getD k 0 := by
  unfold pad
  split
  · rfl
  · by_cases hk : k < raw.length
    · rw [List.getD_append _ _ _ _ hk]
    · rw [List.getD_append_right _ _ _ _ (by omega), List.getD_eq_default raw 0 (by omega)]
      by_cases hr : k - raw.length < 4 - raw.length % 4
      · rw [List.getD_replicate _ hr]
      · exact List.getD_eq_default _ _ (by rw [List.length_replicate]; omega)

/-- A number of so many bytes. -/
theorem fromBytesLittle_lt (bs : List Byte) : fromBytesLittle bs < 256 ^ bs.length := by
  induction bs with
  | nil => exact Nat.one_pos
  | cons b bs ih =>
    have hb : b.toNat < 256 := b.isLt
    rw [fromBytesLittle, List.length_cons, Nat.pow_succ]
    omega

/-- The words have 32 bits. -/
theorem words_lt {raw : List Byte} {w : Nat} (h : w ∈ words raw) : w < 2 ^ 32 := by
  obtain ⟨i, -, rfl⟩ := List.mem_map.mp h
  have hlt := fromBytesLittle_lt ((raw.drop (4 * i)).take 4)
  have hlen : ((raw.drop (4 * i)).take 4).length ≤ 4 := List.length_take_le _ _
  calc _ < 256 ^ _ := hlt
    _ ≤ 256 ^ 4 := Nat.pow_le_pow_right (by decide) hlen
    _ = 2 ^ 32 := by decide

/-- Digit `j` of a number given by its bytes is byte `j`. -/
theorem fromBytesLittle_digit (bs : List Byte) (j : Nat) :
    fromBytesLittle bs / 256 ^ j % 256 = (bs.getD j 0).toNat := by
  induction bs generalizing j with
  | nil => simp [fromBytesLittle]
  | cons b bs ih =>
    have hb : b.toNat < 256 := b.isLt
    cases j with
    | zero =>
      rw [fromBytesLittle, Nat.pow_zero, Nat.div_one, List.getD_cons_zero]
      omega
    | succ j =>
      rw [fromBytesLittle, Nat.pow_succ, Nat.mul_comm (256 ^ j), ← Nat.div_div_eq_div_mul,
        List.getD_cons_succ, ← ih j]
      congr 2
      omega

/-- Four bytes to a word. -/
theorem length_words (raw : List Byte) : (words raw).length = raw.length / 4 := by
  rw [words, List.length_map, List.length_range]

/-- The word at an index. -/
theorem getD_words {raw : List Byte} {i : Nat} (h : i < raw.length / 4) :
    (words raw).getD i 0 = fromBytesLittle ((raw.drop (4 * i)).take 4) := by
  rw [words, List.getD_eq_getElem?_getD, List.getElem?_map, List.getElem?_range h]
  rfl

end Lemmas

end Assemble

end URiscV.Scripts
