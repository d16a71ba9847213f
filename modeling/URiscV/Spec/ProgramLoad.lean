import URiscV.Rv32i.Memory
import URiscV.Scripts.Assemble
import URiscV.Spec.Execute
import URiscV.Spec.FrontEnd
import URiscV.Tb.AsmLoad

/-!
# From `.text` to the instruction memory

The hex file that `scripts/assemble` writes is read back by `$readmemh` word by word, and
`test_asm_base` carries it into the core.

## Key results

- `readmemh_hexText`: the words of the file, from address 0 on
- `load_assembled`: the bytes of `.text` in the core
-/

namespace URiscV.Tb

open URiscV.Hdl (RvCpu Word)
open URiscV.Scripts
open URiscV.Scripts.Assemble (Byte fromBytesLittle pad words hexWord hexText)

/-! ## Reading the file back -/

namespace Readmemh

/-- Without a slash there is no comment. -/
theorem stripComments_of_not_mem {cs : List Char} (h : '/' ∉ cs) :
    stripComments .code cs = cs := by
  induction cs with
  | nil => rfl
  | cons c cs ih =>
    have hc : c ≠ '/' := fun hc => h (hc ▸ List.mem_cons_self)
    rw [stripComments, ih fun hmem => h (List.mem_cons_of_mem c hmem)]
    · exact fun _ hc' => absurd hc' hc
    · exact fun _ hc' => absurd hc' hc

/-- A line without white space is one token. -/
theorem tokens_line {l rest : List Char} (hne : l ≠ []) (hl : ∀ c ∈ l, isSpace c = false) :
    tokens (l ++ '\n' :: rest) = l :: tokens rest := by
  rw [tokens, List.splitOnP_append_cons_of_forall_mem hl _ rfl, List.filter_cons_of_pos]
  · rfl
  · simpa using hne

/-- A character of a text is a line break, or stands on a line. -/
theorem mem_unlines {ls : List String} {c : Char} (h : c ∈ (Lines.unlines ls).toList) :
    c = '\n' ∨ ∃ l ∈ ls, c ∈ l.toList := by
  induction ls with
  | nil => cases h
  | cons l ls ih =>
    rw [Lines.unlines, String.toList_append, String.toList_append] at h
    rcases List.mem_append.mp h with h | h
    · rcases List.mem_append.mp h with h | h
      · exact .inr ⟨l, List.mem_cons_self, h⟩
      · exact .inl (List.mem_singleton.mp h)
    · exact (ih h).imp_right fun ⟨k, hk, hc⟩ => ⟨k, List.mem_cons_of_mem l hk, hc⟩

/-- Lines without blanks are tokens. -/
theorem tokens_unlines {ls : List String} (hne : ∀ l ∈ ls, l.toList ≠ [])
    (hl : ∀ l ∈ ls, ∀ c ∈ l.toList, isSpace c = false) :
    tokens (Lines.unlines ls).toList = ls.map String.toList := by
  induction ls with
  | nil => rfl
  | cons l ls ih =>
    have htext : (Lines.unlines (l :: ls)).toList =
        l.toList ++ '\n' :: (Lines.unlines ls).toList := by
      rw [Lines.unlines, String.toList_append, String.toList_append, List.append_assoc]
      rfl
    rw [htext, tokens_line (hne l List.mem_cons_self) (hl l List.mem_cons_self),
      ih (fun k hk => hne k (List.mem_cons_of_mem l hk))
        fun k hk => hl k (List.mem_cons_of_mem l hk)]
    rfl

/-- Without an underscore the digits are the number. -/
theorem number_of_not_mem {cs : List Char} (h : '_' ∉ cs) : number cs = Hex.value cs := by
  rw [number, List.filter_eq_self.mpr]
  intro c hc
  exact bne_iff_ne.mpr fun he => h (he ▸ hc)

/-- Digits are no blanks. -/
theorem isSpace_digits {k n : Nat} : ∀ c ∈ Hex.digits k n, isSpace c = false := by
  intro c hc
  obtain ⟨d, hd, rfl⟩ := Hex.exists_of_mem_digits hc
  clear hc
  revert d
  decide

/-- The memory after the words `ws` from address `addr` on. -/
def storeWords (depth addr : Nat) (ws : List Nat) (mem : Nat → Word) : Nat → Word := fun i =>
  if addr ≤ i ∧ i < addr + ws.length ∧ i < depth then BitVec.ofNat 32 (ws.getD (i - addr) 0)
  else mem i

/-- The first word is stored first. -/
theorem storeWords_cons (depth addr : Nat) (w : Nat) (ws : List Nat) (mem : Nat → Word) :
    storeWords depth addr (w :: ws) mem =
      storeWords depth (addr + 1) ws (store depth addr (BitVec.ofNat 32 w) mem) := by
  funext i
  rw [storeWords, storeWords, List.length_cons, store]
  by_cases hi : i = addr
  · subst hi
    rw [if_neg (by omega : ¬ (i + 1 ≤ i ∧ _)), Nat.sub_self, List.getD_cons_zero]
    by_cases hd : i < depth
    · rw [if_pos ⟨Nat.le_refl i, by omega, hd⟩, if_pos hd, Function.update_self]
    · rw [if_neg fun h => hd h.2.2, if_neg hd]
  · have hmem : (if addr < depth then Function.update mem addr (BitVec.ofNat 32 w) else mem) i =
        mem i := by
      split
      · exact Function.update_of_ne hi _ _
      · rfl
    rw [hmem]
    by_cases ha : addr ≤ i
    · have hsub : i - addr = (i - (addr + 1)) + 1 := by omega
      rw [hsub, List.getD_cons_succ]
      exact if_congr (by omega) rfl rfl
    · rw [if_neg fun h => ha h.1, if_neg fun h => ha (by omega)]

/-- Words of eight digits fill the memory in order. -/
theorem fill_digits {depth : Nat} {ws : List Nat} (hws : ∀ w ∈ ws, w < 2 ^ 32) (addr : Nat)
    (mem : Nat → Word) :
    fill depth (ws.map (Hex.digits 8)) addr mem = some (storeWords depth addr ws mem) := by
  induction ws generalizing addr mem with
  | nil =>
    have hnil : storeWords depth addr [] mem = mem := by
      funext i
      rw [storeWords, List.length_nil, if_neg (by omega)]
    rw [hnil]
    rfl
  | cons w ws ih =>
    have hnum : number (Hex.digits 8 w) = some w := by
      rw [number_of_not_mem (Hex.not_mem_digits (by decide) 8 w), Hex.value_digits,
        Nat.mod_eq_of_lt ((hws w List.mem_cons_self).trans_eq (by decide))]
    rw [List.map_cons, fill, hnum, storeWords_cons]
    · exact ih (fun v hv => hws v (List.mem_cons_of_mem w hv)) _ _
    · intro ds hds
      exact Hex.not_mem_digits (by decide) 8 w (hds ▸ List.mem_cons_self)

end Readmemh

open Readmemh

/-- **The hex file is read back.** -/
theorem readmemh_hexText (depth : Nat) (raw : List Byte) (mem : Nat → Word) :
    readmemh depth (hexText raw) mem = some (storeWords depth 0 (words (pad raw)) mem) := by
  have hhead : "@00000000".toList = '@' :: Hex.digits 8 0 := by decide
  have hword (w : Nat) : (hexWord w).toList = Hex.digits 8 w := String.toList_ofList
  have hlines : ∀ l ∈ "@00000000" :: (words (pad raw)).map hexWord, l.toList ≠ [] ∧
      '/' ∉ l.toList ∧ ∀ c ∈ l.toList, isSpace c = false := by
    intro l hl
    rcases List.mem_cons.mp hl with rfl | hl
    · rw [hhead]
      refine ⟨List.cons_ne_nil _ _, ?_, List.forall_mem_cons.mpr ⟨by decide, isSpace_digits⟩⟩
      exact List.not_mem_cons_of_ne_of_not_mem (by decide) (Hex.not_mem_digits (by decide) 8 0)
    · obtain ⟨w, -, rfl⟩ := List.mem_map.mp hl
      rw [hword]
      refine ⟨?_, Hex.not_mem_digits (by decide) 8 w, isSpace_digits⟩
      exact List.ne_nil_of_length_pos (by rw [Hex.length_digits]; decide)
  -- the text consists of one address and of digits
  have hslash : '/' ∉ (hexText raw).toList := fun h => by
    rcases mem_unlines h with h | ⟨l, hl, h⟩
    · exact absurd h (by decide)
    · exact (hlines l hl).2.1 h
  have htext : (words (pad raw)).map (String.toList ∘ hexWord) =
      (words (pad raw)).map (Hex.digits 8) := List.map_congr_left fun w _ => hword w
  rw [readmemh, stripComments_of_not_mem hslash, hexText,
    tokens_unlines (fun l hl => (hlines l hl).1) fun l hl => (hlines l hl).2.2, List.map_cons,
    List.map_map, htext, hhead, fill, number_of_not_mem (by decide), Hex.value_digits]
  exact fill_digits (fun w hw => Assemble.words_lt hw) 0 mem

/-! ## In the core -/

namespace AsmTest

open Rv32i (bytesOf byte readBytes)

/-- Byte `j` of a word that is given by its bytes. -/
theorem byte_fromBytesLittle {bs : List Byte} (hlen : bs.length = 4) (j : Nat) :
    byte (BitVec.ofNat 32 (fromBytesLittle bs)) j = bs.getD j 0 := by
  have hlt : fromBytesLittle bs < 2 ^ 32 :=
    (Assemble.fromBytesLittle_lt bs).trans_eq (by rw [hlen]; decide)
  have hpow : 2 ^ (8 * j) = 256 ^ j := by rw [Nat.pow_mul]
  apply BitVec.eq_of_toNat_eq
  rw [byte, BitVec.extractLsb'_toNat, BitVec.toNat_ofNat, Nat.mod_eq_of_lt hlt,
    Nat.shiftRight_eq_div_pow, hpow]
  exact Assemble.fromBytesLittle_digit bs j

section Load

variable {raw : List Byte} {s : RvCpu}

/-- The buffer behind the hex file of `raw`. -/
def bufferOf (raw : List Byte) : Nat → Word :=
  storeWords imemDepth 0 (words (pad raw)) initImem

/-- The bytes of the core's instruction memory: those of `.text`, zeros up to the next word,
    and nops. -/
theorem bytesOf_loadImem {k : Nat} (hk : k < 4 * imemDepth) :
    bytesOf (loadImem (bufferOf raw) s).uIfu.uImem.memory k =
      if k < 4 * ((raw.length + 3) / 4) then raw.getD k 0 else byte nop (k % 4) := by
  have hi : k / 4 < imemDepth := by omega
  have hlen : (words (pad raw)).length = (raw.length + 3) / 4 := by
    rw [Assemble.length_words, Assemble.length_pad, Nat.mul_div_cancel_left _ (by decide)]
  show byte (if k / 4 < imemDepth then bufferOf raw (k / 4) else _) (k % 4) = _
  rw [if_pos hi, bufferOf, storeWords, hlen]
  by_cases hw : k < 4 * ((raw.length + 3) / 4)
  · have hpad : (pad raw).length = 4 * ((raw.length + 3) / 4) := Assemble.length_pad raw
    have hbytes : (((pad raw).drop (4 * (k / 4))).take 4).length = 4 := by
      rw [List.length_take, List.length_drop, hpad]
      omega
    rw [if_pos ⟨Nat.zero_le _, by omega, hi⟩, if_pos hw, Nat.sub_zero,
      Assemble.getD_words (by omega), byte_fromBytesLittle hbytes, List.getD_eq_getElem?_getD,
      List.getElem?_take_of_lt (Nat.mod_lt k (by decide)), List.getElem?_drop, Nat.div_add_mod,
      ← List.getD_eq_getElem?_getD, Assemble.getD_pad]
  · rw [if_neg (by omega), if_neg hw]
    rfl

/-- A word of `.text`, in the instruction memory. -/
theorem wordAt_loadImem {a : Word} (ha : a.toNat % 4 = 0)
    (hlt : a.toNat < 4 * ((raw.length + 3) / 4)) (hdepth : a.toNat < 4 * imemDepth) :
    (loadImem (bufferOf raw) s).wordAt imemDepth a =
      readBytes (fun k => raw.getD k 0) a.toNat 4 := by
  have hidx : Hdl.Sram.wordAddr imemDepth 32 a = a.toNat / 4 := by
    rw [show imemDepth = 2 ^ 12 from rfl, Hdl.wordAddr_eq_wordIndex, Rv32i.wordIndex]
    exact Nat.mod_eq_of_lt (Nat.div_lt_of_lt_mul hdepth)
  have hread : readBytes (bytesOf (loadImem (bufferOf raw) s).uIfu.uImem.memory) a.toNat 4 =
      readBytes (fun k => raw.getD k 0) a.toNat 4 :=
    Rv32i.readBytes_congr fun k _ hk => by
      rw [bytesOf_loadImem (by omega), if_pos (by omega)]
  rw [← hread, Rv32i.readBytes_bytesOf (by omega), ha, Hdl.RvCpu.wordAt, hidx]
  exact BitVec.extractLsb'_eq_self.symm

end Load

/-- `init_imem`, `set_imem` and `load_imem` on the file that `scripts/assemble` has written. -/
theorem loadProgram_assembled {tc : Assemble.Toolchain} {inputAsm : String} {elf : Bool}
    {files : String → Option String} {t : AsmTest} {s : RvCpu}
    (hstatus : Assemble.status (Assemble.main tc inputAsm elf).1 = 0) (hname : t.hexFile ≠ "")
    (hfile : files t.hexFile = (Assemble.main tc inputAsm elf).2.hex) :
    loadProgram files t s = some (loadImem (bufferOf tc.raw) s) := by
  rw [loadProgram, setImemBuffer, if_neg hname, hfile, Assemble.hex_of_status hstatus,
    Option.bind_some, readmemh_hexText]
  rfl

/-- **From `.text` to the core.** When `scripts/assemble` ends with status 0 and a test names
    the file it has written, every core comes out of `init_imem`, `set_imem` and `load_imem`
    with the bytes of `.text` at their addresses, zeros up to the next word and nops behind
    it, as far as its memory goes; and in every state it reaches from there, behind any
    reset, the word it fetches at an address of `.text` is the one that stands there. -/
theorem load_assembled (tc : Assemble.Toolchain) (inputAsm : String) (elf : Bool)
    (files : String → Option String) (t : AsmTest) (s : RvCpu)
    (hstatus : Assemble.status (Assemble.main tc inputAsm elf).1 = 0) (hname : t.hexFile ≠ "")
    (hfile : files t.hexFile = (Assemble.main tc inputAsm elf).2.hex) :
    ∃ imem, loadProgram files t s = some (loadImem imem s) ∧
      (∀ k < 4 * imemDepth, bytesOf (loadImem imem s).uIfu.uImem.memory k =
        if k < 4 * ((tc.raw.length + 3) / 4) then tc.raw.getD k 0 else byte nop (k % 4)) ∧
      ∀ (dmemDepth : Nat) (xs₀ xs : Nat → Word) (k n : Nat) (a : Word), a.toNat % 4 = 0 →
        a.toNat < 4 * ((tc.raw.length + 3) / 4) → a.toNat < 4 * imemDepth →
        (RvCpu.after imemDepth dmemDepth xs₀ xs (loadImem imem s) k n).wordAt imemDepth a =
          readBytes (fun k => tc.raw.getD k 0) a.toNat 4 := by
  refine ⟨bufferOf tc.raw, loadProgram_assembled hstatus hname hfile,
    fun k hk => bytesOf_loadImem hk, ?_⟩
  intro dmemDepth xs₀ xs k n a ha hlt hdepth
  have hreset : RvCpu.resetFor imemDepth dmemDepth xs₀ (loadImem (bufferOf tc.raw) s) k =
      RvCpu.boot (loadImem (bufferOf tc.raw) s).uIfu.uImem.memory s.uMemu.uDmem.memory :=
    RvCpu.run_reset _ _ _
  rw [RvCpu.after, RvCpu.wordAt_run, hreset]
  exact wordAt_loadImem ha hlt hdepth

/-- A program of six bytes. -/
def sixBytes : Assemble.Toolchain where
  isFile := true
  installed := fun _ => true
  returncode := fun _ => 0
  raw := [0x13, 0x05, 0x10, 0x00, 0x93, 0x05]

def sixBytesTest : AsmTest where
  testname := "prog"
  hexFile := "prog.hex"
  setDmem := []
  run := []
  check := []
  report := []

/-- Six bytes make a word and a half, and the nop stands behind them. -/
theorem load_assembled_sixBytes : ∃ imem,
    loadProgram (fun _ => (Assemble.main sixBytes "/prog.s" false).2.hex) sixBytesTest
        (RvCpu.boot (fun _ => 0) fun _ => 0) =
      some (loadImem imem (RvCpu.boot (fun _ => 0) fun _ => 0)) ∧
    bytesOf (loadImem imem (RvCpu.boot (fun _ => 0) fun _ => 0)).uIfu.uImem.memory 5 = 0x05 ∧
    (RvCpu.after imemDepth 4096 (fun _ => 0) (fun _ => 0)
      (loadImem imem (RvCpu.boot (fun _ => 0) fun _ => 0)) 5 9).wordAt imemDepth 4 =
        0x00000593 := by
  obtain ⟨imem, hload, hbytes, hword⟩ := load_assembled sixBytes "/prog.s" false
    (fun _ => (Assemble.main sixBytes "/prog.s" false).2.hex) sixBytesTest
    (RvCpu.boot (fun _ => 0) fun _ => 0) rfl (by decide) rfl
  exact ⟨imem, hload, hbytes 5 (by decide),
    hword 4096 (fun _ => 0) (fun _ => 0) 5 9 4 (by decide) (by decide) (by decide)⟩

end AsmTest

end URiscV.Tb
