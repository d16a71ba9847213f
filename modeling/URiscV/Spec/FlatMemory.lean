import URiscV.Hdl.L1Cache

/-!
# Flat memory

The memory a user of the cache sees: one byte at every address, reads of aligned
words, and byte-masked writes of aligned words. A memory of 128-bit lines is the
same memory in other units (`bytes`), and `line_word` and `line_write_word` are
the read and the write of a word in it.

## Key results

- `read_bytes`: `line_word` reads a word
- `bytes_writeLine`: `line_write_word` writes one
-/

namespace URiscV.FlatMemory

open Hdl.L1Cache (tag index word lineWord lineWriteWord merged)
open Hdl (L1Req)

/-- A byte at every address. -/
abbrev Memory := BitVec 32 → BitVec 8

/-- The index of the aligned word of a byte address. -/
def wordOf (addr : BitVec 32) : BitVec 30 := addr.extractLsb' 2 30

/-- The line of a byte address. -/
def lineOf (addr : BitVec 32) : BitVec 28 := addr.extractLsb' 4 28

/-- The aligned word at an address, little-endian. -/
def read (m : Memory) (addr : BitVec 32) : BitVec 32 :=
  m (wordOf addr ++ 3#2) ++ m (wordOf addr ++ 2#2) ++ m (wordOf addr ++ 1#2) ++
    m (wordOf addr ++ 0#2)

/-- The memory a request leaves: a write stores the bytes its mask selects. -/
def apply (m : Memory) (r : L1Req) : Memory := fun b =>
  if r.wr ∧ wordOf b = wordOf r.addr ∧ r.wmask.getLsbD (b.extractLsb' 0 2).toNat then
    r.wdata.extractLsb' (8 * (b.extractLsb' 0 2).toNat) 8
  else m b

/-- The memory a sequence of requests leaves. -/
def run (m : Memory) (rs : List L1Req) : Memory := rs.foldl apply m

/-- No requests, no change. -/
@[simp] theorem run_nil (m : Memory) : run m [] = m := rfl

/-- One request more. -/
theorem run_concat (m : Memory) (rs : List L1Req) (r : L1Req) :
    run m (rs ++ [r]) = apply (run m rs) r := by
  simp [run]

/-- A read leaves the memory alone. -/
theorem apply_read (m : Memory) {r : L1Req} (h : r.wr = false) : apply m r = m := by
  funext b
  simp [apply, h]

/-! ## Memories of lines -/

/-- The bytes of a memory of lines, little-endian. -/
def bytes (lines : BitVec 28 → BitVec 128) : Memory := fun b =>
  (lines (lineOf b)).extractLsb' (8 * (b.extractLsb' 0 4).toNat) 8

/-- The line a request leaves. -/
def writeLine (lines : BitVec 28 → BitVec 128) (r : L1Req) : BitVec 28 → BitVec 128 :=
  if r.wr then
    Function.update lines (lineOf r.addr)
      (lineWriteWord (lines (lineOf r.addr)) (word r.addr) r.wdata r.wmask)
  else lines

section Address

/-- Byte `k` of the word of `addr` lies in the line of `addr`, at the offset of the
    word plus `k`. -/
theorem lineOf_byte (addr : BitVec 32) (k : BitVec 2) :
    lineOf (wordOf addr ++ k) = lineOf addr := by
  rw [lineOf, BitVec.extractLsb'_append_eq_of_le (by omega), wordOf,
    BitVec.extractLsb'_extractLsb'_add (by omega)]
  rfl

/-- The offset of a byte of a word in its line. -/
theorem offset_byte (addr : BitVec 32) (k : BitVec 2) :
    ((wordOf addr ++ k).extractLsb' 0 4).toNat = 4 * (word addr).toNat + k.toNat := by
  have h : (wordOf addr ++ k).extractLsb' 0 4 = word addr ++ k := by
    apply BitVec.eq_of_getLsbD_eq
    intro i hi
    simp only [wordOf, word, BitVec.getLsbD_extractLsb', BitVec.getLsbD_append, hi, decide_true,
      Bool.true_and, Nat.zero_add]
    by_cases hk : i < 2
    · simp [hk]
    · simp [hk, show i - 2 < 30 by omega, show i - 2 < 2 by omega]
  rw [h, BitVec.toNat_append, ← Nat.shiftLeft_add_eq_or_of_lt k.isLt, Nat.shiftLeft_eq]
  omega

/-- A byte address is the word it lies in and its position there. -/
theorem byte_eq (b : BitVec 32) : wordOf b ++ b.extractLsb' 0 2 = b :=
  @BitVec.extractLsb'_append_extractLsb' 30 2 b

/-- It is in that word. -/
theorem wordOf_byte (addr : BitVec 32) (k : BitVec 2) : wordOf (wordOf addr ++ k) = wordOf addr :=
  BitVec.extractLsb'_append_eq_left

/-- The offset in its line of a byte: its word, and its position there. -/
theorem offset_eq (b : BitVec 32) :
    (b.extractLsb' 0 4).toNat = 4 * (word b).toNat + (b.extractLsb' 0 2).toNat := by
  have h := offset_byte b (b.extractLsb' 0 2)
  rwa [byte_eq] at h

/-- An address is a line with a word in it. -/
theorem lineOf_append_word (addr : BitVec 32) : lineOf addr ++ word addr = wordOf addr :=
  BitVec.extractLsb'_append_extractLsb'_eq_extractLsb' rfl

/-- Two addresses have the same word when they have the same line and the same
    position in it. -/
theorem wordOf_eq_iff {a b : BitVec 32} :
    wordOf a = wordOf b ↔ lineOf a = lineOf b ∧ word a = word b := by
  constructor
  · intro h
    have hline (a : BitVec 32) : lineOf a = (wordOf a).extractLsb' 2 28 := by
      rw [wordOf, BitVec.extractLsb'_extractLsb'_add (by omega)]; rfl
    have hword (a : BitVec 32) : word a = (wordOf a).extractLsb' 0 2 := by
      rw [wordOf, BitVec.extractLsb'_extractLsb'_add (by omega)]; rfl
    rw [hline, hline b, hword, hword b, h]
    exact ⟨rfl, rfl⟩
  · rintro ⟨hl, hw⟩
    rw [← lineOf_append_word, ← lineOf_append_word b, hl, hw]

/-- And a line a tag with an index. -/
theorem tag_append_index (addr : BitVec 32) : tag addr ++ index addr = lineOf addr :=
  BitVec.extractLsb'_append_extractLsb'_eq_extractLsb' rfl

/-- A tag and a set make up the line of an address only if they are its own. -/
theorem append_eq_lineOf {t : BitVec 24} {i : BitVec 4} {addr : BitVec 32} :
    t ++ i = lineOf addr ↔ t = tag addr ∧ i = index addr := by
  rw [← tag_append_index, BitVec.append_eq_append_iff]

end Address

/-! ## Words -/

/-- A byte is a byte of the word that is read at its address. -/
theorem extractLsb'_read (m : Memory) (b : BitVec 32) :
    (read m b).extractLsb' (8 * (b.extractLsb' 0 2).toNat) 8 = m b := by
  have hb := byte_eq b
  -- one case for each byte of the word
  obtain hk | hk | hk | hk : b.extractLsb' 0 2 = 0 ∨ b.extractLsb' 0 2 = 1 ∨
      b.extractLsb' 0 2 = 2 ∨ b.extractLsb' 0 2 = 3 := by
    generalize b.extractLsb' 0 2 = k
    revert k
    decide
  · rw [hk] at hb ⊢
    calc (read m b).extractLsb' 0 8 = m (wordOf b ++ 0#2) := BitVec.extractLsb'_append_eq_right
      _ = m b := congrArg m hb
  · rw [hk] at hb ⊢
    calc (read m b).extractLsb' 8 8 = m (wordOf b ++ 1#2) := by
          rw [read, BitVec.extractLsb'_append_eq_of_le (by omega)]
          exact BitVec.extractLsb'_append_eq_right
      _ = m b := congrArg m hb
  · rw [hk] at hb ⊢
    calc (read m b).extractLsb' 16 8 = m (wordOf b ++ 2#2) := by
          rw [read, BitVec.extractLsb'_append_eq_of_le (by omega),
            BitVec.extractLsb'_append_eq_of_le (by omega)]
          exact BitVec.extractLsb'_append_eq_right
      _ = m b := congrArg m hb
  · rw [hk] at hb ⊢
    calc (read m b).extractLsb' 24 8 = m (wordOf b ++ 3#2) := by
          rw [read, BitVec.extractLsb'_append_eq_of_le (by omega),
            BitVec.extractLsb'_append_eq_of_le (by omega),
            BitVec.extractLsb'_append_eq_of_le (by omega)]
          exact BitVec.extractLsb'_eq_self
      _ = m b := congrArg m hb

/-- A memory is determined by the words it holds. -/
theorem eq_of_read_eq {m m' : Memory} (h : ∀ addr, read m addr = read m' addr) : m = m' := by
  funext b
  rw [← extractLsb'_read m, h, extractLsb'_read]

/-- `line_word` reads a word of the memory the lines make up. -/
theorem read_bytes (lines : BitVec 28 → BitVec 128) (addr : BitVec 32) :
    read (bytes lines) addr = lineWord (lines (lineOf addr)) (word addr) := by
  have hbyte (k : BitVec 2) : bytes lines (wordOf addr ++ k) =
      (lines (lineOf addr)).extractLsb' ((word addr).toNat * 32 + 8 * k.toNat) 8 := by
    rw [bytes, lineOf_byte, offset_byte]
    congr 1
    omega
  rw [read, hbyte, hbyte, hbyte, hbyte, lineWord]
  -- four adjacent bytes are a word
  rw [BitVec.extractLsb'_append_extractLsb'_eq_extractLsb',
    BitVec.extractLsb'_append_extractLsb'_eq_extractLsb',
    BitVec.extractLsb'_append_extractLsb'_eq_extractLsb']
  · rfl
  · rfl
  · rfl
  · rfl

/-- One byte of the word that `line_write_word` puts in. -/
theorem extractLsb'_merged (oldWord wdata : BitVec 32) (wmask : BitVec 4) {k : Nat} (hk : k < 4) :
    (merged oldWord wdata wmask).extractLsb' (8 * k) 8 =
      if wmask.getLsbD k then wdata.extractLsb' (8 * k) 8 else oldWord.extractLsb' (8 * k) 8 := by
  obtain rfl | rfl | rfl | rfl : k = 0 ∨ k = 1 ∨ k = 2 ∨ k = 3 := by omega
  · rw [merged, BitVec.extractLsb'_append_eq_of_add_le (by omega)]
    simp
  · rw [merged, BitVec.extractLsb'_append_eq_of_le (by omega),
      BitVec.extractLsb'_append_eq_of_add_le (by omega)]
    simp
  · rw [merged, BitVec.extractLsb'_append_eq_of_le (by omega),
      BitVec.extractLsb'_append_eq_of_le (by omega),
      BitVec.extractLsb'_append_eq_of_add_le (by omega)]
    simp
  · rw [merged, BitVec.extractLsb'_append_eq_of_le (by omega),
      BitVec.extractLsb'_append_eq_of_le (by omega), BitVec.extractLsb'_append_eq_of_le (by omega)]
    simp

/-- `line_write_word` writes a word of the memory the lines make up. -/
theorem bytes_writeLine (lines : BitVec 28 → BitVec 128) (r : L1Req) :
    bytes (writeLine lines r) = apply (bytes lines) r := by
  cases hwr : r.wr with
  | false => rw [apply_read _ hwr, writeLine, hwr]; rfl
  | true =>
    funext b
    have hk : (b.extractLsb' 0 2).toNat < 4 := (b.extractLsb' 0 2).isLt
    have hoff : 8 * (b.extractLsb' 0 4).toNat =
        (word b).toNat * 32 + 8 * (b.extractLsb' 0 2).toNat := by rw [offset_eq]; omega
    simp only [bytes, writeLine, apply, hwr, if_true, true_and, wordOf_eq_iff]
    by_cases hl : lineOf b = lineOf r.addr
    · rw [hl, Function.update_self, hoff, lineWriteWord]
      have := (word b).isLt
      have := (word r.addr).isLt
      by_cases hw : word b = word r.addr
      · -- the word that is written
        rw [hw, BitVec.extractLsb'_setSlice_of_le _ _ (by omega) (by omega),
          extractLsb'_merged _ _ _ hk, BitVec.extractLsb'_extractLsb'_add (by omega)]
        simp
      · -- another word of the line
        have hne : (word b).toNat ≠ (word r.addr).toNat := fun h => hw (BitVec.eq_of_toNat_eq h)
        rw [BitVec.extractLsb'_setSlice_of_disjoint _ _ (by omega) (by omega)]
        simp [hw]
    · rw [Function.update_of_ne hl]
      simp [hl]

/-- Requests write lines as they write bytes. -/
theorem bytes_foldl (lines : BitVec 28 → BitVec 128) (rs : List L1Req) :
    bytes (rs.foldl writeLine lines) = run (bytes lines) rs := by
  induction rs generalizing lines with
  | nil => rfl
  | cons r rs ih => rw [List.foldl_cons, ih, bytes_writeLine, run, run, List.foldl_cons]

end URiscV.FlatMemory
