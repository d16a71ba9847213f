import URiscV.Tb.L1cScoreboard
import URiscV.Spec.FlatMemory
import URiscV.ForStd.WriteBack

/-!
# The reference model of the scoreboard is a memory

The reference cache and the backing memory of the scoreboard are a write-back
cache in the sense of `WriteBack`: after any sequence of transactions they
represent the flat memory those leave, starting from one that holds at every
word-aligned address that address.

## Key results

- `ModelInv.write`: one transaction
- `expRdata_eq_read`: expected data and verdict of every read
-/

namespace URiscV.Tb.L1cScoreboard

open Hdl (Slot)
open FlatMemory (lineOf wordOf bytes writeLine)

/-! ## The memory the model starts from -/

/-- The flat memory that holds `a` at every word-aligned address `a`. -/
def addressMemory : FlatMemory.Memory := fun b =>
  (wordOf b ++ 0#2).extractLsb' (8 * (b.extractLsb' 0 2).toNat) 8

/-- A word of the initial memory is its own address. -/
theorem read_addressMemory (addr : BitVec 32) :
    FlatMemory.read addressMemory addr = wordOf addr ++ 0#2 := by
  -- each byte is a part of the word address
  have hbyte (k : BitVec 2) : addressMemory (wordOf addr ++ k) =
      (wordOf addr ++ 0#2).extractLsb' (8 * k.toNat) 8 := by
    rw [addressMemory, FlatMemory.wordOf_byte]
    congr 3
    exact BitVec.extractLsb'_append_eq_right
  rw [FlatMemory.read, hbyte, hbyte, hbyte, hbyte]
  -- and the four parts are next to each other
  rw [BitVec.extractLsb'_append_extractLsb'_eq_extractLsb',
    BitVec.extractLsb'_append_extractLsb'_eq_extractLsb',
    BitVec.extractLsb'_append_extractLsb'_eq_extractLsb']
  · exact BitVec.extractLsb'_eq_self
  · rfl
  · rfl
  · rfl

/-- Word `sel` of the line that `gen_line` makes for a line address. -/
theorem lineWord_genLine (l : BitVec 28) (sel : BitVec 2) :
    lineWord (genLine (l ++ 0#4)) sel = l ++ (sel ++ 0#2) := by
  -- the additions do not carry out of the offset
  have hadd (k : BitVec 4) (c : BitVec 32) (hc : k.setWidth 32 = c) :
      (l ++ 0#4) + c = l ++ k := by
    subst hc
    apply BitVec.eq_of_toNat_eq
    have hl := l.isLt
    have hk := k.isLt
    rw [BitVec.toNat_add, BitVec.toNat_append, BitVec.toNat_append, BitVec.toNat_setWidth,
      ← Nat.shiftLeft_add_eq_or_of_lt hk, Nat.shiftLeft_eq]
    simp only [BitVec.toNat_ofNat, Nat.zero_mod, Nat.or_zero]
    omega
  have hline : genLine (l ++ 0#4) = l ++ 0xC#4 ++ (l ++ 0x8#4) ++ (l ++ 0x4#4) ++ (l ++ 0x0#4) := by
    rw [genLine, hadd 0xC#4 0xC rfl, hadd 0x8#4 0x8 rfl, hadd 0x4#4 0x4 rfl, hadd 0x0#4 0x0 rfl]
  obtain rfl | rfl | rfl | rfl : sel = 0 ∨ sel = 1 ∨ sel = 2 ∨ sel = 3 := by
    revert sel
    decide
  · rw [hline]
    exact BitVec.extractLsb'_append_eq_right
  · rw [hline]
    show BitVec.extractLsb' 32 32 _ = _
    rw [BitVec.extractLsb'_append_eq_of_le (by omega)]
    exact BitVec.extractLsb'_append_eq_right
  · rw [hline]
    show BitVec.extractLsb' 64 32 _ = _
    rw [BitVec.extractLsb'_append_eq_of_le (by omega),
      BitVec.extractLsb'_append_eq_of_le (by omega)]
    exact BitVec.extractLsb'_append_eq_right
  · rw [hline]
    show BitVec.extractLsb' 96 32 _ = _
    rw [BitVec.extractLsb'_append_eq_of_le (by omega),
      BitVec.extractLsb'_append_eq_of_le (by omega),
      BitVec.extractLsb'_append_eq_of_le (by omega)]
    exact BitVec.extractLsb'_eq_self

/-- The lines of `gen_line` are the memory that holds at every word-aligned address
    that address. -/
theorem bytes_genLine : bytes (fun l => genLine (l ++ 0#4)) = addressMemory := by
  apply FlatMemory.eq_of_read_eq
  intro addr
  rw [FlatMemory.read_bytes, read_addressMemory]
  calc lineWord (genLine (lineOf addr ++ 0#4)) (Hdl.L1Cache.word addr)
      = lineOf addr ++ (Hdl.L1Cache.word addr ++ 0#2) := lineWord_genLine _ _
    _ = lineOf addr ++ Hdl.L1Cache.word addr ++ 0#2 := by rw [BitVec.append_assoc, BitVec.cast_eq]
    _ = wordOf addr ++ 0#2 := by rw [FlatMemory.lineOf_append_word]

/-! ## What the model represents -/

/-- The line a slot holds, if its way is valid. -/
def line (cache : Slot → CacheWay) : Slot → Option (BitVec 28) := fun slot =>
  if (cache slot).valid then some ((cache slot).tag ++ slot.1) else none

/-- The backing memory by lines. -/
def backing (s : L1cScoreboard) : BitVec 28 → BitVec 128 := fun l => s.readBacking (l ++ 0#4)

/-- Reference cache and backing memory represent `view`. -/
structure ModelInv (s : L1cScoreboard) (view : BitVec 28 → BitVec 128) : Prop where
  coh : WriteBack.Coherent (line s.refCache) (fun slot => (s.refCache slot).data)
    (fun slot => (s.refCache slot).dirty) s.backing view
  ways : ∀ slot, (s.refCache slot).valid = true → slot.2 < 2

section Lines

variable {cache : Slot → CacheWay}

/-- The line that a valid way holds. -/
theorem line_eq_some {slot : Slot} {l : BitVec 28} :
    line cache slot = some l ↔ (cache slot).valid = true ∧ (cache slot).tag ++ slot.1 = l := by
  unfold line
  split
  · next h => simp [h]
  · next h => simp [h]

/-- Updating a slot with a valid way of line `l`. -/
theorem line_update {slot : Slot} {way : CacheWay} {l : BitVec 28} (hv : way.valid = true)
    (hl : way.tag ++ slot.1 = l) :
    line (Function.update cache slot way) = Function.update (line cache) slot (some l) := by
  funext slot'
  by_cases h : slot' = slot
  · subst h
    simp [line, hv, hl]
  · simp [line, h]

/-- A way replaced in the cache is replaced in its data. -/
theorem data_update (slot : Slot) (way : CacheWay) :
    (fun slot' => (Function.update cache slot way slot').data) =
      Function.update (fun slot' => (cache slot').data) slot way.data :=
  Function.comp_update CacheWay.data cache slot way

/-- And in its dirty bits. -/
theorem dirty_update (slot : Slot) (way : CacheWay) :
    (fun slot' => (Function.update cache slot way slot').dirty) =
      Function.update (fun slot' => (cache slot').dirty) slot way.dirty :=
  Function.comp_update CacheWay.dirty cache slot way

end Lines

section Lookup

variable {s : L1cScoreboard} {t : L1cTransaction} {view : BitVec 28 → BitVec 128}

/-- A hit: the way holds the line of the address. -/
theorem line_of_hitWay {w : Nat} (h : s.hitWay t = some w) :
    line s.refCache (getIndex t.addr, w) = some (lineOf t.addr) := by
  have hw := List.find?_some h
  simp only [Bool.and_eq_true, beq_iff_eq] at hw
  exact line_eq_some.mpr ⟨hw.1, FlatMemory.append_eq_lineOf.mpr ⟨hw.2, rfl⟩⟩

/-- A miss: no slot holds it. -/
theorem line_ne_of_hitWay_none (hs : ModelInv s view) (h : s.hitWay t = none) (slot : Slot) :
    line s.refCache slot ≠ some (lineOf t.addr) := by
  intro hl
  obtain ⟨hv, ht⟩ := line_eq_some.mp hl
  obtain ⟨htag, hidx⟩ := FlatMemory.append_eq_lineOf.mp ht
  have hw := List.find?_eq_none.mp h slot.2 (List.mem_range.mpr (hs.ways slot hv))
  have hslot : (getIndex t.addr, slot.2) = slot := by
    rw [show getIndex t.addr = slot.1 from hidx.symm]
  rw [hslot] at hw
  exact hw (by simp [hv, htag]; rfl)

end Lookup

/-! ## The two branches -/

section Backing

variable {s : L1cScoreboard} {t : L1cTransaction} {view : BitVec 28 → BitVec 128}

/-- Storing a line in the associative array. -/
theorem backing_update {s' : L1cScoreboard} {l : BitVec 28} {d : BitVec 128}
    (h : s'.backingMem = Function.update s.backingMem (l ++ 0#4) (some d)) :
    s'.backing = Function.update s.backing l d := by
  have halign (l : BitVec 28) : alignAddr (l ++ 0#4) = l ++ 0#4 := by
    rw [alignAddr, BitVec.extractLsb'_append_eq_left]
  funext l'
  -- two line addresses that differ have different entries
  by_cases hl : l' = l
  · subst hl
    simp only [backing, readBacking, halign, h, Function.update_self]
  · have hne : l' ++ 0#4 ≠ l ++ 0#4 := by
      intro he
      have := congrArg (fun x : BitVec 32 => x.extractLsb' 4 28) he
      simp only [BitVec.extractLsb'_append_eq_left] at this
      exact hl this
    simp only [backing, readBacking, halign, h, Function.update_of_ne hl, Function.update_of_ne hne]

/-- A write-back leaves the reference cache. -/
theorem writebackVictim_refCache : (s.writebackVictim t).refCache = s.refCache := by
  unfold writebackVictim
  split
  · rfl
  · rfl

/-- The write-back keeps what is represented. -/
theorem ModelInv.writebackVictim (hs : ModelInv s view) : ModelInv (s.writebackVictim t) view := by
  unfold L1cScoreboard.writebackVictim
  split
  · next hd =>
    rw [Bool.and_eq_true] at hd
    have hl : line s.refCache (s.victimSlot t) = some ((s.victim t).tag ++ getIndex t.addr) :=
      line_eq_some.mpr ⟨hd.1, rfl⟩
    refine ⟨?_, hs.ways⟩
    rw [backing_update rfl]
    exact hs.coh.writeback hl
  · exact hs

/-- After it, the backing memory has what the victim holds. -/
theorem ModelInv.backing_victim (hs : ModelInv s view) {l : BitVec 28}
    (hl : line s.refCache (s.victimSlot t) = some l) :
    (s.writebackVictim t).backing l = view l := by
  obtain ⟨hv, hl'⟩ := line_eq_some.mp hl
  unfold L1cScoreboard.writebackVictim
  split
  · have hl'' : (s.victim t).tag ++ getIndex t.addr = l := hl'
    rw [backing_update rfl, hl'', Function.update_self]
    exact hs.coh.held _ l hl
  · next hd =>
    have hclean : (s.victim t).dirty = false := by
      have hv' : (s.victim t).valid = true := hv
      simpa [hv'] using hd
    exact hs.coh.clean _ l hl hclean

/-- The fill reads what is represented. -/
theorem ModelInv.readBacking_fill (hs : ModelInv s view) (hmiss : s.hitWay t = none) :
    (s.writebackVictim t).readBacking (alignAddr t.addr) = view (lineOf t.addr) := by
  have habs : ∀ slot, line (s.writebackVictim t).refCache slot ≠ some (lineOf t.addr) := by
    rw [writebackVictim_refCache]
    exact line_ne_of_hitWay_none hs hmiss
  exact hs.writebackVictim.coh.absent (lineOf t.addr) habs

end Backing

/-! ## Transactions -/

section Write

variable {s s' : L1cScoreboard} {t : L1cTransaction} {view view' : BitVec 28 → BitVec 128}

/-- The invariant after an update of one slot with a valid way. -/
theorem ModelInv.update (hs : ModelInv s view) {slot : Slot} {way : CacheWay} {l : BitVec 28}
    (hcache : s'.refCache = Function.update s.refCache slot way) (hslot : slot.2 < 2)
    (hv : way.valid = true) (hl : way.tag ++ slot.1 = l)
    (hcoh : WriteBack.Coherent (Function.update (line s.refCache) slot (some l))
      (Function.update (fun slot' => (s.refCache slot').data) slot way.data)
      (Function.update (fun slot' => (s.refCache slot').dirty) slot way.dirty) s'.backing view') :
    ModelInv s' view' where
  coh := by
    rw [hcache, line_update hv hl, data_update, dirty_update]
    exact hcoh
  ways := by
    intro slot' hv'
    rw [hcache] at hv'
    by_cases h : slot' = slot
    · rw [h]
      exact hslot
    · rw [Function.update_of_ne h] at hv'
      exact hs.ways slot' hv'

/-- The line that a write request leaves. -/
theorem writeLine_req (hwr : t.wr = true) : writeLine view t.req =
    Function.update view (lineOf t.addr)
      (lineWriteWord (view (lineOf t.addr)) (getWord t.addr) t.wdata t.wmask) := by
  simp only [writeLine, L1cTransaction.req, hwr, if_true]
  rfl

/-- A read leaves every line. -/
theorem writeLine_req_of_read (hwr : t.wr = false) : writeLine view t.req = view := by
  simp [writeLine, L1cTransaction.req, hwr]

/-- A hit keeps the invariant, at the line it writes. -/
theorem ModelInv.writeHit (hs : ModelInv s view) {w : Nat} (hw : s.hitWay t = some w) :
    ModelInv (s.writeHit t w) (writeLine view t.req) := by
  have hl := line_of_hitWay hw
  obtain ⟨hv, ht⟩ := line_eq_some.mp hl
  cases hwr : t.wr with
  | false =>
    have hcache : (s.writeHit t w).refCache = s.refCache := by simp [L1cScoreboard.writeHit, hwr]
    have hways := hs.ways
    have hcoh := hs.coh
    rw [← hcache] at hways hcoh
    rw [writeLine_req_of_read hwr]
    exact ⟨hcoh, hways⟩
  | true =>
    have hdata : (s.refCache (getIndex t.addr, w)).data = view (lineOf t.addr) := hs.coh.held _ _ hl
    have hcoh := hs.coh.write hl
      (lineWriteWord (view (lineOf t.addr)) (getWord t.addr) t.wdata t.wmask)
    -- the line of the slot does not change
    rw [← Function.update_eq_self (getIndex t.addr, w) (line s.refCache), hl, ← hdata] at hcoh
    rw [writeLine_req hwr, ← hdata]
    have hcache : (s.writeHit t w).refCache = Function.update s.refCache (getIndex t.addr, w)
        { s.refCache (getIndex t.addr, w) with
          data := lineWriteWord (s.refCache (getIndex t.addr, w)).data (getWord t.addr) t.wdata
            t.wmask
          dirty := true } := by
      simp [L1cScoreboard.writeHit, hwr]
    exact hs.update hcache (hs.ways _ hv) hv ht hcoh

/-- A miss keeps the invariant: the victim is written back and replaced by the requested line.
    -/
theorem ModelInv.writeMiss (hs : ModelInv s view) (hmiss : s.hitWay t = none) :
    ModelInv (s.writeMiss t) (writeLine view t.req) := by
  have hwb : ModelInv (s.writebackVictim t) view := hs.writebackVictim
  have habs := line_ne_of_hitWay_none hs hmiss
  have hold : ∀ l, line s.refCache (s.victimSlot t) = some l →
      (s.writebackVictim t).backing l = view l := fun l => hs.backing_victim
  have hcache : (s.writeMiss t).refCache = Function.update s.refCache (s.victimSlot t)
      { valid := true, dirty := t.wr, tag := getTag t.addr, data := s.fillLine t } := rfl
  have hslot : (s.victimSlot t).2 < 2 := Bool.toNat_lt _
  have hcoh := hwb.coh
  rw [writebackVictim_refCache] at hcoh
  have hline : getTag t.addr ++ (s.victimSlot t).1 = lineOf t.addr :=
    FlatMemory.tag_append_index t.addr
  -- a read fills the line as it is backed, a write merges its bytes into it
  cases hwr : t.wr with
  | false =>
    have hdata : s.fillLine t = (s.writebackVictim t).backing (lineOf t.addr) := by
      simp [fillLine, hwr]; rfl
    have hr := hcoh.replace habs hold false
    rw [← hdata] at hr
    rw [writeLine_req_of_read hwr]
    rw [hwr] at hcache
    exact hs.update hcache hslot rfl hline hr
  | true =>
    have hdata : s.fillLine t =
        lineWriteWord (view (lineOf t.addr)) (getWord t.addr) t.wdata t.wmask := by
      simp [fillLine, hwr, hs.readBacking_fill hmiss]
    have hr := hcoh.replace_write habs hold (s.fillLine t)
    rw [writeLine_req hwr, ← hdata]
    rw [hwr] at hcache
    exact hs.update hcache hslot rfl hline hr

/-- A transaction is the request it carries. -/
theorem ModelInv.write (hs : ModelInv s view) (t : L1cTransaction) :
    ModelInv (s.write t) (writeLine view t.req) := by
  have href : ModelInv (s.reference t) (writeLine view t.req) := by
    unfold reference
    split
    · next w hw => exact hs.writeHit hw
    · next hmiss => exact hs.writeMiss hmiss
  -- the verdict only counts
  unfold L1cScoreboard.write
  split_ifs
  all_goals exact ⟨href.coh, href.ways⟩

/-- The expected data of a read. -/
theorem ModelInv.expRdata_of_read (hs : ModelInv s view) (hr : t.wr = false) :
    s.expRdata t = FlatMemory.read (bytes view) t.addr := by
  rw [FlatMemory.read_bytes, expRdata]
  -- the word comes from the way that hits, or from the line that the miss fills
  split
  · next w hw =>
    have hdata : (s.refCache (getIndex t.addr, w)).data = view (lineOf t.addr) :=
      hs.coh.held _ _ (line_of_hitWay hw)
    rw [hdata]
    rfl
  · next hmiss =>
    have hdata : s.fillLine t = view (lineOf t.addr) := by
      simp [fillLine, hr, hs.readBacking_fill hmiss]
    rw [hdata]
    rfl

end Write

/-! ## Runs -/

/-- The invariant holds behind `build_phase`, with every line generated from its address. -/
theorem modelInv_buildPhase : ModelInv buildPhase fun l => genLine (l ++ 0#4) where
  coh := by
    have hmem : buildPhase.backing = fun l => genLine (l ++ 0#4) := by
      funext l
      simp only [backing, readBacking, buildPhase, alignAddr, BitVec.extractLsb'_append_eq_left]
    rw [hmem]
    exact WriteBack.Coherent.empty _ _ _
  ways := fun _ hv => by cases hv

/-- Any transactions are the requests they carry. -/
theorem ModelInv.foldl {s : L1cScoreboard} {view : BitVec 28 → BitVec 128} (hs : ModelInv s view)
    (ts : List L1cTransaction) :
    ModelInv (ts.foldl L1cScoreboard.write s)
      ((ts.map L1cTransaction.req).foldl writeLine view) := by
  induction ts generalizing s view with
  | nil => exact hs
  | cons t ts ih => exact ih (hs.write t)

/-- The verdict on a read with the predicted hit flag. -/
theorem write_of_read {s : L1cScoreboard} {t : L1cTransaction} (hr : t.wr = false)
    (hhit : t.hit = s.expHit t) :
    (s.write t).transactionsPassed =
        (if t.rdata = s.expRdata t then s.transactionsPassed + 1 else s.transactionsPassed) ∧
      (s.write t).transactionsFailed =
        (if t.rdata = s.expRdata t then s.transactionsFailed else s.transactionsFailed + 1) := by
  have hcount : (s.reference t).transactionsPassed = s.transactionsPassed ∧
      (s.reference t).transactionsFailed = s.transactionsFailed := by
    unfold reference
    split
    · exact ⟨rfl, rfl⟩
    · unfold writeMiss writebackVictim
      split_ifs
      all_goals exact ⟨rfl, rfl⟩
  by_cases hd : t.rdata = s.expRdata t
  · simp [write, hr, hhit, hd, hcount]
  · simp [write, hr, hhit, hd, hcount]

/-- Every read of a sequence of transactions is checked against the memory that the
    earlier ones leave: that is the data expected, and, when the hit flag is the
    predicted one, the read passes exactly when it returned it. -/
theorem expRdata_eq_read (ts : List L1cTransaction) (t : L1cTransaction) (hr : t.wr = false) :
    (ts.foldl write buildPhase).expRdata t =
        FlatMemory.read (FlatMemory.run addressMemory (ts.map L1cTransaction.req)) t.addr ∧
      (t.hit = (ts.foldl write buildPhase).expHit t →
        let s := ts.foldl write buildPhase
        let data := FlatMemory.read (FlatMemory.run addressMemory (ts.map L1cTransaction.req)) t.addr
        (s.write t).transactionsPassed =
            (if t.rdata = data then s.transactionsPassed + 1 else s.transactionsPassed) ∧
          (s.write t).transactionsFailed =
            (if t.rdata = data then s.transactionsFailed else s.transactionsFailed + 1)) := by
  have hdata : (ts.foldl write buildPhase).expRdata t =
      FlatMemory.read (FlatMemory.run addressMemory (ts.map L1cTransaction.req)) t.addr := by
    rw [(modelInv_buildPhase.foldl ts).expRdata_of_read hr, FlatMemory.bytes_foldl, bytes_genLine]
  refine ⟨hdata, fun hhit => ?_⟩
  have hverdict := write_of_read hr hhit
  rw [hdata] at hverdict
  exact hverdict

/-- Two bytes stored in the line of address `0x40`. -/
def storeBytes : L1cTransaction where
  addr := 0x44
  wr := true
  wdata := 0x11223344
  wmask := 0b0101
  rdata := 0
  hit := false

/-- A load of the word they are in. -/
def loadWord : L1cTransaction where
  addr := 0x46
  wr := false
  wdata := 0
  wmask := 0
  rdata := 0x00220044
  hit := true

/-- The load reads the two bytes stored and the two of the address. -/
theorem expRdata_storeBytes :
    loadWord.wr = false ∧
      ([storeBytes].foldl write buildPhase).expRdata loadWord = 0x00220044 ∧
      (([storeBytes].foldl write buildPhase).write loadWord).transactionsPassed = 2 := by
  have h := expRdata_eq_read [storeBytes] loadWord rfl
  have hdata : FlatMemory.read
      (FlatMemory.run addressMemory ([storeBytes].map L1cTransaction.req)) loadWord.addr =
        0x00220044 := by decide
  rw [hdata] at h
  exact ⟨rfl, h.1, (h.2 (by decide)).1⟩

end URiscV.Tb.L1cScoreboard
