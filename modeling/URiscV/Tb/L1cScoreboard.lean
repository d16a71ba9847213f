import URiscV.Hdl.L1Cache

/-!
# The cache scoreboard

`rv_l1c_scoreboard`: a reference model of the two-way cache over a sparse backing
memory, run on the transactions the monitor publishes. All its types are
two-state. `write` is one call of the analysis port; the texts it reports are
left out, the counters are kept.
-/

namespace URiscV.Tb

open Hdl (Slot L1Req)

/-- `rv_l1c_transaction`: the stimulus, and the response the monitor saw. -/
structure L1cTransaction where
  addr : BitVec 32
  wr : Bool
  wdata : BitVec 32
  wmask : BitVec 4
  rdata : BitVec 32
  hit : Bool

/-- The stimulus fields. -/
def L1cTransaction.req (t : L1cTransaction) : L1Req where
  addr := t.addr
  wr := t.wr
  wdata := t.wdata
  wmask := t.wmask

/-- `cache_way_t`. -/
structure CacheWay where
  valid : Bool
  dirty : Bool
  tag : BitVec 24
  data : BitVec 128

/-- The members of `rv_l1c_scoreboard`. `backingMem` is the associative array keyed
    by line-aligned addresses. -/
structure L1cScoreboard where
  refCache : Slot → CacheWay
  refLru : BitVec 4 → Bool
  backingMem : BitVec 32 → Option (BitVec 128)
  transactionsReceived : BitVec 32
  transactionsPassed : BitVec 32
  transactionsFailed : BitVec 32

namespace L1cScoreboard

/-- The state after `build_phase`. -/
def buildPhase : L1cScoreboard where
  refCache := fun _ => { valid := false, dirty := false, tag := 0, data := 0 }
  refLru := fun _ => false
  backingMem := fun _ => none
  transactionsReceived := 0
  transactionsPassed := 0
  transactionsFailed := 0

/-! ## Address fields and lines -/

def getTag (addr : BitVec 32) : BitVec 24 := addr.extractLsb' 8 24
def getIndex (addr : BitVec 32) : BitVec 4 := addr.extractLsb' 4 4
def getWord (addr : BitVec 32) : BitVec 2 := addr.extractLsb' 2 2
def alignAddr (addr : BitVec 32) : BitVec 32 := addr.extractLsb' 4 28 ++ 0#4

/-- `gen_line`. -/
def genLine (lineAddr : BitVec 32) : BitVec 128 :=
  (lineAddr + 0xC) ++ (lineAddr + 0x8) ++ (lineAddr + 0x4) ++ (lineAddr + 0x0)

/-- `line_word` and `line_write_word`, which are those of the cache. -/
abbrev lineWord := Hdl.L1Cache.lineWord
abbrev lineWriteWord := Hdl.L1Cache.lineWriteWord

section Reference

variable (s : L1cScoreboard) (t : L1cTransaction)

/-- `read_backing`. -/
def readBacking (addr : BitVec 32) : BitVec 128 :=
  match s.backingMem (alignAddr addr) with
  | some line => line
  | none => genLine (alignAddr addr)

/-- `hit_way` after the lookup loop, which breaks at the first hit; `none` is the
    initial `-1`. -/
def hitWay : Option Nat :=
  (List.range 2).find? fun w =>
    (s.refCache (getIndex t.addr, w)).valid &&
      (s.refCache (getIndex t.addr, w)).tag == getTag t.addr

/-- `exp_hit`. -/
def expHit : Bool := (s.hitWay t).isSome

/-- The slot of `victim_way`. -/
def victimSlot : Slot := (getIndex t.addr, (s.refLru (getIndex t.addr)).toNat)

/-- `ref_cache[idx][victim_way]`. -/
def victim : CacheWay := s.refCache (s.victimSlot t)

/-- The dirty victim goes to the backing memory. -/
def writebackVictim : L1cScoreboard :=
  if (s.victim t).valid && (s.victim t).dirty then
    { s with
      backingMem := Function.update s.backingMem ((s.victim t).tag ++ getIndex t.addr ++ 0#4)
        (some (s.victim t).data) }
  else s

/-- The hit branch, for the way that hits. -/
def writeHit (w : Nat) : L1cScoreboard :=
  let slot := (getIndex t.addr, w)
  let way := s.refCache slot
  { s with
    refCache :=
      if t.wr then
        Function.update s.refCache slot
          { way with
            data := lineWriteWord way.data (getWord t.addr) t.wdata t.wmask
            dirty := true }
      else s.refCache
    refLru := Function.update s.refLru (getIndex t.addr) (!w.testBit 0) }

/-- The line the miss branch fills in. -/
def fillLine : BitVec 128 :=
  let fillData := (s.writebackVictim t).readBacking (alignAddr t.addr)
  if t.wr then lineWriteWord fillData (getWord t.addr) t.wdata t.wmask else fillData

/-- The miss branch. -/
def writeMiss : L1cScoreboard :=
  { s.writebackVictim t with
    refCache := Function.update s.refCache (s.victimSlot t)
      { valid := true, dirty := t.wr, tag := getTag t.addr, data := s.fillLine t }
    refLru := Function.update s.refLru (getIndex t.addr) (!s.refLru (getIndex t.addr)) }

/-- `exp_rdata`. -/
def expRdata : BitVec 32 :=
  match s.hitWay t with
  | some w => lineWord (s.refCache (getIndex t.addr, w)).data (getWord t.addr)
  | none => lineWord (s.fillLine t) (getWord t.addr)

/-- The update of the reference model. -/
def reference : L1cScoreboard :=
  match s.hitWay t with
  | some w => s.writeHit t w
  | none => s.writeMiss t

/-- `write`: update the model and check the transaction against it. -/
def write : L1cScoreboard :=
  let s' := { s.reference t with transactionsReceived := s.transactionsReceived + 1 }
  if t.hit ≠ s.expHit t then { s' with transactionsFailed := s.transactionsFailed + 1 }
  else if !t.wr then
    if t.rdata ≠ s.expRdata t then { s' with transactionsFailed := s.transactionsFailed + 1 }
    else { s' with transactionsPassed := s.transactionsPassed + 1 }
  else { s' with transactionsPassed := s.transactionsPassed + 1 }

end Reference

end L1cScoreboard

end URiscV.Tb
