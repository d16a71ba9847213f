import URiscV.Hdl.Common
import URiscV.ForStd.BitVec

/-!
# The L1 cache

`l1_cache` with the default parameters except `NUM_WAYS`: 32-bit addresses and
words, lines of 128 bits, 16 sets. A RAM `reg … ram [NUM_SETS-1:0][NUM_WAYS-1:0]`
is a function of a `Slot`, a set and a way.

The reset is asynchronous: the state register, the latched request and the valid
and dirty bits hold their reset values while `rst_n` is low. The tag, data and
LRU RAMs and `lat_victim_way` have no reset.
-/

namespace URiscV.Hdl

/-- A set and a way of it. -/
abbrev Slot := BitVec 4 × Nat

/-- `l1_state_t`. -/
inductive L1State where
  | idle | compareTag | writeback | writebackWait | fill | fillWait | readout
deriving DecidableEq, Repr

/-- A CPU request: `req_addr`, `req_wr`, `req_wdata`, `req_wmask`. -/
structure L1Req where
  addr : BitVec 32
  wr : Bool
  wdata : BitVec 32
  wmask : BitVec 4
deriving DecidableEq, Repr

/-- The reset value of the latched request. -/
def L1Req.zero : L1Req where
  addr := 0
  wr := false
  wdata := 0
  wmask := 0

/-- Inputs of `l1_cache`. -/
structure L1In where
  reqValid : Bool
  req : L1Req
  memReqReady : Bool
  memWrAck : Bool
  memRespValid : Bool
  memRespRdata : BitVec 128

/-- Outputs of `l1_cache`, all low by default. -/
structure L1Out where
  reqReady : Bool := false
  respValid : Bool := false
  respRdata : BitVec 32 := 0
  respHit : Bool := false
  memReqValid : Bool := false
  memReqAddr : BitVec 32 := 0
  memReqWr : Bool := false
  memReqWdata : BitVec 128 := 0
deriving DecidableEq, Repr

/-- Registers and RAMs of `l1_cache`; `lat` holds `lat_addr`, `lat_wr`,
    `lat_wdata` and `lat_wmask`. -/
structure L1Cache where
  state : L1State
  lat : L1Req
  latVictimWay : Bool
  tagRam : Slot → BitVec 24
  dataRam : Slot → BitVec 128
  validRam : Slot → Bool
  dirtyRam : Slot → Bool
  lruRam : BitVec 4 → Bool

namespace L1Cache

/-! ## Address fields -/

def tag (addr : BitVec 32) : BitVec 24 := addr.extractLsb' 8 24
def index (addr : BitVec 32) : BitVec 4 := addr.extractLsb' 4 4
def word (addr : BitVec 32) : BitVec 2 := addr.extractLsb' 2 2

/-! ## Words of a line -/

/-- `line_word`. -/
def lineWord (line : BitVec 128) (sel : BitVec 2) : BitVec 32 :=
  line.extractLsb' (sel.toNat * 32) 32

/-- The local `merged` of `line_write_word`. -/
def merged (oldWord wdata : BitVec 32) (wmask : BitVec 4) : BitVec 32 :=
  (if wmask.getLsbD 3 then wdata.extractLsb' 24 8 else oldWord.extractLsb' 24 8) ++
  (if wmask.getLsbD 2 then wdata.extractLsb' 16 8 else oldWord.extractLsb' 16 8) ++
  (if wmask.getLsbD 1 then wdata.extractLsb' 8 8 else oldWord.extractLsb' 8 8) ++
  (if wmask.getLsbD 0 then wdata.extractLsb' 0 8 else oldWord.extractLsb' 0 8)

/-- `line_write_word`. -/
def lineWriteWord (oldLine : BitVec 128) (sel : BitVec 2) (wdata : BitVec 32) (wmask : BitVec 4) :
    BitVec 128 :=
  oldLine.setSlice (sel.toNat * 32) (merged (oldLine.extractLsb' (sel.toNat * 32) 32) wdata wmask)

section Wires

variable (numWays : Nat) (c : L1Cache)

/-! ## Tag comparison -/

/-- Bit `way` of `hit_way_onehot` when `addr` is on `req_addr`. -/
def hitWay (addr : BitVec 32) (way : Nat) : Bool :=
  c.validRam (index addr, way) && c.tagRam (index addr, way) == tag addr

def hitWayOnehot (addr : BitVec 32) : BitVec numWays := BitVec.ofFn (c.hitWay addr) numWays

def cacheHit (addr : BitVec 32) : Bool := c.hitWayOnehot numWays addr != 0

/-- `hit_way_val`, the output of `u_hit_way_onehot2bin`. -/
def hitWayVal (addr : BitVec 32) : BitVec (clog2 numWays) :=
  onehot2bin numWays (c.hitWayOnehot numWays addr)

/-! ## The latched request and its victim -/

def latTag : BitVec 24 := tag c.lat.addr
def latIndex : BitVec 4 := index c.lat.addr
def latWord : BitVec 2 := word c.lat.addr
def latLineAddr : BitVec 32 := c.lat.addr.extractLsb' 4 28 ++ 0#4

def victimWay : Bool := c.lruRam c.latIndex

/-- The slot of the victim. -/
def victimSlot : Slot := (c.latIndex, c.victimWay.toNat)

def victimDirty : Bool := c.validRam c.victimSlot && c.dirtyRam c.victimSlot
def victimTag : BitVec 24 := c.tagRam c.victimSlot
def victimData : BitVec 128 := c.dataRam c.victimSlot

/-- `[lat_index][hit_way_val]`; the lookup is that of the live `req_addr`. -/
def hitSlot (reqAddr : BitVec 32) : Slot := (c.latIndex, (c.hitWayVal numWays reqAddr).toNat)

/-- `[lat_index][lat_victim_way]`. -/
def fillSlot : Slot := (c.latIndex, c.latVictimWay.toNat)

/-! ## Outputs -/

/-- The `always_comb` block; `reqAddr` is the live `req_addr`. -/
def out (reqAddr : BitVec 32) : L1Out :=
  match c.state with
  | .idle => { reqReady := true }
  | .compareTag =>
    if c.cacheHit numWays reqAddr then
      { respValid := true, respHit := true,
        respRdata := lineWord (c.dataRam (c.hitSlot numWays reqAddr)) c.latWord,
        reqReady := true }
    else {}
  | .writeback =>
    { memReqValid := true, memReqWr := true,
      memReqAddr := c.victimTag ++ c.latIndex ++ 0#4, memReqWdata := c.victimData }
  | .fill => { memReqValid := true, memReqWr := false, memReqAddr := c.latLineAddr }
  | .readout =>
    { respValid := true, respHit := false,
      respRdata := lineWord (c.dataRam c.fillSlot) c.latWord, reqReady := true }
  | .writebackWait => {}
  | .fillWait => {}

end Wires

/-! ## Clock edges -/

section Edge

variable (numWays : Nat) (i : L1In) (c : L1Cache)

/-- `l1_fsm`: the next state. -/
def fsm : L1State :=
  match c.state with
  | .compareTag =>
    if c.cacheHit numWays i.req.addr then if i.reqValid then .compareTag else .idle
    else if c.victimDirty then .writeback else .fill
  | .writeback => if i.memReqReady then .writebackWait else .writeback
  | .writebackWait => if i.memWrAck then .fill else .writebackWait
  | .fill => if i.memReqReady then .fillWait else .fill
  | .fillWait => if i.memRespValid then .readout else .fillWait
  | .readout => if i.reqValid then .compareTag else .idle
  | .idle => if i.reqValid then .compareTag else .idle

/-- The RAM updates of `L1_COMPARE_TAG`. -/
def compareUpdate : L1Cache :=
  let hitSlot := c.hitSlot numWays i.req.addr
  if c.cacheHit numWays i.req.addr then
    -- the way that did not hit is the next victim
    -- the way that did not hit is the next victim
    let c' := { c with
      lruRam := Function.update c.lruRam c.latIndex
        (!(c.hitWayVal numWays i.req.addr).getLsbD 0) }
    if c.lat.wr then
      { c' with
        dataRam := Function.update c.dataRam hitSlot
          (lineWriteWord (c.dataRam hitSlot) c.latWord c.lat.wdata c.lat.wmask)
        dirtyRam := Function.update c.dirtyRam hitSlot true }
    -- a read hit clears the dirty bit of the victim way, whichever way hit
    -- a read hit clears the dirty bit of the victim way, whichever way hit
    else { c' with dirtyRam := Function.update c.dirtyRam c.victimSlot false }
  else { c with latVictimWay := c.victimWay }

/-- The RAM updates when the fill data arrives. -/
def fillUpdate : L1Cache :=
  { c with
    dataRam := Function.update c.dataRam c.fillSlot
      (if c.lat.wr then lineWriteWord i.memRespRdata c.latWord c.lat.wdata c.lat.wmask
      else i.memRespRdata)
    tagRam := Function.update c.tagRam c.fillSlot c.latTag
    validRam := Function.update c.validRam c.fillSlot true
    dirtyRam := Function.update c.dirtyRam c.fillSlot c.lat.wr
    lruRam := Function.update c.lruRam c.latIndex (!c.latVictimWay) }

/-- The data-handling block, the latched request apart. -/
def dataUpdate : L1Cache :=
  if c.state = .compareTag then c.compareUpdate numWays i
  else if c.state = .fillWait ∧ i.memRespValid then c.fillUpdate i
  else c

/-- A clock edge with `rst_n` high. -/
def next : L1Cache :=
  { c.dataUpdate numWays i with
    state := c.fsm numWays i
    lat := if (c.out numWays i.req.addr).reqReady && i.reqValid then i.req else c.lat }

/-- The reset branches. -/
def asyncReset : L1Cache :=
  { c with
    state := .idle
    lat := L1Req.zero
    validRam := fun _ => false
    dirtyRam := fun _ => false }

/-- `l1_cache` at a positive clock edge. -/
def clk (rstN : Bool) : L1Cache := if rstN then c.next numWays i else c.asyncReset

end Edge

end L1Cache

end URiscV.Hdl
