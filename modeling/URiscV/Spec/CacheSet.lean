import URiscV.Spec.CacheReset
import URiscV.Spec.CacheSystem

/-!
# One set of the cache

A set of the two-way cache and the lines of the next level that map to it: what a request
to this set reads and writes, and all that it does. `serve` is a whole request, from its
acceptance to its response, without the controller and without time.

## Key results

- `lookup_of`: the comparison of the tags
- `of_compareUpdate` / `of_evict` / `of_fillUpdate`: the updates of the RAMs and of the
  next level, in the set of the latched request and in the others
-/

namespace URiscV.Hdl

open L1Cache (tag index word lineWord lineWriteWord)

/-- The two ways of a set, its bit of `lru_ram`, and its lines in the next level. -/
@[ext] structure CacheSet where
  valid : Bool → Bool
  tag : Bool → BitVec 24
  data : Bool → BitVec 128
  dirty : Bool → Bool
  lru : Bool
  mem : BitVec 24 → BitVec 128

namespace CacheSet

/-- The way that holds the line with tag `t`. -/
def lookup (x : CacheSet) (t : BitVec 24) : Option Bool :=
  if x.valid true && x.tag true == t then some true
  else if x.valid false && x.tag false == t then some false
  else none

/-- A request for a line that is in way `w`. -/
def hit (r : L1Req) (w : Bool) (x : CacheSet) : CacheSet :=
  if r.wr then
    { x with
      lru := !w
      data := Function.update x.data w
        (lineWriteWord (x.data w) (word r.addr) r.wdata r.wmask)
      dirty := Function.update x.dirty w true }
  -- a read hit marks the victim clean
  else { x with lru := !w, dirty := Function.update x.dirty x.lru false }

/-- The victim holds data that the next level may not have. -/
def victimDirty (x : CacheSet) : Bool := x.valid x.lru && x.dirty x.lru

/-- The victim is written back, if it has to be. -/
def evict (x : CacheSet) : CacheSet :=
  if x.victimDirty then { x with mem := Function.update x.mem (x.tag x.lru) (x.data x.lru) }
  else x

/-- What is put in the way of the victim. -/
def filled (r : L1Req) (x : CacheSet) : BitVec 128 :=
  if r.wr then lineWriteWord (x.mem (L1Cache.tag r.addr)) (word r.addr) r.wdata r.wmask
  else x.mem (L1Cache.tag r.addr)

/-- The line of a request replaces the victim. -/
def fill (r : L1Req) (x : CacheSet) : CacheSet :=
  { x with
    valid := Function.update x.valid x.lru true
    tag := Function.update x.tag x.lru (L1Cache.tag r.addr)
    data := Function.update x.data x.lru (x.filled r)
    dirty := Function.update x.dirty x.lru r.wr
    lru := !x.lru }

/-- A request to the set, with `resp_hit` and `resp_rdata` of its response. -/
def serve (r : L1Req) (x : CacheSet) : CacheSet × (Bool × BitVec 32) :=
  match x.lookup (L1Cache.tag r.addr) with
  | some w => (x.hit r w, true, lineWord (x.data w) (word r.addr))
  | none => (x.evict.fill r, false, lineWord (x.evict.filled r) (word r.addr))

section Serve

variable {r : L1Req} {x : CacheSet}

/-- A hit. -/
theorem serve_of_hit {w : Bool} (h : x.lookup (L1Cache.tag r.addr) = some w) :
    x.serve r = (x.hit r w, true, lineWord (x.data w) (word r.addr)) := by
  rw [serve, h]

/-- A miss. -/
theorem serve_of_miss (h : x.lookup (L1Cache.tag r.addr) = none) :
    x.serve r = (x.evict.fill r, false, lineWord (x.evict.filled r) (word r.addr)) := by
  rw [serve, h]

/-- A clean victim is not written back. -/
theorem evict_of_clean (h : x.victimDirty = false) : x.evict = x := by
  rw [evict, h, if_neg Bool.false_ne_true]

end Serve

/-! ## The sets of the cache -/

/-- A set of the cache over a next level with lines `mem`. -/
def of (c : L1Cache) (mem : BitVec 28 → BitVec 128) (set : BitVec 4) : CacheSet where
  valid := fun w => c.validRam (set, w.toNat)
  tag := fun w => c.tagRam (set, w.toNat)
  data := fun w => c.dataRam (set, w.toNat)
  dirty := fun w => c.dirtyRam (set, w.toNat)
  lru := c.lruRam set
  mem := fun t => mem (t ++ set)

section Of

variable {c : L1Cache} {i : L1In} {mem : BitVec 28 → BitVec 128}

/-- A way of the cache hits as that of the set does. -/
theorem hitWay_of (addr : BitVec 32) (w : Bool) : c.hitWay addr w.toNat =
    ((of c mem (index addr)).valid w && (of c mem (index addr)).tag w == L1Cache.tag addr) := rfl

/-- The lookup of an address is that of its set. -/
theorem lookup_of (addr : BitVec 32) :
    c.lookup addr = ((of c mem (index addr)).lookup (L1Cache.tag addr)).map Bool.toNat := by
  have h1 : c.hitWay addr 1 = _ := @hitWay_of c mem addr true
  have h0 : c.hitWay addr 0 = _ := @hitWay_of c mem addr false
  rw [L1Cache.lookup, lookup, h1, h0]
  split
  · rfl
  · split
    · rfl
    · rfl

/-- A hit is a hit of the set of the latched request. -/
theorem of_compareUpdate {w : Bool} (hw : c.lookup i.req.addr = some w.toNat) :
    of (c.compareUpdate 2 i) mem =
      Function.update (of c mem) c.latIndex ((of c mem c.latIndex).hit c.lat w) := by
  funext set
  -- the set of the request, and the others
  by_cases hset : set = c.latIndex
  · subst hset
    rw [Function.update_self, hit]
    cases hwr : c.lat.wr with
    | true =>
      rw [L1Cache.compareUpdate_of_write hw hwr, if_pos rfl, of]
      simp only [L1Cache.update_way, if_true, Function.update_self]
      rfl
    | false =>
      rw [L1Cache.compareUpdate_of_read hw hwr, if_neg Bool.false_ne_true, of]
      simp only [L1Cache.update_way, if_true, Function.update_self]
      rfl
  · rw [Function.update_of_ne hset]
    cases hwr : c.lat.wr with
    | true =>
      rw [L1Cache.compareUpdate_of_write hw hwr, of]
      simp only [L1Cache.update_way, if_neg hset, Function.update_of_ne hset]
      rfl
    | false =>
      rw [L1Cache.compareUpdate_of_read hw hwr, of]
      simp only [L1Cache.update_way, if_neg hset, Function.update_of_ne hset]
      rfl

/-- The arrival of the latched line is a fill of its set. -/
theorem of_fillUpdate (hv : c.latVictimWay = c.victimWay)
    (hline : i.memRespRdata = mem c.latLine) :
    of (c.fillUpdate i) mem =
      Function.update (of c mem) c.latIndex ((of c mem c.latIndex).fill c.lat) := by
  -- the way that was latched in the miss is still the victim
  have hslot : c.fillSlot = (c.latIndex, c.victimWay.toNat) := by rw [L1Cache.fillSlot, hv]
  have hmem : mem (c.latTag ++ c.latIndex) = mem c.latLine := by
    rw [L1Cache.latTag, L1Cache.latIndex, FlatMemory.tag_append_index]
    rfl
  funext set
  by_cases hset : set = c.latIndex
  · subst hset
    have hfilled : (of c mem c.latIndex).filled c.lat =
        if c.lat.wr then lineWriteWord i.memRespRdata c.latWord c.lat.wdata c.lat.wmask
        else i.memRespRdata := by
      rw [hline, ← hmem]
      rfl
    rw [Function.update_self, fill, hfilled, of, L1Cache.fillUpdate, hslot, hv]
    simp only [L1Cache.update_way, if_true, Function.update_self]
    rfl
  · rw [Function.update_of_ne hset, of, L1Cache.fillUpdate, hslot]
    simp only [L1Cache.update_way, if_neg hset, Function.update_of_ne hset]
    rfl

/-- When the next level commits the victim, the set of the latched request has written it
    back. -/
theorem of_evict (hd : c.victimDirty = true) :
    of c (Function.update mem (c.victimTag ++ c.latIndex) c.victimData) =
      Function.update (of c mem) c.latIndex (of c mem c.latIndex).evict := by
  have hdirty : (of c mem c.latIndex).victimDirty = true := hd
  funext set
  by_cases hset : set = c.latIndex
  · subst hset
    rw [Function.update_self, evict, hdirty, if_pos rfl]
    ext1
    case mem =>
      funext t
      show Function.update mem (c.victimTag ++ c.latIndex) c.victimData (t ++ c.latIndex) =
        Function.update (fun t => mem (t ++ c.latIndex)) c.victimTag c.victimData t
      -- of the lines of the set, only that of the victim changes
      by_cases ht : t = c.victimTag
      · subst ht
        rw [Function.update_self, Function.update_self]
      · have hne : t ++ c.latIndex ≠ c.victimTag ++ c.latIndex :=
          fun h => ht (BitVec.append_eq_append_iff.mp h).1
        rw [Function.update_of_ne hne, Function.update_of_ne ht]
    all_goals rfl
  · rw [Function.update_of_ne hset]
    ext1
    -- the lines of another set are other lines
    case mem =>
      funext t
      exact Function.update_of_ne (fun h => hset (BitVec.append_eq_append_iff.mp h).2) _ _
    all_goals rfl

end Of

end CacheSet

end URiscV.Hdl
