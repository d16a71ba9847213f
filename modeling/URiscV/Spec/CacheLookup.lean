import URiscV.Hdl.L1Cache
import URiscV.ForStd.Clocked

/-!
# The directory lookup of the two-way cache

`hit_way_onehot` and `hit_way_val` compare the tags of the *live* `req_addr`,
while data, merge and LRU update use the latched request. `lookup` says which way
of the set of an address holds its line; the cache serves the latched request
from its latched copy exactly as far as the lookup of the live address is the
same.

## Key results

- `cacheHit_eq` / `hitWayVal_eq`: the comparison logic computes `lookup`
- `servedAlike_iff`: when two live requests lead to the same service
-/

namespace URiscV.Hdl.L1Cache

/-! ## Lookup -/

/-- The highest way that is valid with the tag of `addr` in the set of `addr`. -/
def lookup (c : L1Cache) (addr : BitVec 32) : Option Nat :=
  if c.hitWay addr 1 then some 1 else if c.hitWay addr 0 then some 0 else none

section Lookup

variable {c : L1Cache} {addr : BitVec 32}

/-- The bit of a way says whether it hits. -/
theorem getLsbD_hitWayOnehot {numWays : Nat} (w : Nat) :
    (c.hitWayOnehot numWays addr).getLsbD w = (decide (w < numWays) && c.hitWay addr w) :=
  BitVec.getLsbD_ofFn _ _ _

/-- The bits of the two ways. -/
theorem hitWayOnehot_eq : c.hitWayOnehot 2 addr =
    BitVec.cons (c.hitWay addr 1) (BitVec.cons (c.hitWay addr 0) 0#0) := rfl

/-- `cache_hit` says whether the lookup has a result. -/
theorem cacheHit_eq : c.cacheHit 2 addr = (c.lookup addr).isSome := by
  rw [cacheHit, hitWayOnehot_eq, lookup]
  cases c.hitWay addr 1 <;> cases c.hitWay addr 0 <;> decide

/-- `onehot2bin` keeps the higher of two set bits. -/
theorem hitWayVal_eq : c.hitWayVal 2 addr = BitVec.ofNat (clog2 2) ((c.lookup addr).getD 0) := by
  rw [hitWayVal, hitWayOnehot_eq, lookup]
  cases c.hitWay addr 1 <;> cases c.hitWay addr 0 <;> decide

/-- There are two ways. -/
theorem lookup_lt {w : Nat} (h : c.lookup addr = some w) : w < 2 := by
  unfold lookup at h
  split at h
  · cases h; omega
  · split at h
    · cases h; omega
    · cases h

/-- The way found hits. -/
theorem hitWay_of_lookup {w : Nat} (h : c.lookup addr = some w) : c.hitWay addr w = true := by
  unfold lookup at h
  split at h
  · next h1 => cases h; exact h1
  · split at h
    · next h0 => cases h; exact h0
    · cases h

/-- When none is found, no way hits. -/
theorem hitWay_of_lookup_none (h : c.lookup addr = none) {w : Nat} (hw : w < 2) :
    c.hitWay addr w = false := by
  unfold lookup at h
  split at h
  · cases h
  · next h1 =>
    split at h
    · cases h
    · next h0 =>
      obtain rfl | rfl : w = 0 ∨ w = 1 := by omega
      · simpa using h0
      · simpa using h1

/-- The slot of a hit. -/
theorem hitSlot_of_lookup {w : Nat} (h : c.lookup addr = some w) :
    c.hitSlot 2 addr = (c.latIndex, w) := by
  have hw := lookup_lt h
  rw [hitSlot, hitWayVal_eq, h]
  obtain rfl | rfl : w = 0 ∨ w = 1 := by omega
  · rfl
  · rfl

/-- The LRU bit written by a hit designates the other way. -/
theorem hitWayVal_bit_of_lookup {w : Nat} (h : c.lookup addr = some w) :
    (c.hitWayVal 2 addr).getLsbD 0 = decide (w = 1) := by
  have hw := lookup_lt h
  rw [hitWayVal_eq, h]
  obtain rfl | rfl : w = 0 ∨ w = 1 := by omega
  · decide
  · decide

end Lookup

/-! ## Two live requests -/

/-- The latched request is served alike for the inputs `i` and `i'`: the same outputs, the
    same verdict, and the same updates of the state, of the RAMs and of `lat_victim_way`.
    All that is left to differ is `lat`, the next request. -/
structure ServedAlike (c : L1Cache) (i i' : L1In) : Prop where
  respValid : (c.out 2 i.req.addr).respValid = (c.out 2 i'.req.addr).respValid
  respHit : (c.out 2 i.req.addr).respHit = (c.out 2 i'.req.addr).respHit
  respRdata : (c.out 2 i.req.addr).respRdata = (c.out 2 i'.req.addr).respRdata
  reqReady : (c.out 2 i.req.addr).reqReady = (c.out 2 i'.req.addr).reqReady
  memReqValid : (c.out 2 i.req.addr).memReqValid = (c.out 2 i'.req.addr).memReqValid
  memReqAddr : (c.out 2 i.req.addr).memReqAddr = (c.out 2 i'.req.addr).memReqAddr
  memReqWr : (c.out 2 i.req.addr).memReqWr = (c.out 2 i'.req.addr).memReqWr
  memReqWdata : (c.out 2 i.req.addr).memReqWdata = (c.out 2 i'.req.addr).memReqWdata
  cacheHit : c.cacheHit 2 i.req.addr = c.cacheHit 2 i'.req.addr
  state : (c.next 2 i).state = (c.next 2 i').state
  tagRam : (c.next 2 i).tagRam = (c.next 2 i').tagRam
  dataRam : (c.next 2 i).dataRam = (c.next 2 i').dataRam
  validRam : (c.next 2 i).validRam = (c.next 2 i').validRam
  dirtyRam : (c.next 2 i).dirtyRam = (c.next 2 i').dirtyRam
  lruRam : (c.next 2 i).lruRam = (c.next 2 i').lruRam
  latVictimWay : (c.next 2 i).latVictimWay = (c.next 2 i').latVictimWay

section TwoRequests

variable {c : L1Cache} {i : L1In} {r : L1Req}

/-- The data block in `L1_COMPARE_TAG` depends on the live request through its
    lookup only. -/
theorem compareUpdate_of_lookup (h : c.lookup i.req.addr = c.lookup r.addr) :
    c.compareUpdate 2 i = c.compareUpdate 2 { i with req := r } := by
  have hhit : c.cacheHit 2 i.req.addr = c.cacheHit 2 r.addr := by rw [cacheHit_eq, cacheHit_eq, h]
  have hval : c.hitWayVal 2 i.req.addr = c.hitWayVal 2 r.addr := by
    rw [hitWayVal_eq, hitWayVal_eq, h]
  simp only [compareUpdate, hitSlot, hhit, hval]

/-- The outputs depend on the live request through its lookup only. -/
theorem out_of_lookup {a a' : BitVec 32} (h : c.lookup a = c.lookup a') :
    c.out 2 a = c.out 2 a' := by
  have hhit : c.cacheHit 2 a = c.cacheHit 2 a' := by rw [cacheHit_eq, cacheHit_eq, h]
  have hval : c.hitWayVal 2 a = c.hitWayVal 2 a' := by rw [hitWayVal_eq, hitWayVal_eq, h]
  simp only [out, hitSlot, hhit, hval]

/-- **Service from the latched copy.** In `L1_COMPARE_TAG`, two live requests lead
    to the same service of the latched one exactly when the directory lookup of
    their addresses is the same. -/
theorem servedAlike_iff (hst : c.state = .compareTag) (i : L1In) (r : L1Req) :
    ServedAlike c i { i with req := r } ↔ c.lookup i.req.addr = c.lookup r.addr := by
  constructor
  · intro h
    -- the hit flag tells hits from misses
    have hsome : (c.lookup i.req.addr).isSome = (c.lookup r.addr).isSome := by
      rw [← cacheHit_eq, ← cacheHit_eq]; exact h.cacheHit
    -- a hit and a miss, or hits in different ways, would not be served alike
    cases ha : c.lookup i.req.addr with
    | none =>
      cases hb : c.lookup r.addr with
      | none => rfl
      | some w' => rw [ha, hb] at hsome; cases hsome
    | some w =>
      cases hb : c.lookup r.addr with
      | none => rw [ha, hb] at hsome; cases hsome
      | some w' =>
        -- both hit: the LRU bit written tells the ways apart
        have hlru := congrFun h.lruRam c.latIndex
        have hha : c.cacheHit 2 i.req.addr = true := by rw [cacheHit_eq, ha]; rfl
        have hhb : c.cacheHit 2 r.addr = true := by rw [cacheHit_eq, hb]; rfl
        have hlru_eq (i : L1In) (hi : c.cacheHit 2 i.req.addr = true) :
            (c.next 2 i).lruRam c.latIndex = !(c.hitWayVal 2 i.req.addr).getLsbD 0 := by
          simp only [next, dataUpdate, hst, if_true, compareUpdate, hi]
          cases c.lat.wr <;> simp
        rw [hlru_eq i hha, hlru_eq { i with req := r } hhb, hitWayVal_bit_of_lookup ha,
          hitWayVal_bit_of_lookup hb, Bool.not_inj_iff] at hlru
        have hw := lookup_lt ha
        have hw' := lookup_lt hb
        have hiff : w = 1 ↔ w' = 1 := by simpa using hlru
        have : w = w' := by omega
        rw [this]
  · intro h
    have hout : c.out 2 i.req.addr = c.out 2 r.addr := out_of_lookup h
    have hhit : c.cacheHit 2 i.req.addr = c.cacheHit 2 r.addr := by rw [cacheHit_eq, cacheHit_eq, h]
    have hdata : c.dataUpdate 2 i = c.dataUpdate 2 { i with req := r } := by
      simp only [dataUpdate, hst, if_true, compareUpdate_of_lookup h]
    have hfsm : c.fsm 2 i = c.fsm 2 { i with req := r } := by simp only [fsm, hst, hhit]
    constructor <;> first | exact hhit | exact hfsm | simp only [hout] | simp only [next, hdata]

end TwoRequests

/-! ## A reachable state with a line -/

/-- States reached from a reset, whatever the inputs and whatever `rst_n` does. -/
inductive Reachable (numWays : Nat) : L1Cache → Prop
  | reset (c : L1Cache) : Reachable numWays c.asyncReset
  | clk (rstN : Bool) (i : L1In) {c : L1Cache} (h : Reachable numWays c) :
      Reachable numWays (c.clk numWays i rstN)

/-- Runs stay among the reachable states. -/
theorem reachable_run {numWays : Nat} {c : L1Cache} (h : Reachable numWays c) (ins : Nat → L1In)
    (n : Nat) : Reachable numWays (Clocked.run (fun i c => c.next numWays i) ins c n) :=
  Clocked.run_invariant h (fun i _ hc => hc.clk true i) n

/-- A cache with cleared RAMs. -/
def blank : L1Cache where
  state := .idle
  lat := L1Req.zero
  latVictimWay := false
  tagRam := fun _ => 0
  dataRam := fun _ => 0
  validRam := fun _ => false
  dirtyRam := fun _ => false
  lruRam := fun _ => false

/-- A read of address 0, with a memory that answers at once. -/
def readZero : L1In where
  reqValid := true
  req := L1Req.zero
  memReqReady := true
  memWrAck := false
  memRespValid := true
  memRespRdata := 0

/-- Line 0 has been fetched and a second read of it is in `L1_COMPARE_TAG`. -/
def fetched : L1Cache := Clocked.run (fun i c => c.next 2 i) (fun _ => readZero) blank.asyncReset 5

/-- Another request to line 0 on the inputs does no harm. -/
theorem servedAlike_fetched : ServedAlike fetched readZero
    { readZero with req := { addr := 8, wr := true, wdata := 5, wmask := 0xf } } :=
  (servedAlike_iff (by decide) readZero _).mpr (by decide)

/-- A request to a line that is not in the cache turns the hit into a miss. -/
theorem not_servedAlike_fetched : Reachable 2 fetched ∧ fetched.state = .compareTag ∧
    ¬ ServedAlike fetched readZero
      { readZero with req := { addr := 0x100, wr := false, wdata := 0, wmask := 0 } } :=
  ⟨reachable_run (.reset _) _ 5, by decide, fun h => absurd h.respValid (by decide)⟩

end URiscV.Hdl.L1Cache
