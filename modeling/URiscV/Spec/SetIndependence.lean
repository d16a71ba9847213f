import URiscV.ForStd.Shards
import URiscV.Spec.CacheCoherence
import URiscV.Spec.CacheSet

/-!
# The sets of the cache are independent

All sets share the controller, the latched request, the victim registers and the port of
the next level. Still the cache with its next level is a server made of one `CacheSet` for
each set: a run answers its requests as they do, however long the next level takes. So the
responses to the requests of a set depend on these requests only.

## Key results

- `Served.next`: one edge
- `sets_independent`: two runs that ask the same of a set
-/

namespace URiscV.Hdl.Sys

open L1Cache (index lineWord)

/-! ## Runs and sets -/

/-- The set of a request. -/
def setIndex (r : L1Req) : BitVec 4 := index r.addr

/-- The sets of the cache, each with its lines of the next level. -/
def sets (y : Sys) : BitVec 4 → CacheSet := CacheSet.of y.cache y.nextLevel.mem

/-- `resp_hit` and `resp_rdata` of the response in a cycle, if there is one. -/
def answerNow (i : SysIn) (y : Sys) : List (Bool × BitVec 32) :=
  if (y.out i).respValid then [((y.out i).respHit, (y.out i).respRdata)] else []

/-- The responses given in the first `n` cycles. -/
def answers (ins : Nat → SysIn) (y : Sys) (n : Nat) : List (Bool × BitVec 32) :=
  Clocked.log answerNow next ins y n

/-- The requests of a set accepted in the first `n` cycles. -/
def setRequests (set : BitVec 4) (ins : Nat → SysIn) (y : Sys) (n : Nat) : List L1Req :=
  Shards.requestsOf setIndex set (accepted ins y n)

/-- The responses to the requests of a set in the first `n` cycles. -/
def setAnswers (set : BitVec 4) (ins : Nat → SysIn) (y : Sys) (n : Nat) :
    List (Bool × BitVec 32) :=
  Shards.answersOf setIndex set (accepted ins y n) (answers ins y n)

/-! ## The request in service -/

/-- The sets `st`, with the victim of the latched request written back. -/
def evicted (y : Sys) (st : BitVec 4 → CacheSet) : BitVec 4 → CacheSet :=
  Function.update st y.cache.latIndex (st y.cache.latIndex).evict

/-- The sets `st` behind the latched request. -/
def performed (y : Sys) (st : BitVec 4 → CacheSet) : BitVec 4 → CacheSet :=
  Shards.apply setIndex CacheSet.serve st y.cache.lat

/-- The response to the latched request by the sets `st`. -/
def latAnswer (y : Sys) (st : BitVec 4 → CacheSet) : Bool × BitVec 32 :=
  ((st y.cache.latIndex).serve y.cache.lat).2

/-- The latched line is in no way of its set, and the way it will be put in is the
    victim. -/
structure Missing (y : Sys) (st : BitVec 4 → CacheSet) : Prop where
  lookup : (st y.cache.latIndex).lookup y.cache.latTag = none
  victim : y.cache.latVictimWay = y.cache.victimWay

/-- How far the latched request has got, when `st` are the sets behind all requests
    before it.

    * `offered`: the next level has accepted the victim;
    * `committed`: it has committed it, and will acknowledge;
    * `readout`: the request has been performed, but its response is still due. -/
inductive Stage (y : Sys) (st : BitVec 4 → CacheSet) : Prop
  | idle (hst : y.cache.state = .idle) (hp : y.nextLevel.pending = none) (hsets : y.sets = st)
  | compare (hst : y.cache.state = .compareTag) (hp : y.nextLevel.pending = none)
      (hsets : y.sets = st)
  | writeback (hst : y.cache.state = .writeback) (hp : y.nextLevel.pending = none)
      (hsets : y.sets = st) (hmiss : Missing y st) (hd : y.cache.victimDirty = true)
  | offered (hst : y.cache.state = .writebackWait)
      (hp : y.nextLevel.pending =
        some (y.cache.victimTag ++ y.cache.latIndex, y.cache.victimData))
      (hsets : y.sets = st) (hmiss : Missing y st) (hd : y.cache.victimDirty = true)
  | committed (hst : y.cache.state = .writebackWait) (hp : y.nextLevel.pending = none)
      (hsets : y.sets = y.evicted st) (hmiss : Missing y st)
  | fill (hst : y.cache.state = .fill) (hp : y.nextLevel.pending = none)
      (hsets : y.sets = y.evicted st) (hmiss : Missing y st)
  | fillWait (hst : y.cache.state = .fillWait) (hp : y.nextLevel.pending = none)
      (hsets : y.sets = y.evicted st) (hmiss : Missing y st)
      (hf : y.nextLevel.fillLine = some y.cache.latLine)
  | readout (hst : y.cache.state = .readout) (hp : y.nextLevel.pending = none)
      (hsets : y.sets = y.performed st)
      (hresp : y.latAnswer st =
        (false, lineWord (y.cache.dataRam y.cache.fillSlot) y.cache.latWord))

section Step

variable {y : Sys} {st : BitVec 4 → CacheSet} {i : SysIn}

/-- Outside of hits and fills an edge changes a set through the next level only. -/
theorem sets_next_of_ne (h1 : y.cache.state ≠ .compareTag) (h2 : y.cache.state ≠ .fillWait) :
    (y.next i).sets = CacheSet.of y.cache (y.next i).nextLevel.mem := by
  rw [sets, next_of_ne h1 h2]
  rfl

/-- Where the next request, if any, is latched. -/
theorem stage_of_ready (hp : (y.next i).nextLevel.pending = none) (hsets : (y.next i).sets = st)
    (hst : (y.next i).cache.state = if i.reqValid then .compareTag else .idle) :
    Stage (y.next i) st := by
  cases hv : i.reqValid with
  | true =>
    rw [hv] at hst
    exact .compare hst hp hsets
  | false =>
    rw [hv] at hst
    exact .idle hst hp hsets

/-- `L1_IDLE` and `L1_READOUT`. -/
theorem stage_next_of_ready (hst : y.cache.state = .idle ∨ y.cache.state = .readout)
    (hp : y.nextLevel.pending = none) (hsets : y.sets = st) : Stage (y.next i) st := by
  obtain ⟨h1, h2, hvalid⟩ := @quiet_of_ready y i hst
  obtain ⟨hp', hmem⟩ := @nextLevel_of_no_write y i hp (by simp [hvalid])
  refine stage_of_ready hp' ?_ (next_state_of_ready hst)
  rw [sets_next_of_ne h1 h2, hmem]
  exact hsets

/-- The lookup of the live address is that of the latched request in its set. -/
theorem lookup_of_sets (hsets : y.sets = st) (hreq : i.req.addr = y.cache.lat.addr) :
    y.cache.lookup i.req.addr =
      ((st y.cache.latIndex).lookup y.cache.latTag).map Bool.toNat := by
  rw [hreq, ← hsets]
  exact CacheSet.lookup_of _

/-- `L1_COMPARE_TAG`, hit. -/
theorem stage_next_of_hit (hst : y.cache.state = .compareTag) (hp : y.nextLevel.pending = none)
    (hsets : y.sets = st) (hreq : i.req.addr = y.cache.lat.addr) {w : Bool}
    (hw : (st y.cache.latIndex).lookup y.cache.latTag = some w) :
    Stage (y.next i) (y.performed st) ∧
      (y.next i).cache.state = (if i.reqValid then .compareTag else .idle) ∧
      (y.out i).reqReady = true ∧ answerNow i y = [y.latAnswer st] := by
  have hlook : y.cache.lookup i.req.addr = some w.toNat := by
    rw [lookup_of_sets hsets hreq, hw]
    rfl
  have hhit : y.cache.cacheHit 2 i.req.addr = true := by rw [L1Cache.cacheHit_eq, hlook]; rfl
  have hserve : (st y.cache.latIndex).serve y.cache.lat = _ := CacheSet.serve_of_hit hw
  have hout : y.out i = _ := L1Cache.out_of_hit hst hhit
  have hnext : (y.next i).cache = _ := L1Cache.next_of_hit (i := y.l1In i) hst hhit
  obtain ⟨hp', hmem⟩ := @nextLevel_of_no_write y i hp (by simp [hout])
  have hstate := next_state_of_hit hst hhit
  refine ⟨stage_of_ready hp' ?_ hstate, hstate, by rw [hout], ?_⟩
  -- the RAMs are updated at the latched index and the way that hit
  · have hof : (y.next i).sets =
        CacheSet.of (y.cache.compareUpdate 2 (y.l1In i)) y.nextLevel.mem := by
      rw [sets, hnext, hmem]
      rfl
    have hupd := @CacheSet.of_compareUpdate y.cache (y.l1In i) y.nextLevel.mem w hlook
    rw [hof, hupd, performed, Shards.apply]
    show Function.update y.sets y.cache.latIndex ((y.sets y.cache.latIndex).hit y.cache.lat w) =
      Function.update st y.cache.latIndex ((st y.cache.latIndex).serve y.cache.lat).1
    rw [hserve, hsets]
  -- the response is the word before the write
  · have hslot : y.cache.hitSlot 2 i.req.addr = (y.cache.latIndex, w.toNat) :=
      L1Cache.hitSlot_of_lookup hlook
    rw [answerNow, hout, if_pos rfl, hslot, latAnswer, hserve, ← hsets]
    rfl

/-- `L1_COMPARE_TAG`, miss: the victim way is latched. -/
theorem stage_next_of_miss (hst : y.cache.state = .compareTag) (hp : y.nextLevel.pending = none)
    (hsets : y.sets = st) (hreq : i.req.addr = y.cache.lat.addr)
    (hmiss : (st y.cache.latIndex).lookup y.cache.latTag = none) :
    Stage (y.next i) st ∧ (y.next i).cache.state ≠ .idle ∧ y.out i = {} := by
  have hlook : y.cache.lookup i.req.addr = none := by rw [lookup_of_sets hsets hreq, hmiss]; rfl
  have hhit : y.cache.cacheHit 2 i.req.addr = false := by rw [L1Cache.cacheHit_eq, hlook]; rfl
  have hout : y.out i = {} := L1Cache.out_of_miss hst hhit
  have hnext : (y.next i).cache = { y.cache with
      state := if y.cache.victimDirty then .writeback else .fill
      latVictimWay := y.cache.victimWay } := L1Cache.next_of_miss (i := y.l1In i) hst hhit
  obtain ⟨hp', hmem⟩ := @nextLevel_of_no_write y i hp (by simp [hout])
  have hsets' : (y.next i).sets = st := by
    rw [sets, hnext, hmem]
    exact hsets
  have hlat : (y.next i).cache.latIndex = y.cache.latIndex := by rw [hnext]; rfl
  have hmissing : Missing (y.next i) st := ⟨by rw [hnext]; exact hmiss, by rw [hnext]; rfl⟩
  cases hd : y.cache.victimDirty with
  | true =>
    rw [hd, if_pos rfl] at hnext
    refine ⟨.writeback (by rw [hnext]) hp' hsets' hmissing ?_, by rw [hnext]; simp, hout⟩
    rw [hnext]
    exact hd
  | false =>
    rw [hd, if_neg Bool.false_ne_true] at hnext
    refine ⟨.fill (by rw [hnext]) hp' ?_ hmissing, by rw [hnext]; simp, hout⟩
    -- a clean victim is not written back
    have hclean : (st y.cache.latIndex).victimDirty = false := by
      rw [← hsets]
      exact hd
    rw [hsets', evicted, hlat, CacheSet.evict_of_clean hclean, Function.update_eq_self]

/-- What stays in an edge between the miss and the fill, apart from the next level. -/
theorem Missing.congr {y' : Sys} {state : L1State} (h : Missing y st)
    (hc : y'.cache = { y.cache with state := state }) : Missing y' st :=
  ⟨by rw [hc]; exact h.lookup, by rw [hc]; exact h.victim⟩

/-- The set behind the eviction stays, too. -/
theorem evicted_congr {y' : Sys} {state : L1State}
    (hc : y'.cache = { y.cache with state := state }) : y'.evicted st = y.evicted st := by
  rw [evicted, hc]
  rfl

/-- If the next level keeps its lines, too, the sets stay what they are. -/
theorem sets_congr {y' : Sys} {state : L1State}
    (hc : y'.cache = { y.cache with state := state }) (hmem : y'.nextLevel.mem = y.nextLevel.mem) :
    y'.sets = y.sets := by
  rw [sets, hc, hmem]
  rfl

/-- In a miss that is not filled, an edge changes only the controller state. -/
theorem next_cache_of_inMiss (hm : y.cache.inMiss = true)
    (hf : ¬(y.cache.state = .fillWait ∧ i.memRespValid = true)) :
    (y.next i).cache = { y.cache with state := y.cache.fsm 2 (y.l1In i) } :=
  L1Cache.next_of_inMiss (i := y.l1In i) hm hf

/-- `L1_WRITEBACK`: the victim is offered to the next level. -/
theorem stage_next_of_writeback (hst : y.cache.state = .writeback)
    (hp : y.nextLevel.pending = none) (hsets : y.sets = st) (hmiss : Missing y st)
    (hd : y.cache.victimDirty = true) :
    Stage (y.next i) st ∧ (y.next i).cache.state ≠ .idle := by
  have hnext := @next_cache_of_inMiss y i (by simp [L1Cache.inMiss, hst]) (by simp [hst])
  rw [L1Cache.fsm, hst] at hnext
  have hmem : (y.next i).nextLevel.mem = y.nextLevel.mem := NextLevel.clk_mem_of_pending_none hp
  have hsets' : (y.next i).sets = st := (sets_congr hnext hmem).trans hsets
  have hd' : (y.next i).cache.victimDirty = true := by rw [hnext]; exact hd
  have hmiss' : Missing (y.next i) st := hmiss.congr hnext
  -- the next level takes the offer or not
  cases hr : i.memReqReady with
  | true =>
    simp only [l1In, hr, if_true] at hnext
    refine ⟨.offered (by rw [hnext]) ?_ hsets' hmiss' hd', by rw [hnext]; simp⟩
    rw [hnext]
    exact pending_next_of_writeback hst hr
  | false =>
    simp only [l1In, hr, Bool.false_eq_true, if_false] at hnext
    refine ⟨.writeback (by rw [hnext]) ?_ hsets' hmiss' hd', by rw [hnext]; simp⟩
    exact NextLevel.clk_pending_of_no_write hp (by simp [hr])

/-- `L1_WRITEBACK_WAIT`, before the next level has committed the victim. -/
theorem stage_next_of_offered (hst : y.cache.state = .writebackWait)
    (hp : y.nextLevel.pending = some (y.cache.victimTag ++ y.cache.latIndex, y.cache.victimData))
    (hsets : y.sets = st) (hmiss : Missing y st) (hd : y.cache.victimDirty = true) :
    Stage (y.next i) st ∧ (y.next i).cache.state ≠ .idle := by
  have hnext := @next_cache_of_inMiss y i (by simp [L1Cache.inMiss, hst]) (by simp [hst])
  rw [L1Cache.fsm, hst] at hnext
  have hout : y.out i = {} := L1Cache.out_of_writebackWait hst
  have hmiss' : Missing (y.next i) st := hmiss.congr hnext
  have hevicted : (y.next i).evicted st = y.evicted st := evicted_congr hnext
  cases hca : i.commit || i.memWrAck with
  | true =>
    have hpend : (y.next i).nextLevel.pending = none := by
      simp [next, NextLevel.clk, hout, hca]
    -- the line of the victim is a line of the set of the latched request
    have hmem : (y.next i).nextLevel.mem = Function.update y.nextLevel.mem
        (y.cache.victimTag ++ y.cache.latIndex) y.cache.victimData := by
      simp [next, NextLevel.clk, hp, hca]
    have hsets' : (y.next i).sets = (y.next i).evicted st := by
      rw [hevicted, evicted, ← hsets, sets, sets, ← CacheSet.of_evict hd, hnext, hmem]
      rfl
    cases ha : i.memWrAck with
    | true =>
      simp only [l1In, ha, if_true] at hnext
      exact ⟨.fill (by rw [hnext]) hpend hsets' hmiss', by rw [hnext]; simp⟩
    | false =>
      simp only [l1In, ha, Bool.false_eq_true, if_false] at hnext
      exact ⟨.committed (by rw [hnext]) hpend hsets' hmiss', by rw [hnext]; simp⟩
  | false =>
    -- nothing has happened yet
    have ha : i.memWrAck = false := (Bool.or_eq_false_iff.mp hca).2
    have hmem : (y.next i).nextLevel.mem = y.nextLevel.mem := by
      simp [next, NextLevel.clk, hp, hca]
    have hsets' : (y.next i).sets = st := (sets_congr hnext hmem).trans hsets
    simp only [l1In, ha, Bool.false_eq_true, if_false] at hnext
    refine ⟨.offered (by rw [hnext]) ?_ hsets' hmiss' ?_, by rw [hnext]; simp⟩
    · rw [hnext]
      simp [next, NextLevel.clk, hout, hca, hp]
      exact ⟨rfl, rfl⟩
    · rw [hnext]
      exact hd

/-- `L1_WRITEBACK_WAIT`, behind the commit. -/
theorem stage_next_of_committed (hst : y.cache.state = .writebackWait)
    (hp : y.nextLevel.pending = none) (hsets : y.sets = y.evicted st) (hmiss : Missing y st) :
    Stage (y.next i) st ∧ (y.next i).cache.state ≠ .idle := by
  have hnext := @next_cache_of_inMiss y i (by simp [L1Cache.inMiss, hst]) (by simp [hst])
  rw [L1Cache.fsm, hst] at hnext
  have hout : y.out i = {} := L1Cache.out_of_writebackWait hst
  obtain ⟨hp', hmem⟩ := @nextLevel_of_no_write y i hp (by simp [hout])
  have hmiss' : Missing (y.next i) st := hmiss.congr hnext
  have hsets' : (y.next i).sets = (y.next i).evicted st := by
    rw [evicted_congr hnext, sets_congr hnext hmem, hsets]
  -- the controller waits for the acknowledgement
  cases ha : i.memWrAck with
  | true =>
    simp only [l1In, ha, if_true] at hnext
    exact ⟨.fill (by rw [hnext]) hp' hsets' hmiss', by rw [hnext]; simp⟩
  | false =>
    simp only [l1In, ha, Bool.false_eq_true, if_false] at hnext
    exact ⟨.committed (by rw [hnext]) hp' hsets' hmiss', by rw [hnext]; simp⟩

/-- `L1_FILL`: the latched line is requested. -/
theorem stage_next_of_fill (hst : y.cache.state = .fill) (hp : y.nextLevel.pending = none)
    (hsets : y.sets = y.evicted st) (hmiss : Missing y st) :
    Stage (y.next i) st ∧ (y.next i).cache.state ≠ .idle := by
  have hnext := @next_cache_of_inMiss y i (by simp [L1Cache.inMiss, hst]) (by simp [hst])
  rw [L1Cache.fsm, hst] at hnext
  have hout : y.out i = _ := L1Cache.out_of_fill hst
  obtain ⟨hp', hmem⟩ := @nextLevel_of_no_write y i hp (by simp [hout])
  have hmiss' : Missing (y.next i) st := hmiss.congr hnext
  have hsets' : (y.next i).sets = (y.next i).evicted st := by
    rw [evicted_congr hnext, sets_congr hnext hmem, hsets]
  -- the next level takes the read or not
  cases hr : i.memReqReady with
  | true =>
    simp only [l1In, hr, if_true] at hnext
    refine ⟨.fillWait (by rw [hnext]) hp' hsets' hmiss' ?_, by rw [hnext]; simp⟩
    rw [hnext]
    exact fillLine_next_of_fill hst hr
  | false =>
    simp only [l1In, hr, Bool.false_eq_true, if_false] at hnext
    exact ⟨.fill (by rw [hnext]) hp' hsets' hmiss', by rw [hnext]; simp⟩

/-- `L1_FILL_WAIT`: the latched request is performed on the line that arrives. -/
theorem stage_next_of_fillWait (hst : y.cache.state = .fillWait) (hp : y.nextLevel.pending = none)
    (hsets : y.sets = y.evicted st) (hmiss : Missing y st)
    (hf : y.nextLevel.fillLine = some y.cache.latLine) :
    Stage (y.next i) st ∧ (y.next i).cache.state ≠ .idle := by
  have hout : y.out i = {} := L1Cache.out_of_fillWait hst
  obtain ⟨hp', hmem⟩ := @nextLevel_of_no_write y i hp (by simp [hout])
  cases hr : i.memRespValid with
  | false =>
    have hnext := @next_cache_of_inMiss y i (by simp [L1Cache.inMiss, hst]) (by simp [hr])
    rw [L1Cache.fsm, hst] at hnext
    simp only [l1In, hr, Bool.false_eq_true, if_false] at hnext
    refine ⟨.fillWait (by rw [hnext]) hp' ?_ (hmiss.congr hnext) ?_, by rw [hnext]; simp⟩
    · rw [evicted_congr hnext, sets_congr hnext hmem, hsets]
    · rw [hnext]
      simp only [next, NextLevel.clk, hout, hr]
      exact hf
  | true =>
    have hnext : (y.next i).cache = { y.cache.fillUpdate (y.l1In i) with state := .readout } :=
      L1Cache.next_of_fillWait (i := y.l1In i) hst hr
    -- the next level answers with the line as it is now, behind the write-back
    have hdata : (y.l1In i).memRespRdata = y.nextLevel.mem y.cache.latLine := by
      simp [l1In, NextLevel.respRdata, hf]
    have hserve : (st y.cache.latIndex).serve y.cache.lat = _ := CacheSet.serve_of_miss hmiss.lookup
    -- the set of the latched request, behind its write-back
    have hset : y.sets y.cache.latIndex = (st y.cache.latIndex).evict := by
      rw [hsets, evicted, Function.update_self]
    refine ⟨.readout (by rw [hnext]) hp' ?_ ?_, by rw [hnext]; simp⟩
    · have hof : (y.next i).sets = CacheSet.of (y.cache.fillUpdate (y.l1In i)) y.nextLevel.mem := by
        rw [sets, hnext, hmem]
        rfl
      have hperf : (y.next i).performed st =
          Function.update st y.cache.latIndex ((st y.cache.latIndex).serve y.cache.lat).1 := by
        rw [performed, hnext]
        rfl
      rw [hof, CacheSet.of_fillUpdate hmiss.victim hdata, hperf, hserve]
      show Function.update y.sets y.cache.latIndex ((y.sets y.cache.latIndex).fill y.cache.lat) = _
      rw [hset, hsets, evicted, Function.update_idem]
    · have hfilled : (st y.cache.latIndex).evict.filled y.cache.lat =
          (y.cache.fillUpdate (y.l1In i)).dataRam y.cache.fillSlot := by
        have hram : (y.cache.fillUpdate (y.l1In i)).dataRam y.cache.fillSlot = _ :=
          Function.update_self _ _ _
        rw [← hset, hram, hdata, L1Cache.latLine, ← FlatMemory.tag_append_index]
        rfl
      have hans : (y.next i).latAnswer st = ((st y.cache.latIndex).serve y.cache.lat).2 := by
        rw [latAnswer, hnext]
        rfl
      rw [hans, hserve, hfilled, hnext]
      rfl

/-- The states between the miss and the fill. -/
theorem Stage.next_of_inMiss (h : Stage y st) (hm : y.cache.inMiss = true) :
    Stage (y.next i) st ∧ (y.next i).cache.state ≠ .idle := by
  cases h with
  | writeback hst hp hsets hmiss hd => exact stage_next_of_writeback hst hp hsets hmiss hd
  | offered hst hp hsets hmiss hd => exact stage_next_of_offered hst hp hsets hmiss hd
  | committed hst hp hsets hmiss => exact stage_next_of_committed hst hp hsets hmiss
  | fill hst hp hsets hmiss => exact stage_next_of_fill hst hp hsets hmiss
  | fillWait hst hp hsets hmiss hf => exact stage_next_of_fillWait hst hp hsets hmiss hf
  | idle hst | compare hst | readout hst => simp [L1Cache.inMiss, hst] at hm

end Step

/-! ## Runs -/

/-- Where a run from the sets `st` stands: the requests `done` have been answered as the
    sets do, and the latched one, if any, is the only other request. -/
def Served (st : BitVec 4 → CacheSet) (acc : List L1Req) (vs : List (Bool × BitVec 32))
    (y : Sys) : Prop :=
  ∃ done, vs = Shards.answers setIndex CacheSet.serve st done ∧
    Stage y (Shards.after setIndex CacheSet.serve st done) ∧
    acc = if y.cache.state = .idle then done else done ++ [y.cache.lat]

section Served

variable {st : BitVec 4 → CacheSet} {acc done : List L1Req} {vs : List (Bool × BitVec 32)}
  {y : Sys} {i : SysIn}

/-- A cycle at whose end all requests so far have been answered. -/
theorem served_of_ready (hvs : vs = Shards.answers setIndex CacheSet.serve st done)
    (hstage : Stage (y.next i) (Shards.after setIndex CacheSet.serve st done))
    (hready : (y.out i).reqReady = true)
    (hst : (y.next i).cache.state = if i.reqValid then .compareTag else .idle) :
    Served st (done ++ acceptNow i y) vs (y.next i) := by
  refine ⟨done, hvs, hstage, ?_⟩
  rw [hst, next_lat, acceptNow, hready]
  cases i.reqValid with
  | true => rfl
  | false => exact List.append_nil done

/-- A cycle that takes and answers nothing. -/
theorem served_of_busy (hvs : vs = Shards.answers setIndex CacheSet.serve st done)
    (hstage : Stage (y.next i) (Shards.after setIndex CacheSet.serve st done))
    (hready : (y.out i).reqReady = false) (hresp : (y.out i).respValid = false)
    (hidle : (y.next i).cache.state ≠ .idle) :
    Served st (done ++ [y.cache.lat] ++ acceptNow i y) (vs ++ answerNow i y) (y.next i) := by
  refine ⟨done, ?_, hstage, ?_⟩
  · rw [answerNow, hresp, if_neg Bool.false_ne_true, List.append_nil, hvs]
  · rw [if_neg hidle, next_lat, acceptNow, hready]
    exact List.append_nil _

/-- The latched request is the next one to be answered. -/
theorem answers_performed (hvs : vs = Shards.answers setIndex CacheSet.serve st done) :
    vs ++ [y.latAnswer (Shards.after setIndex CacheSet.serve st done)] =
      Shards.answers setIndex CacheSet.serve st (done ++ [y.cache.lat]) := by
  rw [Shards.answers_concat, hvs]
  rfl

/-- The sets behind the latched request are those it leaves. -/
theorem after_performed : Shards.after setIndex CacheSet.serve st (done ++ [y.cache.lat]) =
    y.performed (Shards.after setIndex CacheSet.serve st done) :=
  Shards.after_concat _ _

/-- **One edge.** -/
theorem Served.next (h : Served st acc vs y)
    (hheld : y.cache.state = .compareTag → i.req.addr = y.cache.lat.addr) :
    Served st (acc ++ acceptNow i y) (vs ++ answerNow i y) (y.next i) := by
  obtain ⟨done, hvs, hstage, hacc⟩ := h
  cases hm : y.cache.inMiss with
  | true =>
    -- in a miss the CPU port is quiet
    have hidle : y.cache.state ≠ .idle := fun h => by simp [L1Cache.inMiss, h] at hm
    obtain ⟨hready, hresp⟩ := @L1Cache.quiet_of_inMiss 2 y.cache i.req.addr hm
    obtain ⟨hstage', hidle'⟩ := hstage.next_of_inMiss (i := i) hm
    rw [if_neg hidle] at hacc
    rw [hacc]
    exact served_of_busy hvs hstage' hready hresp hidle'
  | false =>
    cases hstage with
    | idle hst hp hsets =>
      have hout : y.out i = { reqReady := true } := L1Cache.out_of_idle hst
      have hnone : answerNow i y = [] := by rw [answerNow, hout, if_neg Bool.false_ne_true]
      rw [if_pos hst] at hacc
      rw [hacc, hnone, List.append_nil]
      exact served_of_ready hvs (stage_next_of_ready (.inl hst) hp hsets) (by rw [hout])
        (next_state_of_ready (.inl hst))
    | compare hst hp hsets =>
      have hidle : y.cache.state ≠ .idle := by rw [hst]; decide
      rw [if_neg hidle] at hacc
      cases hw : (Shards.after setIndex CacheSet.serve st done y.cache.latIndex).lookup
          y.cache.latTag with
      -- a hit is answered and performed in the same cycle
      | some w =>
        obtain ⟨hstage', hst', hready, hans⟩ :=
          stage_next_of_hit (i := i) hst hp hsets (hheld hst) hw
        rw [hacc, hans, answers_performed hvs]
        rw [← after_performed] at hstage'
        exact served_of_ready rfl hstage' hready hst'
      | none =>
        obtain ⟨hstage', hidle', hout⟩ := stage_next_of_miss (i := i) hst hp hsets (hheld hst) hw
        rw [hacc]
        exact served_of_busy hvs hstage' (by rw [hout]) (by rw [hout]) hidle'
    | readout hst hp hsets hresp =>
      have hidle : y.cache.state ≠ .idle := by rw [hst]; decide
      have hout : y.out i = _ := L1Cache.out_of_readout hst
      have hans : answerNow i y = [y.latAnswer (Shards.after setIndex CacheSet.serve st done)] := by
        rw [answerNow, hout, if_pos rfl, hresp]
      rw [if_neg hidle] at hacc
      rw [hacc, hans, answers_performed hvs]
      refine served_of_ready rfl ?_ (by rw [hout]) (next_state_of_ready (.inr hst))
      -- the request was performed when its line arrived
      rw [after_performed]
      exact stage_next_of_ready (.inr hst) hp hsets
    | writeback hst | offered hst | committed hst | fill hst | fillWait hst =>
      simp [L1Cache.inMiss, hst] at hm

/-- Whole runs. -/
theorem served_after {c : L1Cache} {mem : BitVec 28 → BitVec 128} {ins : Nat → SysIn} {n : Nat}
    (hheld : ∀ k < n, (after c mem ins k).cache.state = .compareTag →
      (ins k).req.addr = (after c mem ins k).cache.lat.addr) :
    Served (init c mem).sets (accepted ins (init c mem) n) (answers ins (init c mem) n)
      (after c mem ins n) := by
  induction n with
  | zero => exact ⟨[], rfl, .idle rfl rfl rfl, rfl⟩
  | succ n ih =>
    exact (ih fun k hk => hheld k (Nat.lt_succ_of_lt hk)).next (hheld n (Nat.lt_succ_self n))

/-- The accepted requests are the answered ones and at most one more. -/
theorem Served.exists_append (h : Served st acc vs y) :
    ∃ done rest, acc = done ++ rest ∧ vs = Shards.answers setIndex CacheSet.serve st done := by
  obtain ⟨done, hvs, -, hacc⟩ := h
  by_cases hst : y.cache.state = .idle
  · rw [if_pos hst] at hacc
    exact ⟨done, [], by rw [hacc, List.append_nil], hvs⟩
  · rw [if_neg hst] at hacc
    exact ⟨done, [y.cache.lat], hacc, hvs⟩

end Served

/-- **The sets are independent.** Take two runs from the same reset state over the same
    next level, of any length, with any requests whose address is held during
    `L1_COMPARE_TAG`, and with any timing of the next level. If they accept the same
    requests of a set in the same order, the responses to these requests have the same
    `resp_hit` and `resp_rdata` in both, whatever is asked of the other sets: the `k`-th
    ones are equal as soon as both have been given, and all of them when both runs have
    given equally many. -/
theorem sets_independent (c : L1Cache) (mem : BitVec 28 → BitVec 128) (set : BitVec 4)
    (ins ins' : Nat → SysIn) (n n' : Nat)
    (hheld : ∀ k < n, (after c mem ins k).cache.state = .compareTag →
      (ins k).req.addr = (after c mem ins k).cache.lat.addr)
    (hheld' : ∀ k < n', (after c mem ins' k).cache.state = .compareTag →
      (ins' k).req.addr = (after c mem ins' k).cache.lat.addr)
    (hsame : setRequests set ins (init c mem) n = setRequests set ins' (init c mem) n') :
    (∀ (k : Nat) v v', (setAnswers set ins (init c mem) n)[k]? = some v →
      (setAnswers set ins' (init c mem) n')[k]? = some v' → v = v') ∧
    ((setAnswers set ins (init c mem) n).length = (setAnswers set ins' (init c mem) n').length →
      setAnswers set ins (init c mem) n = setAnswers set ins' (init c mem) n') := by
  -- both runs answer as the same sets do
  obtain ⟨done, rest, hacc, hvs⟩ := (served_after hheld).exists_append
  obtain ⟨done', rest', hacc', hvs'⟩ := (served_after hheld').exists_append
  have hagree : ∀ (k : Nat) v v', (setAnswers set ins (init c mem) n)[k]? = some v →
      (setAnswers set ins' (init c mem) n')[k]? = some v' → v = v' := by
    intro k v v' hv hv'
    rw [setRequests, setRequests, hacc, hacc'] at hsame
    rw [setAnswers, hacc, hvs] at hv
    rw [setAnswers, hacc', hvs'] at hv'
    exact Shards.answersOf_agree hsame hv hv'
  refine ⟨hagree, fun hlen => List.ext_getElem hlen fun k h1 h2 => ?_⟩
  exact hagree k _ _ (List.getElem?_eq_getElem h1) (List.getElem?_eq_getElem h2)

/-- Reads of `addrs`, one every eight cycles; lines come `late` cycles behind the request
    at the earliest. -/
def readsIn (addrs : List (BitVec 32)) (late k : Nat) : SysIn where
  reqValid := k % 8 == 0 && decide (k / 8 < addrs.length)
  req := { addr := addrs.getD (k / 8) 0, wr := false, wdata := 0, wmask := 0 }
  memReqReady := true
  memWrAck := true
  memRespValid := decide (late ≤ k % 8)
  commit := false
  junk := 0

/-- A read of set 1 between two reads of set 0, with a slower next level. -/
theorem setAnswers_readsIn :
    (setAnswers 0 (readsIn [0, 0x10, 0x100] 5) (init L1Cache.blank (·.setWidth 128)) 24).length =
      2 ∧
    setAnswers 0 (readsIn [0, 0x100] 3) (init L1Cache.blank (·.setWidth 128)) 16 =
      setAnswers 0 (readsIn [0, 0x10, 0x100] 5) (init L1Cache.blank (·.setWidth 128)) 24 :=
  ⟨by decide +kernel,
    (sets_independent L1Cache.blank (·.setWidth 128) 0 (readsIn [0, 0x100] 3)
      (readsIn [0, 0x10, 0x100] 5) 16 24 (by decide +kernel) (by decide +kernel)
      (by decide +kernel)).2 (by decide +kernel)⟩

end URiscV.Hdl.Sys
