import URiscV.Hdl.L1Cache
import URiscV.ForStd.Clocked

/-!
# One clock edge of the cache

What the ports show in each state of the controller, and what an edge with `rst_n`
high does there, for any number of ways. Later modules use these equations and do not
unfold `L1Cache.out` and `L1Cache.next`.
-/

namespace URiscV.Hdl.L1Cache

/-- The states between a miss and the arrival of the line. -/
def inMiss (c : L1Cache) : Bool :=
  match c.state with
  | .writeback => true
  | .writebackWait => true
  | .fill => true
  | .fillWait => true
  | _ => false

/-! ## Ports -/

section Ports

variable {numWays : Nat} {c : L1Cache} {reqAddr : BitVec 32}

/-- The controller waits for a request. -/
theorem out_of_idle (hst : c.state = .idle) : c.out numWays reqAddr = { reqReady := true } := by
  rw [out, hst]

/-- A hit is answered, and the next request taken, in the cycle of the tag compare. -/
theorem out_of_hit (hst : c.state = .compareTag) (hhit : c.cacheHit numWays reqAddr = true) :
    c.out numWays reqAddr =
      { respValid := true, respHit := true,
        respRdata := lineWord (c.dataRam (c.hitSlot numWays reqAddr)) c.latWord,
        reqReady := true } := by
  simp only [out, hst, hhit, if_true]

/-- A miss shows nothing in that cycle. -/
theorem out_of_miss (hst : c.state = .compareTag) (hhit : c.cacheHit numWays reqAddr = false) :
    c.out numWays reqAddr = {} := by
  simp only [out, hst, hhit, Bool.false_eq_true, if_false]

/-- The write-back is offered. -/
theorem out_of_writeback (hst : c.state = .writeback) :
    c.out numWays reqAddr =
      { memReqValid := true, memReqWr := true,
        memReqAddr := c.victimTag ++ c.latIndex ++ 0#4, memReqWdata := c.victimData } := by
  rw [out, hst]

/-- The fill is requested. -/
theorem out_of_fill (hst : c.state = .fill) :
    c.out numWays reqAddr =
      { memReqValid := true, memReqWr := false, memReqAddr := c.latLineAddr } := by
  rw [out, hst]

/-- Nothing is shown while the cache waits for the acknowledgement. -/
theorem out_of_writebackWait (hst : c.state = .writebackWait) : c.out numWays reqAddr = {} := by
  rw [out, hst]

/-- Nor while it waits for the line. -/
theorem out_of_fillWait (hst : c.state = .fillWait) : c.out numWays reqAddr = {} := by
  rw [out, hst]

/-- A miss is answered from the line that has come. -/
theorem out_of_readout (hst : c.state = .readout) :
    c.out numWays reqAddr =
      { respValid := true, respHit := false,
        respRdata := lineWord (c.dataRam c.fillSlot) c.latWord, reqReady := true } := by
  rw [out, hst]

/-- A miss keeps the CPU port quiet until the line is there. -/
theorem quiet_of_inMiss (hm : c.inMiss = true) :
    (c.out numWays reqAddr).reqReady = false ∧ (c.out numWays reqAddr).respValid = false := by
  cases hst : c.state with
  | idle | compareTag | readout => simp [inMiss, hst] at hm
  | writeback => rw [out_of_writeback hst]; exact ⟨rfl, rfl⟩
  | writebackWait => rw [out_of_writebackWait hst]; exact ⟨rfl, rfl⟩
  | fill => rw [out_of_fill hst]; exact ⟨rfl, rfl⟩
  | fillWait => rw [out_of_fillWait hst]; exact ⟨rfl, rfl⟩

end Ports

/-! ## Edges -/

section Edge

variable {numWays : Nat} {c : L1Cache} {i : L1In}

/-- The RAMs change in two states only. -/
theorem dataUpdate_of_ne (h1 : c.state ≠ .compareTag) (h2 : c.state ≠ .fillWait) :
    c.dataUpdate numWays i = c := by
  simp [dataUpdate, h1, h2]

/-- A request is latched, if there is one. -/
theorem next_of_idle (hst : c.state = .idle) :
    c.next numWays i = { c with
      state := if i.reqValid then .compareTag else .idle
      lat := if i.reqValid then i.req else c.lat } := by
  rw [next, dataUpdate_of_ne (by rw [hst]; decide) (by rw [hst]; decide), out_of_idle hst, fsm, hst]
  simp only [Bool.true_and]

/-- A hit updates the RAMs and latches the next request. -/
theorem next_of_hit (hst : c.state = .compareTag) (hhit : c.cacheHit numWays i.req.addr = true) :
    c.next numWays i = { c.compareUpdate numWays i with
      state := if i.reqValid then .compareTag else .idle
      lat := if i.reqValid then i.req else c.lat } := by
  simp [next, dataUpdate, fsm, out, hst, hhit]

/-- A miss leads to the write-back or to the fill. -/
theorem next_of_miss (hst : c.state = .compareTag) (hhit : c.cacheHit numWays i.req.addr = false) :
    c.next numWays i = { c with
      state := if c.victimDirty then .writeback else .fill
      latVictimWay := c.victimWay } := by
  simp [next, dataUpdate, compareUpdate, fsm, out, hst, hhit]

/-- From the miss to the fill, an edge without fill data changes only the state. -/
theorem next_of_inMiss (hm : c.inMiss = true)
    (hf : ¬(c.state = .fillWait ∧ i.memRespValid = true)) :
    c.next numWays i = { c with state := c.fsm numWays i } := by
  have hcmp : c.state ≠ .compareTag := by
    intro h; simp [inMiss, h] at hm
  simp only [next, dataUpdate, if_neg hcmp, if_neg hf, (quiet_of_inMiss hm).1, Bool.false_and,
    Bool.false_eq_true, if_false]

/-- The line comes. -/
theorem next_of_fillWait (hst : c.state = .fillWait) (hr : i.memRespValid = true) :
    c.next numWays i = { c.fillUpdate i with state := .readout } := by
  simp [next, dataUpdate, fsm, out, hst, hr]
  rfl

/-- Behind the response the next request is latched. -/
theorem next_of_readout (hst : c.state = .readout) :
    c.next numWays i = { c with
      state := if i.reqValid then .compareTag else .idle
      lat := if i.reqValid then i.req else c.lat } := by
  rw [next, dataUpdate_of_ne (by rw [hst]; decide) (by rw [hst]; decide), out_of_readout hst, fsm,
    hst]
  simp only [Bool.true_and]

/-- Outside of the fill, an edge leaves the directory alone. -/
theorem next_dir_of_not_fill (hf : ¬(c.state = .fillWait ∧ i.memRespValid = true)) :
    (c.next numWays i).validRam = c.validRam ∧ (c.next numWays i).tagRam = c.tagRam := by
  show (c.dataUpdate numWays i).validRam = c.validRam ∧ (c.dataUpdate numWays i).tagRam = c.tagRam
  unfold dataUpdate
  rw [if_neg hf]
  split
  · unfold compareUpdate
    split
    · split <;> exact ⟨rfl, rfl⟩
    · exact ⟨rfl, rfl⟩
  · exact ⟨rfl, rfl⟩

end Edge

end URiscV.Hdl.L1Cache
