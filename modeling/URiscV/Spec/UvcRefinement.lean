import URiscV.Spec.SetIndependence
import URiscV.Spec.UvcTiming

/-!
# The cache testbench as a cache with its next level

The responder of the testbench is a next level: it commits a write-back in the cycle
behind its acceptance, and owes the data of a fill until it has answered. So a run of the
testbench is a run of the cache over a next level, and answers its requests as the sets of
the cache do.

## Key results

- `nextLevel_next`: the responder in a miss is a next level
- `Busy.step_sys` / `Busy.step_sys_compare` / `Idle.step_sys`: a clock cycle of the testbench is
  a clock edge of the system
-/

namespace URiscV.Tb

open Hdl (L1Cache L1Req L1In L1Out L1State Sys SysIn NextLevel CacheSet)
open FlatMemory (lineOf)

/-! ## The next level -/

/-- The backing memory by lines. -/
def BackingMem.lines (mem : BackingMem) : BitVec 28 → BitVec 128 := fun l => mem.line (l ++ 0#4)

namespace BackingMem

variable {mem : BackingMem}

/-- A line address is aligned. -/
theorem alignAddr_line (l : BitVec 28) : alignAddr (l ++ 0#4) = l ++ 0#4 := by
  show BitVec.extractLsb' 4 28 (l ++ 0#4) ++ 0#4 = l ++ 0#4
  rw [BitVec.extractLsb'_append_eq_left]

/-- The fill data for an address is its line. -/
theorem line_eq_lines (addr : BitVec 32) : mem.line addr = mem.lines (lineOf addr) := by
  have halign : alignAddr (lineOf addr ++ 0#4) = alignAddr addr := alignAddr_line _
  rw [lines, line, line, halign]

/-- A write-back. -/
theorem lines_update (addr : BitVec 32) (d : BitVec 128) :
    lines (Function.update mem (alignAddr addr) (some d)) =
      Function.update mem.lines (lineOf addr) d := by
  have halign : alignAddr addr = lineOf addr ++ 0#4 := rfl
  funext l
  by_cases hl : l = lineOf addr
  · subst hl
    rw [Function.update_self, lines, line, alignAddr_line, ← halign, Function.update_self]
  · have hne : l ++ 0#4 ≠ alignAddr addr := fun h =>
      hl (BitVec.append_eq_append_iff.mp (halign ▸ h)).1
    rw [Function.update_of_ne hl, lines, lines, line, line, alignAddr_line,
      Function.update_of_ne hne]

end BackingMem

namespace L1cResponder

/-- The write-back that the responder has accepted, but not yet performed. -/
def pending : L1cResponder → Option (BitVec 28 × BitVec 128)
  | .lower capt => if capt.wr then some (lineOf capt.addr, capt.wdata) else none
  | _ => none

/-- The line whose data it owes. -/
def fillLine : L1cResponder → Option (BitVec 28)
  | .lower capt | .latency capt _ | .answer capt =>
    if capt.wr then none else some (lineOf capt.addr)
  | _ => none

/-- The responder and the backing memory as a next level. -/
def nextLevel (r : L1cResponder) (mem : BackingMem) : NextLevel where
  mem := mem.lines
  pending := r.pending
  fillLine := r.fillLine

end L1cResponder

namespace L1cUvc

/-- The cache and its next level. -/
def sys (u : L1cUvc) : Sys where
  cache := u.dut
  nextLevel := u.responder.nextLevel u.backingMem

/-- What the next level and the CPU do in a cycle. -/
def sysIn (u : L1cUvc) : SysIn where
  reqValid := u.negedge.vif.reqValid
  req := u.negedge.vif.req
  memReqReady := u.negedge.vif.memReqReady
  memWrAck := u.negedge.vif.memWrAck
  memRespValid := u.negedge.vif.memRespValid
  commit := true
  junk := u.negedge.vif.memRespRdata

section Miss

variable {m m' : Stage} {c : L1Cache} {vif : L1In} {mem : BackingMem} {i : SysIn}
  {addr : BitVec 32}

/-- A cycle of a miss is an edge of the next level. -/
theorem nextLevel_next (hm : m.next? = some m') (hst : c.state = m.state)
    (hrdy : i.memReqReady = m'.memReqReady) (hresp : i.memRespValid = m'.memRespValid)
    (hcommit : i.commit = true) :
    ((m.responder c).nextLevel mem).clk (c.out 2 addr) i =
      (m'.responder c).nextLevel ((m.responder c).negedge mem vif).2.2 := by
  cases m with
  | compare | fillFinish _ => cases hm
  | writebackLower =>
    -- the write-back is performed
    obtain rfl := Option.some.inj hm
    rw [L1Cache.out_of_writebackWait hst]
    simp only [NextLevel.clk, L1cResponder.nextLevel, L1cResponder.pending, L1cResponder.fillLine,
      Stage.responder, Stage.writeback, L1cResponder.negedge, hcommit, if_true, Bool.true_or,
      BackingMem.lines_update, Bool.false_and, Bool.false_eq_true, if_false, ite_self]
  | writebackRequest | writebackRaise =>
    obtain rfl := Option.some.inj hm
    rw [L1Cache.out_of_writeback hst]
    simp [NextLevel.clk, L1cResponder.nextLevel, L1cResponder.pending, L1cResponder.fillLine,
      Stage.responder, Stage.writeback, L1cResponder.negedge, hcommit, hrdy, hresp,
      Stage.memReqReady, Stage.memRespValid]
  | writebackFinish | fillRequest | fillRaise _ =>
    obtain rfl := Option.some.inj hm
    rw [L1Cache.out_of_fill hst]
    simp [NextLevel.clk, L1cResponder.nextLevel, L1cResponder.pending, L1cResponder.fillLine,
      Stage.responder, Stage.writeback, Stage.fill, L1cResponder.negedge, hcommit, hrdy, hresp,
      Stage.memReqReady, Stage.memRespValid]
  | writebackLatency | writebackAnswer =>
    obtain rfl := Option.some.inj hm
    rw [L1Cache.out_of_writebackWait hst]
    simp [NextLevel.clk, L1cResponder.nextLevel, L1cResponder.pending, L1cResponder.fillLine,
      Stage.responder, Stage.writeback, L1cResponder.negedge, hcommit, hrdy, hresp,
      Stage.memReqReady, Stage.memRespValid]
  | fillLower _ | fillLatency _ | fillLatency' _ | fillAnswer _ =>
    obtain rfl := Option.some.inj hm
    rw [L1Cache.out_of_fillWait hst]
    simp [NextLevel.clk, L1cResponder.nextLevel, L1cResponder.pending, L1cResponder.fillLine,
      Stage.responder, Stage.fill, L1cResponder.negedge, hcommit, hrdy, hresp,
      Stage.memReqReady, Stage.memRespValid]

end Miss

section Edge

variable {u : L1cUvc} {req : L1Req}

/-- Without fill data the data lines do not matter. -/
theorem next_rdata {c : L1Cache} {vif : L1In} {d : BitVec 128}
    (h : vif.memRespValid = true → d = vif.memRespRdata) :
    c.next 2 { vif with memRespRdata := d } = c.next 2 vif := by
  by_cases hresp : vif.memRespValid = true
  · rw [h hresp]
  · have hupd : c.dataUpdate 2 { vif with memRespRdata := d } = c.dataUpdate 2 vif := by
      have hfill : ¬(c.state = .fillWait ∧ vif.memRespValid = true) := fun h => hresp h.2
      simp only [L1Cache.dataUpdate, hfill, if_false]
      rfl
    rw [L1Cache.next, L1Cache.next, hupd]
    rfl

/-- A clock cycle is an edge of the system, if the next level is what the responder shows
    and the fill data are the line that is owed. -/
theorem step_sys_of (hnext : u.sys.nextLevel.clk u.negedge.out u.sysIn = u.step.sys.nextLevel)
    (hdata : u.negedge.vif.memRespValid = true → ∀ l, u.responder.fillLine = some l →
      u.negedge.vif.memRespRdata = u.backingMem.lines l) :
    u.step.sys = u.sys.next u.sysIn := by
  -- the cache sees the read data in a response cycle only
  have hdut : u.dut.next 2 (u.sys.l1In u.sysIn) = u.dut.next 2 u.negedge.vif := by
    refine @next_rdata u.dut u.negedge.vif _ fun hresp => ?_
    show NextLevel.respRdata u.negedge.vif.memRespRdata u.sys.nextLevel = _
    cases hf : u.responder.fillLine with
    | none =>
      have hf' : u.sys.nextLevel.fillLine = none := hf
      rw [NextLevel.respRdata, hf']
    | some l =>
      have hf' : u.sys.nextLevel.fillLine = some l := hf
      rw [NextLevel.respRdata, hf']
      exact (hdata hresp l hf).symm
  calc u.step.sys
      = { cache := u.dut.next 2 u.negedge.vif, nextLevel := u.step.sys.nextLevel } := rfl
    _ = u.sys.next u.sysIn := by rw [← hdut, ← hnext]; rfl

/-- A cycle in the middle of a miss. -/
theorem Busy.step_sys {m m' : Stage} (h : Busy u req m) (hm : m.next? = some m') :
    u.step.sys = u.sys.next u.sysIn := by
  have hne : m ≠ .compare := by
    rintro rfl
    cases hm
  have hd : u.driver.loc = .resp req (m.cycles - 1) := by rw [h.driver, driverLoc, if_neg hne]
  have hneg := negedge_of_waiting (u := u) (by simp only [L1cDriver.negedge, hd])
  obtain ⟨hr, hs⟩ := @responder_next _ _ _ _ u.backingMem u.negedge.vif.req.addr hm h.state
    ⟨h.memReqReady, h.memWrAck, h.memRespValid⟩
  have hnext := @nextLevel_next _ _ _ u.vif u.backingMem u.sysIn u.negedge.vif.req.addr hm h.state
  rw [← h.responder] at hr hs hnext
  have hresponder : u.negedge.responder = (u.responder.negedge u.backingMem u.vif).1 := by
    rw [hneg]
  have hvif : u.negedge.vif = (u.responder.negedge u.backingMem u.vif).2.1 := by rw [hneg]
  have hmem : u.negedge.backingMem = (u.responder.negedge u.backingMem u.vif).2.2 := by rw [hneg]
  rw [← hvif] at hs
  refine step_sys_of ?_ ?_
  · show _ = (u.negedge.responder.posedge u.negedge.out).nextLevel u.negedge.backingMem
    have hout : u.negedge.out = u.dut.out 2 u.negedge.vif.req.addr := rfl
    rw [hresponder, hmem, hout, hr]
    exact hnext hs.memReqReady hs.memRespValid rfl
  · intro hresp l hl
    rw [hs.memRespValid] at hresp
    cases m with
    | fillAnswer _ =>
      -- the responder reads the line it owes
      have hans : u.responder = .answer (Stage.fill u.dut) := h.responder
      rw [hans] at hl
      obtain rfl := Option.some.inj hl
      rw [hvif, hans]
      exact BackingMem.line_eq_lines _
    | compare | fillFinish _ => cases hm
    | _ =>
      obtain rfl := Option.some.inj hm
      cases hresp

/-- Outside of a miss the next level has nothing to do. -/
theorem step_sys_of_request (hr : u.responder = .request ∨ ∃ capt, u.responder = .finish capt)
    (hreq : u.negedge.out.memReqValid = false) :
    u.step.sys = u.sys.next u.sysIn := by
  refine step_sys_of ?_ fun _ l hl => ?_
  · show _ = (u.negedge.responder.posedge u.negedge.out).nextLevel u.negedge.backingMem
    have hresp : u.negedge.responder = .request ∧ u.negedge.backingMem = u.backingMem := by
      show (u.responder.negedge _ _).1 = _ ∧ (u.responder.negedge _ _).2.2 = _
      rcases hr with hr | ⟨capt, hr⟩
      · rw [hr]
        exact ⟨rfl, rfl⟩
      · rw [hr]
        -- a finished write-back has its line committed already
        cases hwr : capt.wr <;> simp [L1cResponder.negedge, hwr]
    -- in both places of the responder nothing is on the way
    have hidle : u.sys.nextLevel =
        { mem := u.backingMem.lines, pending := none, fillLine := none } := by
      rw [sys]
      rcases hr with hr | ⟨capt, hr⟩ <;> rw [hr] <;> rfl
    rw [hresp.1, hresp.2, L1cResponder.posedge, hreq, if_neg Bool.false_ne_true, hidle]
    simp only [NextLevel.clk, hreq, Bool.false_and, Bool.false_eq_true, if_false, ite_self]
    rfl
  · rcases hr with hr | ⟨capt, hr⟩ <;> rw [hr] at hl <;> cases hl

/-- In the cycle of the readout the responder is done. -/
theorem Busy.step_sys_finish {dirty : Bool} (h : Busy u req (.fillFinish dirty)) :
    u.step.sys = u.sys.next u.sysIn := by
  have hout : u.negedge.out = _ := L1Cache.out_of_readout h.state
  exact step_sys_of_request (.inr ⟨_, h.responder⟩) (by rw [hout])

/-- In the cycle of the tag compare nothing is requested. -/
theorem Busy.step_sys_compare (h : Busy u req .compare) : u.step.sys = u.sys.next u.sysIn := by
  refine step_sys_of_request (.inl h.responder) ?_
  have hst : u.negedge.dut.state = .compareTag := h.state
  cases hhit : u.dut.cacheHit 2 u.negedge.vif.req.addr with
  | true =>
    have hout : u.negedge.out = _ := L1Cache.out_of_hit hst hhit
    rw [hout]
  | false =>
    have hout : u.negedge.out = _ := L1Cache.out_of_miss hst hhit
    rw [hout]

/-- And neither in a cycle without a request. -/
theorem Idle.step_sys (h : Idle u) : u.step.sys = u.sys.next u.sysIn := by
  have hout : u.negedge.out = _ := L1Cache.out_of_idle h.state
  exact step_sys_of_request (.inl h.responder) (by rw [hout])

end Edge

end L1cUvc

end URiscV.Tb
