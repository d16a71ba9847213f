import URiscV.Spec.CacheEdge
import URiscV.Tb.L1cUvc

/-!
# The cache testbench, cycle by cycle

Driver, cache, responder and monitor wait for each other in one order only. `Busy` says
where all of them are while a request is served, and how many cycles of it have passed;
`Idle` where they are between two requests. One cycle leads from one place to the next, so
a request takes a number of cycles that depends on the tag compare only.

## Key results

- `Busy.step` / `Busy.step_hit` / `Busy.step_miss` / `Busy.step_finish`: a request in service
- `Idle.step_item` / `Idle.step_drive`: between two requests
- `after_two`: the start
-/

namespace URiscV.Tb.L1cUvc

open Hdl (L1Cache L1Req L1In L1Out L1State)

/-! ## The stages of a request -/

/-- Where the cache and the responder are behind a clock cycle of a request. `dirty` says
    whether the fill follows a write-back. -/
inductive Stage where
  | compare
  | writebackRequest | writebackRaise | writebackLower | writebackLatency | writebackAnswer
  | writebackFinish
  | fillRequest
  | fillRaise (dirty : Bool) | fillLower (dirty : Bool) | fillLatency (dirty : Bool)
  | fillLatency' (dirty : Bool) | fillAnswer (dirty : Bool) | fillFinish (dirty : Bool)
deriving DecidableEq, Repr

namespace Stage

/-- The clock cycles since the request was put on the interface. -/
def cycles : Stage → Nat
  | compare => 1
  | writebackRequest => 2
  | writebackRaise => 3
  | writebackLower => 4
  | writebackLatency => 5
  | writebackAnswer => 6
  | writebackFinish => 7
  | fillRequest => 2
  | fillRaise dirty => 3 + 5 * dirty.toNat
  | fillLower dirty => 4 + 5 * dirty.toNat
  | fillLatency dirty => 5 + 5 * dirty.toNat
  | fillLatency' dirty => 6 + 5 * dirty.toNat
  | fillAnswer dirty => 7 + 5 * dirty.toNat
  | fillFinish dirty => 8 + 5 * dirty.toNat

/-- The state of the cache. -/
def state : Stage → L1State
  | compare => .compareTag
  | writebackRequest | writebackRaise => .writeback
  | writebackLower | writebackLatency | writebackAnswer => .writebackWait
  | writebackFinish | fillRequest | fillRaise _ => .fill
  | fillLower _ | fillLatency _ | fillLatency' _ | fillAnswer _ => .fillWait
  | fillFinish _ => .readout

/-- The write-back and the fill that the cache asks for. -/
def writeback (c : L1Cache) : L1cCapture where
  addr := c.victimTag ++ c.latIndex ++ 0#4
  wr := true
  wdata := c.victimData

def fill (c : L1Cache) : L1cCapture where
  addr := c.latLineAddr
  wr := false
  wdata := 0

/-- The responder, when `c` is the cache. -/
def responder (c : L1Cache) : Stage → L1cResponder
  | compare | writebackRequest | fillRequest => .request
  | writebackRaise => .raise (writeback c)
  | writebackLower => .lower (writeback c)
  | writebackLatency => .latency (writeback c) 0
  | writebackAnswer => .answer (writeback c)
  | writebackFinish => .finish (writeback c)
  | fillRaise _ => .raise (fill c)
  | fillLower _ => .lower (fill c)
  | fillLatency _ => .latency (fill c) 1
  | fillLatency' _ => .latency (fill c) 0
  | fillAnswer _ => .answer (fill c)
  | fillFinish _ => .finish (fill c)

/-- The signals of the responder. -/
def memReqReady : Stage → Bool
  | writebackLower | fillLower _ => true
  | _ => false

def memWrAck : Stage → Bool
  | writebackFinish => true
  | _ => false

def memRespValid : Stage → Bool
  | fillFinish _ => true
  | _ => false

/-- The stage behind one in a miss; the last one is followed by the response. -/
def next? : Stage → Option Stage
  | compare => none
  | writebackRequest => some writebackRaise
  | writebackRaise => some writebackLower
  | writebackLower => some writebackLatency
  | writebackLatency => some writebackAnswer
  | writebackAnswer => some writebackFinish
  | writebackFinish => some (fillRaise true)
  | fillRequest => some (fillRaise false)
  | fillRaise dirty => some (fillLower dirty)
  | fillLower dirty => some (fillLatency dirty)
  | fillLatency dirty => some (fillLatency' dirty)
  | fillLatency' dirty => some (fillAnswer dirty)
  | fillAnswer dirty => some (fillFinish dirty)
  | fillFinish _ => none

/-- The next stage is one cycle later. -/
theorem cycles_next {m m' : Stage} (h : m.next? = some m') : m'.cycles = m.cycles + 1 := by
  cases m with
  | compare | fillFinish _ => cases h
  | fillRaise d | fillLower d | fillLatency d | fillLatency' d | fillAnswer d =>
    obtain rfl := Option.some.inj h
    simp only [cycles]
    omega
  | _ =>
    obtain rfl := Option.some.inj h
    rfl

/-- The tag compare comes in the first cycle. -/
theorem cycles_pos (m : Stage) : 1 ≤ m.cycles := by
  cases m <;> simp only [cycles] <;> omega

/-- And the last stage of a dirty miss in the thirteenth. -/
theorem cycles_le (m : Stage) : m.cycles ≤ 13 := by
  cases m with
  | fillRaise d | fillLower d | fillLatency d | fillLatency' d | fillAnswer d | fillFinish d =>
    cases d <;> decide
  | _ => decide

end Stage

/-- The driver while a request is served: it still has to lower `req_valid`, or it waits
    for the response. -/
def driverLoc (req : L1Req) (m : Stage) : L1cDriverLoc :=
  if m = .compare then .release req else .resp req (m.cycles - 1)

/-- Behind a clock cycle in which `req` is served. -/
structure Busy (u : L1cUvc) (req : L1Req) (m : Stage) : Prop where
  state : u.dut.state = m.state
  lat : u.dut.lat = req
  driver : u.driver.loc = driverLoc req m
  responder : u.responder = m.responder u.dut
  monitor : u.monitor = .response req (m.cycles - 1)
  req : u.vif.req = req
  reqValid : u.vif.reqValid = decide (m = .compare)
  memReqReady : u.vif.memReqReady = m.memReqReady
  memWrAck : u.vif.memWrAck = m.memWrAck
  memRespValid : u.vif.memRespValid = m.memRespValid

/-- Nothing is asked of the cache, nor by it. -/
structure Quiet (u : L1cUvc) : Prop where
  state : u.dut.state = .idle
  responder : u.responder = .request
  reqValid : u.vif.reqValid = false
  memReqReady : u.vif.memReqReady = false
  memWrAck : u.vif.memWrAck = false
  memRespValid : u.vif.memRespValid = false

/-- Between two requests. -/
structure Idle (u : L1cUvc) : Prop extends Quiet u where
  driver : u.driver.loc = .item ∨ ∃ req, u.driver.loc = .drive req
  monitor : u.monitor = .request

/-! ## The responder and the cache in a miss -/

section Miss

variable {m m' : Stage} {c : L1Cache} {vif : L1In} {mem : BackingMem} {addr : BitVec 32}

/-- The signals of the responder in a stage. -/
structure Signals (vif : L1In) (m : Stage) : Prop where
  memReqReady : vif.memReqReady = m.memReqReady
  memWrAck : vif.memWrAck = m.memWrAck
  memRespValid : vif.memRespValid = m.memRespValid

/-- The responder leaves the requests of the driver alone. -/
theorem negedge_responder_req (r : L1cResponder) :
    (r.negedge mem vif).2.1.reqValid = vif.reqValid ∧ (r.negedge mem vif).2.1.req = vif.req := by
  cases r with
  | request | raise _ | lower _ | latency _ _ => exact ⟨rfl, rfl⟩
  | answer capt | finish capt =>
    cases hwr : capt.wr <;> simp [L1cResponder.negedge, hwr]

/-- The responder in a cycle of a miss. -/
theorem responder_next (hm : m.next? = some m') (hst : c.state = m.state) (hs : Signals vif m) :
    ((m.responder c).negedge mem vif).1.posedge (c.out 2 addr) = m'.responder c ∧
      Signals ((m.responder c).negedge mem vif).2.1 m' := by
  obtain ⟨hrdy, hack, hresp⟩ := hs
  cases m with
  | compare | fillFinish _ => cases hm
  | writebackRequest =>
    obtain rfl := Option.some.inj hm
    refine ⟨?_, hrdy, hack, hresp⟩
    rw [L1Cache.out_of_writeback hst]
    rfl
  | fillRequest =>
    obtain rfl := Option.some.inj hm
    refine ⟨?_, hrdy, hack, hresp⟩
    rw [L1Cache.out_of_fill hst]
    rfl
  | writebackFinish =>
    obtain rfl := Option.some.inj hm
    refine ⟨?_, hrdy, rfl, hresp⟩
    rw [L1Cache.out_of_fill hst]
    rfl
  | writebackRaise | fillRaise _ =>
    obtain rfl := Option.some.inj hm
    exact ⟨rfl, rfl, hack, hresp⟩
  | writebackLower | fillLower _ =>
    obtain rfl := Option.some.inj hm
    exact ⟨rfl, rfl, hack, hresp⟩
  | writebackLatency | fillLatency _ | fillLatency' _ =>
    obtain rfl := Option.some.inj hm
    exact ⟨rfl, hrdy, hack, hresp⟩
  | writebackAnswer =>
    obtain rfl := Option.some.inj hm
    exact ⟨rfl, hrdy, rfl, hresp⟩
  | fillAnswer _ =>
    obtain rfl := Option.some.inj hm
    exact ⟨rfl, hrdy, hack, rfl⟩

/-- The cache in a cycle of a miss, with the signals as the responder has changed them. -/
theorem dut_next (hm : m.next? = some m') (hst : c.state = m.state) (hs : Signals vif m') :
    (c.next 2 vif).state = m'.state ∧ (c.next 2 vif).lat = c.lat ∧
      m'.responder (c.next 2 vif) = m'.responder c := by
  obtain ⟨hrdy, hack, hresp⟩ := hs
  cases m with
  | compare | fillFinish _ => cases hm
  | fillAnswer _ =>
    obtain rfl := Option.some.inj hm
    rw [L1Cache.next_of_fillWait hst hresp]
    exact ⟨rfl, rfl, rfl⟩
  | fillLower _ | fillLatency _ | fillLatency' _ =>
    obtain rfl := Option.some.inj hm
    rw [L1Cache.next_of_inMiss (by simp only [L1Cache.inMiss, hst, Stage.state])
      (by rw [hresp]; rintro ⟨-, h⟩; cases h), L1Cache.fsm, hst, hresp]
    exact ⟨rfl, rfl, rfl⟩
  | writebackRequest | writebackRaise | writebackLower | writebackLatency | writebackAnswer
    | writebackFinish | fillRequest | fillRaise _ =>
    obtain rfl := Option.some.inj hm
    rw [L1Cache.next_of_inMiss (by simp only [L1Cache.inMiss, hst, Stage.state])
      (by rw [hst]; rintro ⟨h, -⟩; cases h), L1Cache.fsm, hst]
    refine ⟨?_, rfl, rfl⟩
    simp only [Stage.state, Stage.memReqReady, Stage.memWrAck, hrdy, hack, if_true,
      Bool.false_eq_true, if_false]

/-- Up to the last stage the cache does not answer. -/
theorem respValid_of_next (hm : m.next? = some m') (hst : c.state = m.state) :
    (c.out 2 addr).respValid = false := by
  have hmiss : c.inMiss = true := by
    cases m with
    | compare | fillFinish _ => cases hm
    | _ => simp only [L1Cache.inMiss, hst, Stage.state]
  exact (L1Cache.quiet_of_inMiss hmiss).2

end Miss

/-! ## Driver and monitor at an edge -/

section Edges

variable {u : L1cUvc} {req : L1Req} {j : Nat}

/-- Where the driver does nothing at a negative edge. -/
theorem negedge_of_waiting (hd : u.driver.negedge u.vif = (u.driver, u.vif)) :
    u.negedge = { u with
      responder := (u.responder.negedge u.backingMem u.vif).1
      vif := (u.responder.negedge u.backingMem u.vif).2.1
      backingMem := (u.responder.negedge u.backingMem u.vif).2.2 } := by
  simp only [negedge, hd]

/-- What reports a timeout publishes, without a response. -/
theorem errors_eq_nil {p : CpuCycle} {m : L1cMonitor} (h : m.publish p = [] ∨ p.respValid = true) :
    m.errors p = [] := by
  cases m with
  | reset | request => rfl
  | response req i =>
    rw [L1cMonitor.publish] at h
    rw [L1cMonitor.errors]
    by_cases hresp : p.respValid = true
    · rw [if_pos hresp]
    · by_cases hi : i + 1 < L1cMonitor.timeoutCycles
      · rw [if_neg hresp, if_pos hi]
      · -- a timeout publishes the transaction as it was created
        rw [if_neg hresp, if_neg hi] at h
        exact absurd (h.resolve_right hresp) (List.cons_ne_nil _ _)

/-- Driver and monitor at an edge without the response they wait for. -/
theorem posedge_of_waiting (hd : u.driver.loc = .resp req j)
    (hmon : u.monitor = .response req j) (hj : j + 1 < L1cMonitor.timeoutCycles)
    (hresp : u.out.respValid = false) :
    u.monitor.publish u.cpuCycle = [] ∧ u.posedge =
      { u with
        dut := u.dut.next 2 u.vif
        driver := { u.driver with loc := .resp req (j + 1) }
        responder := u.responder.posedge u.out
        monitor := .response req (j + 1) } := by
  have hcpu : u.cpuCycle.respValid = false := hresp
  have hpub : u.monitor.publish u.cpuCycle = [] := by
    rw [hmon, L1cMonitor.publish, hcpu, if_neg Bool.false_ne_true, if_pos hj]
  have hdrv : u.driver.posedge u.out u.vif =
      ({ u.driver with loc := .resp req (j + 1) }, u.vif) := by
    simp only [L1cDriver.posedge, hd, hresp, Bool.false_eq_true, if_false]
    exact if_pos hj
  have hstep : u.monitor.step u.cpuCycle = .response req (j + 1) := by
    rw [hmon, L1cMonitor.step, hcpu, if_neg Bool.false_ne_true, if_pos hj]
  refine ⟨hpub, ?_⟩
  rw [posedge, hdrv, hstep, errors_eq_nil (.inl hpub), hpub, List.append_nil]
  rfl

/-- The transaction of a request that the cache answers now. -/
def answered (u : L1cUvc) (req : L1Req) : L1cTransaction :=
  .of req (u.out.respRdata, u.out.respHit)

/-- Driver and monitor at the edge of the response. -/
theorem posedge_of_answer {i : Nat} (hd : u.driver.loc = .resp req j)
    (hmon : u.monitor = .response req i) (hresp : u.out.respValid = true) :
    u.monitor.publish u.cpuCycle = [u.answered req] ∧ u.posedge =
      { u with
        dut := u.dut.next 2 u.vif
        driver := u.driver.itemDone (u.answered req)
        responder := u.responder.posedge u.out
        monitor := .request
        scoreboard := u.scoreboard.write (u.answered req) } := by
  have hcpu : u.cpuCycle.respValid = true := hresp
  have hpub : u.monitor.publish u.cpuCycle = [u.answered req] := by
    rw [hmon, L1cMonitor.publish, hcpu, if_pos rfl]
    rfl
  have hdrv : u.driver.posedge u.out u.vif = (u.driver.itemDone (u.answered req), u.vif) := by
    simp only [L1cDriver.posedge, hd, hresp, if_true]
    rfl
  have hstep : u.monitor.step u.cpuCycle = .request := by
    rw [hmon, L1cMonitor.step, hcpu, if_pos rfl]
  refine ⟨hpub, ?_⟩
  rw [posedge, hdrv, hstep, errors_eq_nil (.inr hcpu), hpub, List.append_nil]
  rfl

/-- The driver behind an item. -/
theorem itemDone_loc (d : L1cDriver) (t : L1cTransaction) :
    (d.itemDone t).loc = .item ∨ ∃ req, (d.itemDone t).loc = .drive req := by
  unfold L1cDriver.itemDone L1cDriver.getNextItem
  split
  · exact .inl rfl
  · next req _ _ => exact .inr ⟨req, rfl⟩

end Edges

/-! ## One cycle -/

section Step

variable {u : L1cUvc} {req : L1Req} {m m' : Stage}

/-- A cycle in the middle of a miss. -/
theorem Busy.step (h : Busy u req m) (hm : m.next? = some m') :
    Busy u.step req m' ∧ u.step.driver = { u.driver with loc := .resp req (m'.cycles - 1) } ∧
      u.publish = [] ∧ u.step.scoreboard = u.scoreboard := by
  have hcyc : m'.cycles - 1 = m.cycles - 1 + 1 := by
    have := Stage.cycles_next hm
    have := m.cycles_pos
    omega
  have hne : m' ≠ .compare := by
    rintro rfl
    have hone : Stage.compare.cycles = 1 := rfl
    have := Stage.cycles_next hm
    have := m.cycles_pos
    omega
  -- the monitor does not time out
  have hlt : m.cycles - 1 + 1 < L1cMonitor.timeoutCycles := by
    have := m.cycles_le
    have hlimit : L1cMonitor.timeoutCycles = 200 := rfl
    omega
  have hne' : m ≠ .compare := by
    rintro rfl
    cases hm
  have hd : u.driver.loc = .resp req (m.cycles - 1) := by rw [h.driver, driverLoc, if_neg hne']
  have hneg := negedge_of_waiting (u := u) (by simp only [L1cDriver.negedge, hd])
  obtain ⟨hr, hs⟩ := @responder_next _ _ _ _ u.backingMem u.negedge.vif.req.addr hm h.state
    ⟨h.memReqReady, h.memWrAck, h.memRespValid⟩
  obtain ⟨hrv, hreq⟩ := @negedge_responder_req u.vif u.backingMem (m.responder u.dut)
  rw [← h.responder] at hr hs hrv hreq
  obtain ⟨hst, hlat, hcap⟩ := dut_next hm h.state hs
  -- neither the driver nor the monitor sees a response
  obtain ⟨hpub, hstep⟩ := posedge_of_waiting (u := u.negedge) (by rw [hneg]; exact hd) h.monitor
    hlt (respValid_of_next hm h.state)
  have hstep' : u.step = _ := hstep
  rw [hstep', out, hneg]
  rw [hneg] at hr
  refine ⟨⟨hst, hlat.trans h.lat, ?_, hr.trans hcap.symm, ?_, hreq.trans h.req, ?_, hs.1, hs.2,
    hs.3⟩, ?_, hpub, rfl⟩
  · rw [driverLoc, if_neg hne, hcyc]
  · rw [hcyc]
  · rw [hrv, h.reqValid, decide_eq_false hne, decide_eq_false hne']
  · rw [hcyc]

/-- The last cycle of a miss: the response. -/
theorem Busy.step_finish {dirty : Bool} (h : Busy u req (.fillFinish dirty)) :
    Idle u.step ∧ u.step.driver = u.driver.itemDone (u.negedge.answered req) ∧
      u.publish = [u.negedge.answered req] ∧
      u.step.scoreboard = u.scoreboard.write (u.negedge.answered req) := by
  have hd : u.driver.loc = .resp req (Stage.fillFinish dirty).cycles.pred := h.driver
  have hneg := negedge_of_waiting (u := u) (by simp only [L1cDriver.negedge, hd])
  have hdrv : u.negedge.driver = u.driver := by rw [hneg]
  have hready : u.negedge.dut.state = .readout := h.state
  have hout : u.negedge.out = _ := L1Cache.out_of_readout hready
  obtain ⟨hpub, hstep⟩ := posedge_of_answer (u := u.negedge) (by rw [hdrv]; exact hd) h.monitor
    (by rw [hout])
  have hstep' : u.step = _ := hstep
  -- the responder lowers `mem_resp_valid`, and the driver has nothing more to ask
  have hr : u.responder = .finish (Stage.fill u.dut) := h.responder
  have hvif : u.negedge.vif = { u.vif with memRespValid := false, memRespRdata := 0 } := by
    rw [hneg, hr]
    rfl
  have hresp : u.negedge.responder = .request := by
    rw [hneg, hr]
    rfl
  have hrv : u.negedge.vif.reqValid = false := by rw [hvif]; exact h.reqValid
  rw [hstep', hdrv]
  refine ⟨⟨⟨?_, ?_, hrv, ?_, ?_, ?_⟩, itemDone_loc _ _, rfl⟩, rfl, hpub, rfl⟩
  · show (u.negedge.dut.next 2 u.negedge.vif).state = .idle
    rw [L1Cache.next_of_readout hready, hrv]
    rfl
  · show u.negedge.responder.posedge u.negedge.out = .request
    rw [hresp, hout]
    rfl
  · rw [hvif]; exact h.memReqReady
  · rw [hvif]; exact h.memWrAck
  · rw [hvif]

/-- The negative edge behind a handshake. -/
theorem Busy.negedge_compare (h : Busy u req .compare) :
    u.negedge = { u with
      driver := { u.driver with loc := .resp req 0 }
      vif := { u.vif with reqValid := false } } := by
  have hd : u.driver.loc = .release req := h.driver
  have hr : u.responder = .request := h.responder
  simp only [negedge, L1cDriver.negedge, hd, hr, L1cResponder.negedge]

/-- The tag compare hits: the response. -/
theorem Busy.step_hit (h : Busy u req .compare) (hhit : u.dut.cacheHit 2 req.addr = true) :
    Idle u.step ∧ u.step.driver = u.driver.itemDone (u.negedge.answered req) ∧
      u.publish = [u.negedge.answered req] ∧
      u.step.scoreboard = u.scoreboard.write (u.negedge.answered req) := by
  have hneg := h.negedge_compare
  have hst : u.negedge.dut.state = .compareTag := by rw [hneg]; exact h.state
  have hhit' : u.negedge.dut.cacheHit 2 u.negedge.vif.req.addr = true := by
    rw [hneg]
    simp only [h.req]
    exact hhit
  -- the driver has lowered `req_valid` by then, so that the cache goes idle
  have hout : u.negedge.out = _ := L1Cache.out_of_hit hst hhit'
  obtain ⟨hpub, hstep⟩ := posedge_of_answer (u := u.negedge) (by rw [hneg]) h.monitor
    (by rw [hout])
  have hstep' : u.step = _ := hstep
  have hdone : u.negedge.driver.itemDone (u.negedge.answered req) =
      u.driver.itemDone (u.negedge.answered req) := by
    rw [hneg]
    rfl
  have hrv : u.negedge.vif.reqValid = false := by rw [hneg]
  rw [hstep', hdone]
  refine ⟨⟨⟨?_, ?_, hrv, ?_, ?_, ?_⟩, itemDone_loc _ _, rfl⟩, rfl, hpub, rfl⟩
  · show (u.negedge.dut.next 2 u.negedge.vif).state = .idle
    rw [L1Cache.next_of_hit hst hhit', hrv]
    rfl
  · show u.negedge.responder.posedge u.negedge.out = .request
    have hr : u.negedge.responder = .request := by rw [hneg]; exact h.responder
    rw [hr, hout]
    rfl
  · rw [hneg]; exact h.memReqReady
  · rw [hneg]; exact h.memWrAck
  · rw [hneg]; exact h.memRespValid

/-- The stage behind a tag compare that misses. -/
def missStage (c : L1Cache) : Stage := if c.victimDirty then .writebackRequest else .fillRequest

/-- The tag compare misses. -/
theorem Busy.step_miss (h : Busy u req .compare) (hmiss : u.dut.cacheHit 2 req.addr = false) :
    Busy u.step req (missStage u.dut) ∧ u.step.driver = { u.driver with loc := .resp req 1 } ∧
      u.publish = [] ∧ u.step.scoreboard = u.scoreboard := by
  have hneg := h.negedge_compare
  have hst : u.negedge.dut.state = .compareTag := by rw [hneg]; exact h.state
  have hmiss' : u.negedge.dut.cacheHit 2 u.negedge.vif.req.addr = false := by
    rw [hneg]
    simp only [h.req]
    exact hmiss
  have hout : u.negedge.out = {} := L1Cache.out_of_miss hst hmiss'
  obtain ⟨hpub, hstep⟩ := posedge_of_waiting (u := u.negedge) (by rw [hneg]; rfl) h.monitor
    (by decide) (by rw [hout])
  have hdut : u.negedge.dut.next 2 u.negedge.vif = _ := L1Cache.next_of_miss hst hmiss'
  have hstep' : u.step = _ := hstep
  have hr : u.negedge.responder.posedge u.negedge.out = .request := by
    have hr : u.negedge.responder = .request := by rw [hneg]; exact h.responder
    rw [hr, hout]
    rfl
  rw [hstep', hdut, hr, hneg]
  refine ⟨?_, rfl, hpub, rfl⟩
  -- the victim decides between the write-back and the fill
  unfold missStage
  cases u.dut.victimDirty with
  | true =>
    exact ⟨rfl, h.lat, rfl, rfl, rfl, h.req, rfl, h.memReqReady, h.memWrAck, h.memRespValid⟩
  | false =>
    exact ⟨rfl, h.lat, rfl, rfl, rfl, h.req, rfl, h.memReqReady, h.memWrAck, h.memRespValid⟩

/-- Between requests nothing happens at a negative edge, except that the driver puts its
    next request on the interface. -/
theorem Quiet.negedge (h : Quiet u) (hd : ∀ req, u.driver.loc ≠ .drive req)
    (hd' : ∀ req, u.driver.loc ≠ .release req) : u.negedge = u := by
  have hdrv : u.driver.negedge u.vif = (u.driver, u.vif) := by
    unfold L1cDriver.negedge
    split
    · next req hloc => exact absurd hloc (hd req)
    · next req hloc => exact absurd hloc (hd' req)
    · rfl
  rw [negedge_of_waiting hdrv, h.responder]
  simp only [L1cResponder.negedge]
  rw [← h.responder]

/-- The cache and the responder in a cycle without a request. -/
theorem Quiet.next (h : Quiet u) : u.dut.next 2 u.vif = u.dut ∧
    u.responder.posedge u.out = .request ∧ u.out.respValid = false := by
  have hout : u.out = { reqReady := true } := L1Cache.out_of_idle h.state
  refine ⟨?_, ?_, by rw [hout]⟩
  · rw [L1Cache.next_of_idle h.state, h.reqValid, ← h.state]
    rfl
  · rw [h.responder, hout]
    rfl

/-- All items are done. -/
theorem Idle.step_item (h : Idle u) (hd : u.driver.loc = .item) :
    u.step = u ∧ u.publish = [] := by
  have hneg : u.negedge = u := h.toQuiet.negedge (by simp [hd]) (by simp [hd])
  obtain ⟨hdut, hr, -⟩ := h.toQuiet.next
  have hdrv : u.driver.posedge u.out u.vif = (u.driver, u.vif) := by
    simp only [L1cDriver.posedge, hd]
  have hhand : u.cpuCycle.handshake = false := by
    rw [CpuCycle.handshake, cpuCycle, h.reqValid, Bool.false_and]
  have hmon : u.monitor.step u.cpuCycle = u.monitor := by
    rw [h.monitor, L1cMonitor.step, hhand, if_neg Bool.false_ne_true]
  have hpub : u.monitor.publish u.cpuCycle = [] := by rw [h.monitor]; rfl
  refine ⟨?_, by rw [publish, hneg, hpub]⟩
  rw [step, hneg, posedge, hdut, hdrv, hr, hmon, errors_eq_nil (.inl hpub), hpub,
    List.append_nil, ← h.responder]
  rfl

/-- The handshake of the next request. -/
theorem Idle.step_drive (h : Idle u) (hd : u.driver.loc = .drive req) :
    Busy u.step req .compare ∧ u.step.driver = { u.driver with loc := .release req } ∧
      u.publish = [] ∧ u.step.scoreboard = u.scoreboard := by
  have hneg : u.negedge = { u with
      driver := { u.driver with loc := .ready req 0 }
      vif := { u.vif with reqValid := true, req := req } } := by
    simp only [L1cUvc.negedge, L1cDriver.negedge, hd, h.responder, L1cResponder.negedge]
  have hst : u.negedge.dut.state = .idle := by rw [hneg]; exact h.state
  have hout : u.negedge.out = { reqReady := true } := L1Cache.out_of_idle hst
  have hdut : u.negedge.dut.next 2 u.negedge.vif = _ := L1Cache.next_of_idle hst
  have hmon : u.negedge.monitor = .request := h.monitor
  have hdrv : u.negedge.driver.posedge u.negedge.out u.negedge.vif =
      ({ u.driver with loc := .release req }, u.negedge.vif) := by
    rw [hout, hneg]
    rfl
  -- the request is accepted in the cycle it is driven in
  have hhand : u.negedge.cpuCycle.handshake = true := by
    rw [CpuCycle.handshake, cpuCycle, hout, hneg]
    rfl
  have hmon' : u.negedge.monitor.step u.negedge.cpuCycle = .response req 0 := by
    rw [hmon, L1cMonitor.step, hhand, if_pos rfl, cpuCycle, hneg]
  have hpub : u.publish = [] := by rw [publish, hmon]; rfl
  have hr : u.negedge.responder.posedge u.negedge.out = .request := by
    have hr : u.negedge.responder = .request := by rw [hneg]; exact h.responder
    rw [hr, hout]
    rfl
  rw [publish] at hpub
  refine ⟨?_, ?_, hpub, ?_⟩
  · rw [step, posedge, hdut, hdrv, hmon', hr, hneg]
    exact ⟨rfl, rfl, rfl, rfl, rfl, rfl, rfl, h.memReqReady, h.memWrAck, h.memRespValid⟩
  · rw [step, posedge, hdrv]
  · rw [step, posedge, hpub]
    rfl

end Step

/-! ## The first two cycles -/

section Boot

variable {dut : L1Cache} {items : List L1Req}

/-- The testbench when the driver takes its first item. -/
def started (dut : L1Cache) (items : List L1Req) : L1cUvc :=
  { init dut items with
    driver := (L1cDriver.init items).getNextItem
    monitor := .request }

/-- The test is idle behind its reset. -/
theorem idle_started : Idle (started dut items) where
  state := rfl
  responder := rfl
  reqValid := rfl
  memReqReady := rfl
  memWrAck := rfl
  memRespValid := rfl
  driver := by
    cases items with
    | nil => exact .inl rfl
    | cons req rest => exact .inr ⟨req, rfl⟩
  monitor := rfl

/-- A cycle behind the reset that driver and monitor let pass. -/
theorem step_of_quiet {u : L1cUvc} {k : Nat} (h : Quiet u) (hd : u.driver.loc = .reset k)
    (hmon : u.monitor = .reset ∨ u.monitor = .request) :
    u.step = { u with
      driver := (u.driver.posedge u.out u.vif).1
      monitor := .request } ∧ u.publish = [] := by
  have hneg : u.negedge = u := h.negedge (by simp [hd]) (by simp [hd])
  obtain ⟨hdut, hr, -⟩ := h.next
  have hvif : (u.driver.posedge u.out u.vif).2 = u.vif := by
    cases k with
    | zero => simp only [L1cDriver.posedge, hd]
    | succ k => simp only [L1cDriver.posedge, hd]
  -- without `req_valid` there is no handshake
  have hhand : u.cpuCycle.handshake = false := by
    rw [CpuCycle.handshake, cpuCycle, h.reqValid, Bool.false_and]
  have hmon' : u.monitor.step u.cpuCycle = .request := by
    rcases hmon with hmon | hmon
    · rw [hmon, L1cMonitor.step]
    · rw [hmon, L1cMonitor.step, hhand, if_neg Bool.false_ne_true]
  have hpub : u.monitor.publish u.cpuCycle = [] := by
    rcases hmon with hmon | hmon <;> rw [hmon] <;> rfl
  refine ⟨?_, by rw [publish, hneg, hpub]⟩
  rw [step, hneg, posedge, hdut, hvif, hr, hmon', errors_eq_nil (.inl hpub), hpub,
    List.append_nil, ← h.responder]
  rfl

/-- Driver and monitor are ready behind two edges. -/
theorem after_two (dut : L1Cache) (items : List L1Req) :
    after dut items 2 = started dut items ∧ published dut items 2 = [] := by
  have h0 : Quiet (init dut items) := ⟨rfl, rfl, rfl, rfl, rfl, rfl⟩
  obtain ⟨h1, hp1⟩ := step_of_quiet h0 (k := 1) rfl (.inl rfl)
  have hq : Quiet (init dut items).step := by
    rw [h1]
    exact ⟨rfl, rfl, rfl, rfl, rfl, rfl⟩
  obtain ⟨h2, hp2⟩ := step_of_quiet hq (k := 0) (by rw [h1]; rfl) (.inr (by rw [h1]))
  constructor
  · show (init dut items).step.step = _
    rw [h2, h1]
    rfl
  · show ([] ++ (init dut items).publish) ++ (init dut items).step.publish = []
    rw [hp1, hp2]
    rfl

end Boot

end URiscV.Tb.L1cUvc
