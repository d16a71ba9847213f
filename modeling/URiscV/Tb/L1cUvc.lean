import URiscV.Tb.L1cDriver

/-!
# The cache testbench

`rv_l1c_uvc`: the cache, the driver and the memory responder at its two sides, and the
monitor and the scoreboard that watch it. The responder takes the requests of the cache
one after the other and answers them from the backing memory, a statement at each clock
edge.

A step is a clock cycle: its negative edge, at which driver and responder change the
signals they drive, and then its positive edge, at which everything samples. The clock is
that of a test behind its reset; the first positive edge is the first one with `rst_n`
high.

A simulation makes these steps until the sequence of the test is through, and its
`run_phase` drops the objection, or the global watchdog ends it.
-/

namespace URiscV.Tb

open Hdl (L1Cache L1Req L1In L1Out)

/-- What the responder captures: `capt_addr`, `capt_wr`, `capt_wdata`. -/
structure L1cCapture where
  addr : BitVec 32
  wr : Bool
  wdata : BitVec 128
deriving DecidableEq, Repr

/-- Where the memory responder waits:

    * `request`: for a positive edge with `mem_req_valid`;
    * `raise`: to raise `mem_req_ready` at a negative edge;
    * `lower`: to lower it;
    * `latency k`: in `repeat`, with `k` more positive edges behind the next;
    * `answer`: to raise `mem_wr_ack` or `mem_resp_valid` at a negative edge;
    * `finish`: to lower it. -/
inductive L1cResponder where
  | request
  | raise (capt : L1cCapture)
  | lower (capt : L1cCapture)
  | latency (capt : L1cCapture) (k : Nat)
  | answer (capt : L1cCapture)
  | finish (capt : L1cCapture)
deriving DecidableEq, Repr

/-- `backing_mem`, keyed by line addresses. -/
abbrev BackingMem := BitVec 32 → Option (BitVec 128)

/-- `align_addr` and `gen_line` are those of the scoreboard. -/
abbrev alignAddr := L1cScoreboard.alignAddr
abbrev genLine := L1cScoreboard.genLine

namespace BackingMem

/-- The fill data for an address. -/
def line (mem : BackingMem) (addr : BitVec 32) : BitVec 128 :=
  match mem (alignAddr addr) with
  | some line => line
  | none => genLine (alignAddr addr)

end BackingMem

namespace L1cResponder

/-- The edges of `repeat`: two for a write-back, three for a fill. -/
def latencyOf (capt : L1cCapture) : Nat := if capt.wr then 2 else 3

/-- A negative clock edge: the responder, the signals it drives and the backing memory. -/
def negedge (mem : BackingMem) (vif : L1In) : L1cResponder → L1cResponder × L1In × BackingMem
  | .raise capt => (.lower capt, { vif with memReqReady := true }, mem)
  | .lower capt =>
    (.latency capt (latencyOf capt - 1), { vif with memReqReady := false },
      if capt.wr then Function.update mem (alignAddr capt.addr) (some capt.wdata) else mem)
  | .answer capt =>
    if capt.wr then (.finish capt, { vif with memWrAck := true }, mem)
    else
      (.finish capt, { vif with memRespValid := true, memRespRdata := mem.line capt.addr }, mem)
  | .finish capt =>
    if capt.wr then (.request, { vif with memWrAck := false }, mem)
    else (.request, { vif with memRespValid := false, memRespRdata := 0 }, mem)
  | r => (r, vif, mem)

/-- A positive clock edge, at which the cache shows `o`. -/
def posedge (o : L1Out) : L1cResponder → L1cResponder
  | .request =>
    if o.memReqValid then
      .raise { addr := o.memReqAddr, wr := o.memReqWr, wdata := o.memReqWdata }
    else .request
  | .latency capt 0 => .answer capt
  | .latency capt (k + 1) => .latency capt k
  | r => r

end L1cResponder

/-- The testbench; `vif` holds the signals of `rv_l1c_if` that are not driven by the
    cache. -/
structure L1cUvc where
  dut : L1Cache
  vif : L1In
  driver : L1cDriver
  responder : L1cResponder
  backingMem : BackingMem
  monitor : L1cMonitor
  monitorErrors : List String
  scoreboard : L1cScoreboard

namespace L1cUvc

/-- The signals as the `initial` blocks set them. -/
def idleVif : L1In where
  reqValid := false
  req := L1Req.zero
  memReqReady := false
  memWrAck := false
  memRespValid := false
  memRespRdata := 0

/-- A test of the requests `items` when `rst_n` rises, for any contents of the RAMs. -/
def init (dut : L1Cache) (items : List L1Req) : L1cUvc where
  dut := dut.asyncReset
  vif := idleVif
  driver := .init items
  responder := .request
  backingMem := fun _ => none
  monitor := .reset
  monitorErrors := []
  scoreboard := .buildPhase

section Step

variable (u : L1cUvc)

/-- The negative edge of a cycle. -/
def negedge : L1cUvc :=
  let d := u.driver.negedge u.vif
  let r := u.responder.negedge u.backingMem d.2
  { u with
    driver := d.1
    responder := r.1
    vif := r.2.1
    backingMem := r.2.2 }

/-- What the cache shows. -/
def out : L1Out := u.dut.out 2 u.vif.req.addr

/-- What the monitor sees. -/
def cpuCycle : CpuCycle where
  reqValid := u.vif.reqValid
  reqReady := u.out.reqReady
  req := u.vif.req
  respValid := u.out.respValid
  respRdata := u.out.respRdata
  respHit := u.out.respHit

/-- The positive edge of a cycle. -/
def posedge : L1cUvc :=
  let d := u.driver.posedge u.out u.vif
  { dut := u.dut.next 2 u.vif
    vif := d.2
    driver := d.1
    responder := u.responder.posedge u.out
    backingMem := u.backingMem
    monitor := u.monitor.step u.cpuCycle
    monitorErrors := u.monitorErrors ++ u.monitor.errors u.cpuCycle
    scoreboard := (u.monitor.publish u.cpuCycle).foldl .write u.scoreboard }

/-- A clock cycle. -/
def step : L1cUvc := u.negedge.posedge

/-- What the monitor publishes in a cycle. -/
def publish : List L1cTransaction := u.negedge.monitor.publish u.negedge.cpuCycle

end Step

/-- The testbench behind `n` clock cycles. -/
def after (dut : L1Cache) (items : List L1Req) (n : Nat) : L1cUvc :=
  Clocked.run (fun (_ : Unit) => step) (fun _ => ()) (init dut items) n

/-- What the monitor has published in `n` clock cycles. -/
def published (dut : L1Cache) (items : List L1Req) (n : Nat) : List L1cTransaction :=
  Clocked.log (fun (_ : Unit) => publish) (fun (_ : Unit) => step) (fun _ => ())
    (init dut items) n

end L1cUvc

/-! ## Simulations -/

/-- How a simulation stands. -/
inductive L1cStatus where
  | running
  | finished
  | fatal (msg : String)
deriving DecidableEq, Repr

/-- A simulation, with the clock cycles behind its reset. -/
structure L1cSim where
  uvc : L1cUvc
  cycle : Nat
  status : L1cStatus

namespace L1cSim

/-- `clock_period` and `reset_delay` of `rv_l1c_base_vseq`. -/
def clockPeriod : Nat := 10
def resetDelay : Nat := 5

/-- The time of the positive edge of cycle `n`. The clock starts low at time 0, and `rst_n`
    rises at edge `reset_delay`. -/
def edgeTime (n : Nat) : Nat := clockPeriod * (resetDelay + n) - clockPeriod / 2

/-- The delay of the global watchdog. -/
def watchdogDelay : Nat := 1000000

/-- Its `uvm_fatal`. -/
def watchdogText : String := "Global timeout reached"

/-- The sequence of a test is through when its last item is done. -/
def through (d : L1cDriver) : Bool :=
  match d.loc with
  | .reset _ | .item => d.items.isEmpty
  | _ => false

/-- The status of a simulation that the watchdog has not ended. -/
def statusOf (u : L1cUvc) : L1cStatus := if through u.driver then .finished else .running

/-- A test of the requests `items` when `rst_n` rises. -/
def init (dut : L1Cache) (items : List L1Req) : L1cSim where
  uvc := .init dut items
  cycle := 0
  status := statusOf (.init dut items)

/-- The next clock cycle takes place. -/
def ticks (s : L1cSim) : Bool := s.status == .running && edgeTime (s.cycle + 1) < watchdogDelay

/-- A clock cycle of a simulation, or its end. -/
def step (s : L1cSim) : L1cSim :=
  if s.ticks then { uvc := s.uvc.step, cycle := s.cycle + 1, status := statusOf s.uvc.step }
  else if s.status = .running then { s with status := .fatal watchdogText }
  else s

/-- What the monitor publishes in it. -/
def publish (s : L1cSim) : List L1cTransaction := if s.ticks then s.uvc.publish else []

/-- The simulation of a test when `n` clock cycles have passed, or could have. -/
def after (dut : L1Cache) (items : List L1Req) (n : Nat) : L1cSim :=
  Clocked.run (fun (_ : Unit) => step) (fun _ => ()) (init dut items) n

/-- What the monitor has published by then. -/
def published (dut : L1Cache) (items : List L1Req) (n : Nat) : List L1cTransaction :=
  Clocked.log (fun (_ : Unit) => publish) (fun (_ : Unit) => step) (fun _ => ())
    (init dut items) n

end L1cSim

end URiscV.Tb
