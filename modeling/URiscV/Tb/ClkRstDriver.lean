import Mathlib.Data.List.Basic

/-!
# The delay requests of the clock and reset driver

The part of `clk_rst_driver` that serves `COUNT_CLOCKS` requests with a delta queue,
and the countdown of `clk_rst_if` that it loads. The counts of the requests are
`int unsigned`, the countdown is an `int`: the comparisons of the driver are
unsigned, the one of the interface is signed.

The other request types, and the messages, are left out.
-/

namespace URiscV.Tb

/-- What the driver uses of `clk_rst_seq_item`: who asked, and the count. -/
structure ClkRstSeqItem (α : Type*) where
  idInfo : α
  clockCyclesToCount : BitVec 32

/-- The countdown of `clk_rst_if`. -/
structure ClkRstIf where
  cycleCountdown : BitVec 32
deriving DecidableEq

namespace ClkRstIf

def init : ClkRstIf := { cycleCountdown := 0 }

/-- `count_clocks`. -/
def countClocks (cycles : BitVec 32) : ClkRstIf := { cycleCountdown := cycles }

/-- The countdown process at a clock edge; the flag is `clock_cycle_count_reached`. -/
def posedge (vif : ClkRstIf) : ClkRstIf × Bool :=
  if (0#32).slt vif.cycleCountdown then
    ({ cycleCountdown := vif.cycleCountdown - 1 }, vif.cycleCountdown - 1 == 0)
  else (vif, false)

end ClkRstIf

/-- The queue, and the interface it drives. -/
structure ClkRstDriver (α : Type*) where
  countClocksRequestQueue : List (ClkRstSeqItem α)
  vif : ClkRstIf

namespace ClkRstDriver

variable {α : Type*}

def init : ClkRstDriver α := { countClocksRequestQueue := [], vif := ClkRstIf.init }

/-! ## Queueing a request -/

/-- The loop that finds the place of a request, over the rest of the queue;
    `total` is `total_clock_cycles_to_count`. -/
def walk (req : ClkRstSeqItem α) (total : BitVec 32) :
    List (ClkRstSeqItem α) → List (ClkRstSeqItem α)
  | [] => []
  | item :: rest =>
    let before := { req with clockCyclesToCount := req.clockCyclesToCount - total }
    let delayed := { item with
      clockCyclesToCount := item.clockCyclesToCount - before.clockCyclesToCount }
    if total < req.clockCyclesToCount ∧
        req.clockCyclesToCount < total + item.clockCyclesToCount then
      before :: delayed :: rest
    else
      match rest with
      | [] =>
        -- the last entry, whose own delta the request is compared with
        if req.clockCyclesToCount < item.clockCyclesToCount then [before, delayed]
        else
          [item, { req with
            clockCyclesToCount := req.clockCyclesToCount - (total + item.clockCyclesToCount) }]
      | _ :: _ => item :: walk req (total + item.clockCyclesToCount) rest

/-- `queue_count_clock_request`. -/
def queueCountClockRequest (d : ClkRstDriver α) (req : ClkRstSeqItem α) : ClkRstDriver α :=
  match d.countClocksRequestQueue with
  | [] =>
    { countClocksRequestQueue := [req], vif := ClkRstIf.countClocks req.clockCyclesToCount }
  | front :: rest =>
    let currentCycleCount := d.vif.cycleCountdown
    let front := { front with clockCyclesToCount := currentCycleCount }
    if req.clockCyclesToCount < currentCycleCount then
      { countClocksRequestQueue :=
          req :: { front with
            clockCyclesToCount := currentCycleCount - req.clockCyclesToCount } :: rest
        vif := ClkRstIf.countClocks req.clockCyclesToCount }
    else if req.clockCyclesToCount = currentCycleCount then
      -- the old front keeps the snapshot as its delta
      { d with countClocksRequestQueue := { req with clockCyclesToCount := 0 } :: front :: rest }
    else { d with countClocksRequestQueue := walk req 0 (front :: rest) }

/-! ## Responses -/

/-- The loop that drains zero deltas and loads the next one: the responses it puts,
    and the driver after it. -/
def drain (vif : ClkRstIf) : List (ClkRstSeqItem α) → List (ClkRstSeqItem α) × ClkRstDriver α
  | [] => ([], { countClocksRequestQueue := [], vif := vif })
  | item :: rest =>
    if item.clockCyclesToCount ≠ 0 then
      ([], { countClocksRequestQueue := item :: rest
             vif := ClkRstIf.countClocks item.clockCyclesToCount })
    else (item :: (drain vif rest).1, (drain vif rest).2)

/-- One pass of `process_count_clocks_responses`. The event it waits for does not
    come with an empty queue. -/
def processCountClocksResponses (d : ClkRstDriver α) :
    List (ClkRstSeqItem α) × ClkRstDriver α :=
  match d.countClocksRequestQueue with
  | [] => ([], d)
  | item :: rest => (item :: (drain d.vif rest).1, (drain d.vif rest).2)

/-- A clock edge, and the handling of the expiry if there is one. -/
def posedge (d : ClkRstDriver α) : List (ClkRstSeqItem α) × ClkRstDriver α :=
  let d' := { d with vif := d.vif.posedge.1 }
  if d.vif.posedge.2 then d'.processCountClocksResponses else ([], d')

end ClkRstDriver

/-! ## Runs -/

/-- A `COUNT_CLOCKS` request reaches the driver, or the clock has an edge. -/
inductive ClkRstEvent (α : Type*)
  | request (req : ClkRstSeqItem α)
  | posedge

/-- The driver, the edges so far, and each response with the edge it was put at. -/
structure ClkRstRun (α : Type*) where
  driver : ClkRstDriver α
  elapsed : Nat
  answers : List (α × Nat)

namespace ClkRstRun

variable {α : Type*}

def init : ClkRstRun α := { driver := ClkRstDriver.init, elapsed := 0, answers := [] }

def step (r : ClkRstRun α) : ClkRstEvent α → ClkRstRun α
  | .request req => { r with driver := r.driver.queueCountClockRequest req }
  | .posedge =>
    { driver := r.driver.posedge.2
      elapsed := r.elapsed + 1
      answers := r.answers ++ r.driver.posedge.1.map fun rsp => (rsp.idInfo, r.elapsed + 1) }

end ClkRstRun

end URiscV.Tb
