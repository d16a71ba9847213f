import URiscV.ForStd.Clocked
import URiscV.ForStd.Hex
import URiscV.Tb.L1cScoreboard

/-!
# The cache monitor

`rv_l1c_monitor`: `run_phase` waits for a handshake, then `wait_for_response` for the
response, one clock edge after the other, and publishes the transaction. Its state is
the statement it waits at. Signals are sampled at the edge, before the registers of the
cache change.
-/

namespace URiscV.Tb

open Hdl (L1Req)

/-- The CPU side of `rv_l1c_if` at a positive clock edge. -/
structure CpuCycle where
  reqValid : Bool
  reqReady : Bool
  req : L1Req
  respValid : Bool
  respRdata : BitVec 32
  respHit : Bool

/-- `req_valid && req_ready`. -/
def CpuCycle.handshake (p : CpuCycle) : Bool := p.reqValid && p.reqReady

/-- The `uvm_error` of driver and monitor when a wait times out. -/
def L1cTransaction.timeoutText (signal : String) (addr : BitVec 32) : String :=
  "Timeout waiting for " ++ signal ++ " (addr=0x" ++ String.ofList (Hex.digits 8 addr.toNat) ++ ")"

/-- The transaction of a request with the response it got. -/
def L1cTransaction.of (req : L1Req) (resp : BitVec 32 × Bool) : L1cTransaction where
  addr := req.addr
  wr := req.wr
  wdata := req.wdata
  wmask := req.wmask
  rdata := resp.1
  hit := resp.2

/-- Where `run_phase` waits for the next clock edge:

    * `reset`: behind the rise of `rst_n`;
    * `request`: at the top of the `forever` loop;
    * `response`: in iteration `i` of `wait_for_response`. -/
inductive L1cMonitor where
  | reset
  | request
  | response (req : L1Req) (i : Nat)
deriving DecidableEq, Repr

namespace L1cMonitor

/-- The iterations of `wait_for_response`. -/
def timeoutCycles : Nat := 200

/-- `run_phase` at a clock edge. -/
def step (p : CpuCycle) : L1cMonitor → L1cMonitor
  -- the edge behind the reset is let pass
  | .reset => .request
  | .request => if p.handshake then .response p.req 0 else .request
  | .response req i =>
    -- the edge of the response is used up: the loop waits for the next one
    if p.respValid then .request
    else if i + 1 < timeoutCycles then .response req (i + 1)
    else .request

/-- What `ap.write` publishes at a clock edge. After a timeout `rdata` and `hit` are as
    the transaction was created. -/
def publish (p : CpuCycle) : L1cMonitor → List L1cTransaction
  | .response req i =>
    if p.respValid then [.of req (p.respRdata, p.respHit)]
    else if i + 1 < timeoutCycles then []
    else [.of req (0, false)]
  | _ => []

/-- The errors of `wait_for_response` at a clock edge. -/
def errors (p : CpuCycle) : L1cMonitor → List String
  | .response req i =>
    if p.respValid then []
    else if i + 1 < timeoutCycles then []
    else [L1cTransaction.timeoutText "resp_valid" req.addr]
  | _ => []

/-- The monitor behind the first `n` clock edges of an interface. -/
def after (port : Nat → CpuCycle) (n : Nat) : L1cMonitor := Clocked.run step port .reset n

/-- The transactions published in the first `n` clock edges. -/
def published (port : Nat → CpuCycle) (n : Nat) : List L1cTransaction :=
  Clocked.log publish step port .reset n

end L1cMonitor

end URiscV.Tb
