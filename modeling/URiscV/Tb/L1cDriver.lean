import URiscV.Tb.L1cMonitor

/-!
# The cache driver

`rv_l1c_driver`: `run_phase` takes one item after the other from the sequencer and
`drive_transaction` drives it, a statement at each clock edge. A request is put on the
interface at a negative edge and held until the negative edge behind its handshake; the
response is waited for behind that. Both waits give up after `timeout_cycles`.

The items of a test are the list of the requests its sequence sends.
-/

namespace URiscV.Tb

open Hdl (L1Req L1In L1Out)

/-- Where `run_phase` waits:

    * `reset k`: behind the rise of `rst_n`, with `k` more edges to come behind the next;
    * `item`: in `get_next_item`;
    * `drive`: at the top of `drive_transaction`, for a negative edge;
    * `ready`: in iteration `i` of the loop that waits for `req_ready`;
    * `release`: behind the handshake, for a negative edge;
    * `resp`: in iteration `j` of the loop that waits for `resp_valid`. -/
inductive L1cDriverLoc where
  | reset (k : Nat)
  | item
  | drive (req : L1Req)
  | ready (req : L1Req) (i : Nat)
  | release (req : L1Req)
  | resp (req : L1Req) (j : Nat)
deriving DecidableEq, Repr

/-- `rv_l1c_driver` with its sequencer: where it waits, the items still to come, the items
    done with `rdata` and `hit` as they were left, and the errors reported. -/
structure L1cDriver where
  loc : L1cDriverLoc
  items : List L1Req
  done : List L1cTransaction
  errors : List String

namespace L1cDriver

def timeoutCycles : Nat := 200

def init (items : List L1Req) : L1cDriver where
  loc := .reset 1
  items := items
  done := []
  errors := []

section Tasks

variable (d : L1cDriver)

/-- `get_next_item`. -/
def getNextItem : L1cDriver :=
  match d.items with
  | [] => { d with loc := .item }
  | req :: rest => { d with loc := .drive req, items := rest }

/-- `item_done`, and the top of the loop again. -/
def itemDone (txn : L1cTransaction) : L1cDriver :=
  { d with done := d.done ++ [txn] }.getNextItem

/-- A negative clock edge: the driver and the signals it drives. -/
def negedge (vif : L1In) : L1cDriver × L1In :=
  match d.loc with
  | .drive req => ({ d with loc := .ready req 0 }, { vif with reqValid := true, req := req })
  | .release req => ({ d with loc := .resp req 0 }, { vif with reqValid := false })
  | _ => (d, vif)

/-- A positive clock edge, at which the cache shows `o`. -/
def posedge (o : L1Out) (vif : L1In) : L1cDriver × L1In :=
  match d.loc with
  | .reset 0 => (d.getNextItem, vif)
  | .reset (k + 1) => ({ d with loc := .reset k }, vif)
  | .ready req i =>
    if o.reqReady then ({ d with loc := .release req }, vif)
    else if i + 1 < timeoutCycles then ({ d with loc := .ready req (i + 1) }, vif)
    else
      -- the request is withdrawn
      ({ d with errors := d.errors ++ [L1cTransaction.timeoutText "req_ready" req.addr] }.itemDone
        (.of req (0, false)), { vif with reqValid := false })
  | .resp req j =>
    if o.respValid then (d.itemDone (.of req (o.respRdata, o.respHit)), vif)
    else if j + 1 < timeoutCycles then ({ d with loc := .resp req (j + 1) }, vif)
    else
      ({ d with errors := d.errors ++ [L1cTransaction.timeoutText "resp_valid" req.addr] }.itemDone
        (.of req (0, false)), vif)
  | _ => (d, vif)

end Tasks

end L1cDriver

end URiscV.Tb
