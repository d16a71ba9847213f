import URiscV.ForStd.First
import URiscV.Spec.CacheService

/-!
# When the cache answers

The cache takes any memory. A hit is answered in the cycle behind the acceptance. A miss
waits for the signals of the memory, one after the other, and is answered in the cycle
behind the last of them: at no other time, whatever the CPU and the memory put on the other
inputs. So a memory that never waits longer than `latency` cycles gives a bound for every
request, and for a CPU that always requests a rate.

## Key results

- `response_time`: the cycle of the response
- `prompt_service`: with a memory that keeps to a latency
-/

namespace URiscV.Hdl.L1Cache

section Run

variable (numWays : Nat) (ins : Nat → L1In) (c : L1Cache)

/-! ## Signals of a run -/

def reqReadyAt (n : Nat) : Bool := ((runFor numWays ins c n).out numWays (ins n).req.addr).reqReady
def acceptsAt (n : Nat) : Bool := (runFor numWays ins c n).accepts numWays (ins n)
def respondsAt (n : Nat) : Bool := (runFor numWays ins c n).responds numWays (ins n)

/-- The request accepted in cycle `t` is answered in cycle `n`. -/
abbrev Answered (t n : Nat) : Prop := First (respondsAt numWays ins c) (t + 1) n

def memReqReadyAt (n : Nat) : Bool := (ins n).memReqReady
def memWrAckAt (n : Nat) : Bool := (ins n).memWrAck
def memRespValidAt (n : Nat) : Bool := (ins n).memRespValid

/-- A fill offered from cycle `t` on is accepted, and its line is in the cache in cycle `n`. -/
def FillServed (t n : Nat) : Prop :=
  ∃ r, First (memReqReadyAt ins) t r ∧ ∃ u, First (memRespValidAt ins) (r + 1) u ∧ n = u + 1

/-- A write-back offered from cycle `t` on is accepted and acknowledged, and then the fill. -/
def WritebackServed (t n : Nat) : Prop :=
  ∃ w, First (memReqReadyAt ins) t w ∧ ∃ a, First (memWrAckAt ins) (w + 1) a ∧
    FillServed ins (a + 1) n

variable {numWays ins c} {t n : Nat}

/-! ## The controller -/

/-- The controller state is what `fsm` computes from the cycle before. -/
theorem state_succ (n : Nat) : (runFor numWays ins c (n + 1)).state =
    (runFor numWays ins c n).fsm numWays (ins n) := rfl

/-- Only a hit and a readout are responses. -/
theorem respondsAt_of_inMiss (h : (runFor numWays ins c n).inMiss = true) :
    respondsAt numWays ins c n = false := (quiet_of_inMiss h).2

/-- The cache is ready where it responds. -/
theorem reqReadyAt_of_respondsAt (h : respondsAt numWays ins c n = true) :
    reqReadyAt numWays ins c n = true := by
  rw [respondsAt, responds] at h
  rw [reqReadyAt]
  -- the two cycles with a response are those of a hit and of the readout
  cases hst : (runFor numWays ins c n).state with
  | idle => rw [out_of_idle hst]
  | readout => rw [out_of_readout hst]
  | compareTag =>
    cases hhit : (runFor numWays ins c n).cacheHit numWays (ins n).req.addr with
    | true => rw [out_of_hit hst hhit]
    | false =>
      rw [out_of_miss hst hhit] at h
      cases h
  | writeback | writebackWait | fill | fillWait =>
    rw [(quiet_of_inMiss (by rw [inMiss, hst])).2] at h
    cases h

section Wait

/-- A state of the service of a miss that is left for `st'` when the signal `p` comes. -/
structure Waits (numWays : Nat) (ins : Nat → L1In) (st : L1State) (p : Nat → Bool)
    (st' : L1State) : Prop where
  fsm : ∀ (c : L1Cache) k, c.state = st → c.fsm numWays (ins k) = if p k then st' else st
  inMiss : ∀ c : L1Cache, c.state = st → c.inMiss = true

/-- `L1_WRITEBACK` waits for `mem_req_ready`. -/
theorem waits_writeback : Waits numWays ins .writeback (memReqReadyAt ins) .writebackWait :=
  ⟨fun c k h => by rw [L1Cache.fsm, h]; rfl, fun c h => by rw [L1Cache.inMiss, h]⟩

/-- `L1_WRITEBACK_WAIT` waits for `mem_wr_ack`. -/
theorem waits_writebackWait : Waits numWays ins .writebackWait (memWrAckAt ins) .fill :=
  ⟨fun c k h => by rw [L1Cache.fsm, h]; rfl, fun c h => by rw [L1Cache.inMiss, h]⟩

/-- `L1_FILL` waits for `mem_req_ready`. -/
theorem waits_fill : Waits numWays ins .fill (memReqReadyAt ins) .fillWait :=
  ⟨fun c k h => by rw [L1Cache.fsm, h]; rfl, fun c h => by rw [L1Cache.inMiss, h]⟩

/-- `L1_FILL_WAIT` waits for `mem_resp_valid`. -/
theorem waits_fillWait : Waits numWays ins .fillWait (memRespValidAt ins) .readout :=
  ⟨fun c k h => by rw [L1Cache.fsm, h]; rfl, fun c h => by rw [L1Cache.inMiss, h]⟩

variable {st st' : L1State} {p : Nat → Bool} (hw : Waits numWays ins st p st')
  (ht : (runFor numWays ins c t).state = st)

include hw

/-- Without the signal the controller stays. -/
theorem Waits.stay {k : Nat} (hk : (runFor numWays ins c k).state = st) (hp : p k = false) :
    (runFor numWays ins c (k + 1)).state = st := by
  rw [state_succ, hw.fsm _ k hk, hp]
  rfl

include ht

/-- There is no response before the signal. -/
theorem Waits.first_iff : First (respondsAt numWays ins c) t n ↔
    ∃ u, First p t u ∧ First (respondsAt numWays ins c) (u + 1) n :=
  @First.wait p (respondsAt numWays ins c) t n (fun k => (runFor numWays ins c k).state = st) ht
    (fun _ => hw.stay) fun _ hk => respondsAt_of_inMiss (hw.inMiss _ hk)

/-- With the first signal the controller goes on. -/
theorem Waits.state_next {u : Nat} (hu : First p t u) :
    (runFor numWays ins c (u + 1)).state = st' := by
  have hst : (runFor numWays ins c u).state = st :=
    @First.stays p t (fun k => (runFor numWays ins c k).state = st) ht (fun _ => hw.stay) u hu.le
      hu.before
  rw [state_succ, hw.fsm _ u hst, hu.holds]
  rfl

end Wait

/-! ## The response -/

/-- From `L1_FILL` on, the response comes when the fill is served. -/
theorem first_of_fill (ht : (runFor numWays ins c t).state = .fill) :
    First (respondsAt numWays ins c) t n ↔ FillServed ins t n := by
  rw [waits_fill.first_iff ht]
  refine exists_congr fun r => and_congr_right fun hr => ?_
  have hwait : (runFor numWays ins c (r + 1)).state = .fillWait := waits_fill.state_next ht hr
  rw [waits_fillWait.first_iff hwait]
  refine exists_congr fun u => and_congr_right fun hu => ?_
  have hread : (runFor numWays ins c (u + 1)).state = .readout := waits_fillWait.state_next hwait hu
  exact First.iff_of_holds (congrArg L1Out.respValid (out_of_readout hread))

/-- From `L1_WRITEBACK` on, the write-back is served first. -/
theorem first_of_writeback (ht : (runFor numWays ins c t).state = .writeback) :
    First (respondsAt numWays ins c) t n ↔ WritebackServed ins t n := by
  rw [waits_writeback.first_iff ht]
  refine exists_congr fun w => and_congr_right fun hw => ?_
  have hwait := waits_writeback.state_next ht hw
  rw [waits_writebackWait.first_iff hwait]
  exact exists_congr fun a => and_congr_right fun ha =>
    first_of_fill (waits_writebackWait.state_next hwait ha)

/-- The response to the request whose tag is compared in cycle `t`. -/
theorem first_of_compareTag (ht : (runFor numWays ins c t).state = .compareTag) :
    First (respondsAt numWays ins c) t n ↔
      if (runFor numWays ins c t).cacheHit numWays (ins t).req.addr then n = t
      else if (runFor numWays ins c t).victimDirty then WritebackServed ins (t + 1) n
      else FillServed ins (t + 1) n := by
  cases hhit : (runFor numWays ins c t).cacheHit numWays (ins t).req.addr with
  | true =>
    rw [if_pos rfl]
    exact First.iff_of_holds (congrArg L1Out.respValid (out_of_hit ht hhit))
  | false =>
    have hquiet : respondsAt numWays ins c t = false :=
      congrArg L1Out.respValid (out_of_miss ht hhit)
    have hstate : (runFor numWays ins c (t + 1)).state =
        if (runFor numWays ins c t).victimDirty then .writeback else .fill :=
      congrArg L1Cache.state (next_of_miss ht hhit)
    rw [First.iff_of_not hquiet, if_neg Bool.false_ne_true]
    -- a miss is quiet and goes to the write-back or to the fill
    cases hd : (runFor numWays ins c t).victimDirty with
    | true =>
      rw [hd] at hstate
      exact first_of_writeback hstate
    | false =>
      rw [hd] at hstate
      exact first_of_fill hstate

/-! ## A memory with a bounded latency -/

/-- The memory lets the cache wait for less than `latency` cycles. -/
structure Prompt (numWays : Nat) (ins : Nat → L1In) (c : L1Cache) (latency : Nat) : Prop where
  ready : ∀ k, (runFor numWays ins c k).offers numWays (ins k) = true →
    ∃ u < k + latency, k ≤ u ∧ (ins u).memReqReady = true
  ack : ∀ k, (runFor numWays ins c k).state = .writebackWait →
    ∃ u < k + latency, k ≤ u ∧ (ins u).memWrAck = true
  resp : ∀ k, (runFor numWays ins c k).state = .fillWait →
    ∃ u < k + latency, k ≤ u ∧ (ins u).memRespValid = true

/-- A signal that comes within `latency` cycles comes for the first time within them. -/
theorem exists_first_lt {p : Nat → Bool} {latency : Nat}
    (h : ∃ u < t + latency, t ≤ u ∧ p u = true) : ∃ u < t + latency, First p t u := by
  obtain ⟨u, hlt, hle, hu⟩ := h
  obtain ⟨v, hv, hfirst⟩ := First.exists_of_holds hle hu
  exact ⟨v, Nat.lt_of_le_of_lt hv hlt, hfirst⟩

section Bound

variable {latency : Nat} (hp : Prompt numWays ins c latency)

include hp

/-- A prompt memory answers a fill within `latency` cycles. -/
theorem Prompt.fillWait (ht : (runFor numWays ins c t).state = .fillWait) :
    ∃ n ≤ t + latency, First (respondsAt numWays ins c) t n := by
  obtain ⟨u, hu, hresp⟩ := exists_first_lt (hp.resp t ht)
  have hread : (runFor numWays ins c (u + 1)).state = .readout := waits_fillWait.state_next ht hresp
  have hnow : First (respondsAt numWays ins c) (u + 1) (u + 1) :=
    (First.iff_of_holds (congrArg L1Out.respValid (out_of_readout hread))).mpr rfl
  exact ⟨u + 1, hu, (waits_fillWait.first_iff ht).mpr ⟨u, hresp, hnow⟩⟩

/-- It accepts and answers a fill within `2 * latency` cycles. -/
theorem Prompt.fill (ht : (runFor numWays ins c t).state = .fill) :
    ∃ n ≤ t + 2 * latency, First (respondsAt numWays ins c) t n := by
  obtain ⟨r, hr, hready⟩ := exists_first_lt (hp.ready t (by rw [offers, out_of_fill ht]))
  obtain ⟨n, hn, hresp⟩ := hp.fillWait (waits_fill.state_next ht hready)
  exact ⟨n, by omega, (waits_fill.first_iff ht).mpr ⟨r, hready, hresp⟩⟩

/-- The acknowledgement and the fill take `3 * latency` cycles at most. -/
theorem Prompt.writebackWait (ht : (runFor numWays ins c t).state = .writebackWait) :
    ∃ n ≤ t + 3 * latency, First (respondsAt numWays ins c) t n := by
  obtain ⟨a, ha, hack⟩ := exists_first_lt (hp.ack t ht)
  obtain ⟨n, hn, hresp⟩ := hp.fill (waits_writebackWait.state_next ht hack)
  exact ⟨n, by omega, (waits_writebackWait.first_iff ht).mpr ⟨a, hack, hresp⟩⟩

/-- The whole service of a dirty miss takes `4 * latency` cycles at most. -/
theorem Prompt.writeback (ht : (runFor numWays ins c t).state = .writeback) :
    ∃ n ≤ t + 4 * latency, First (respondsAt numWays ins c) t n := by
  obtain ⟨w, hw, hready⟩ := exists_first_lt (hp.ready t (by rw [offers, out_of_writeback ht]))
  obtain ⟨n, hn, hresp⟩ := hp.writebackWait (waits_writeback.state_next ht hready)
  exact ⟨n, by omega, (waits_writeback.first_iff ht).mpr ⟨w, hready, hresp⟩⟩

/-- From the tag compare on, there is one cycle more. -/
theorem Prompt.compareTag (ht : (runFor numWays ins c t).state = .compareTag) :
    ∃ n ≤ t + 1 + 4 * latency, First (respondsAt numWays ins c) t n := by
  cases hhit : (runFor numWays ins c t).cacheHit numWays (ins t).req.addr with
  | true =>
    have hnow : respondsAt numWays ins c t = true := congrArg L1Out.respValid (out_of_hit ht hhit)
    exact ⟨t, by omega, (First.iff_of_holds hnow).mpr rfl⟩
  | false =>
    have hquiet : respondsAt numWays ins c t = false :=
      congrArg L1Out.respValid (out_of_miss ht hhit)
    have hstate : (runFor numWays ins c (t + 1)).state =
        if (runFor numWays ins c t).victimDirty then .writeback else .fill :=
      congrArg L1Cache.state (next_of_miss ht hhit)
    -- the service starts one cycle behind the compare
    cases hd : (runFor numWays ins c t).victimDirty with
    | true =>
      rw [hd] at hstate
      obtain ⟨n, hn, hresp⟩ := hp.writeback hstate
      exact ⟨n, hn, (First.iff_of_not hquiet).mpr hresp⟩
    | false =>
      rw [hd] at hstate
      obtain ⟨n, hn, hresp⟩ := hp.fill hstate
      exact ⟨n, by omega, (First.iff_of_not hquiet).mpr hresp⟩

/-- From every state with a request in service. -/
theorem Prompt.busy (ht : (runFor numWays ins c t).state ≠ .idle) :
    ∃ n ≤ t + (4 * latency + 1), First (respondsAt numWays ins c) t n := by
  -- every state of a service has its own bound, and `L1_COMPARE_TAG` the longest
  cases hst : (runFor numWays ins c t).state with
  | idle => exact absurd hst ht
  | compareTag =>
    obtain ⟨n, hn, hresp⟩ := hp.compareTag hst
    exact ⟨n, by omega, hresp⟩
  | writeback =>
    obtain ⟨n, hn, hresp⟩ := hp.writeback hst
    exact ⟨n, by omega, hresp⟩
  | writebackWait =>
    obtain ⟨n, hn, hresp⟩ := hp.writebackWait hst
    exact ⟨n, by omega, hresp⟩
  | fill =>
    obtain ⟨n, hn, hresp⟩ := hp.fill hst
    exact ⟨n, by omega, hresp⟩
  | fillWait =>
    obtain ⟨n, hn, hresp⟩ := hp.fillWait hst
    exact ⟨n, by omega, hresp⟩
  | readout =>
    have hnow : respondsAt numWays ins c t = true := congrArg L1Out.respValid (out_of_readout hst)
    exact ⟨t, by omega, (First.iff_of_holds hnow).mpr rfl⟩

/-- An accepted request is answered. -/
theorem Prompt.answered (ha : acceptsAt numWays ins c t = true) :
    ∃ n ≤ t + (4 * latency + 2), Answered numWays ins c t n := by
  have hst : (runFor numWays ins c (t + 1)).state = .compareTag := (next_of_accepts ha).1
  obtain ⟨n, hn, hresp⟩ := hp.busy (t := t + 1) (by rw [hst]; decide)
  exact ⟨n, by omega, hresp⟩

/-- The cache gets ready again. -/
theorem Prompt.ready_again (t : Nat) :
    ∃ n ≤ t + (4 * latency + 1), t ≤ n ∧ reqReadyAt numWays ins c n = true := by
  by_cases hst : (runFor numWays ins c t).state = .idle
  · exact ⟨t, by omega, Nat.le_refl t, congrArg L1Out.reqReady (out_of_idle hst)⟩
  · obtain ⟨n, hn, hresp⟩ := hp.busy hst
    exact ⟨n, hn, hresp.le, reqReadyAt_of_respondsAt hresp.holds⟩

end Bound

/-- A cycle with a response is one answer more. -/
theorem respHits_length_succ (h : respondsAt numWays ins c n = true) :
    (respHits numWays ins c (n + 1)).length = (respHits numWays ins c n).length + 1 := by
  have hstep : (runFor numWays ins c n).responds numWays (ins n) = true := h
  rw [respHits, Clocked.log_succ, if_pos hstep, List.length_append]
  rfl

/-- There are never fewer answers later. -/
theorem respHits_length_le {m : Nat} (h : m ≤ n) :
    (respHits numWays ins c m).length ≤ (respHits numWays ins c n).length :=
  (Clocked.log_prefix h).length_le

/-- A CPU that always requests gets a new request accepted with every response. -/
theorem Prompt.rate {latency : Nat} (hp : Prompt numWays ins c latency)
    (hidle : c.state = .idle) (hvalid : ∀ t, (ins t).reqValid = true) (k : Nat) :
    ∃ t ≤ k * (4 * latency + 2), acceptsAt numWays ins c t = true ∧
      k ≤ (respHits numWays ins c (t + 1)).length := by
  have haccepts {n : Nat} (h : reqReadyAt numWays ins c n = true) :
      acceptsAt numWays ins c n = true := by
    show (reqReadyAt numWays ins c n && (ins n).reqValid) = true
    rw [h, hvalid n]
    rfl
  -- the cycle of the `k`-th response accepts the next request
  induction k with
  | zero =>
    exact ⟨0, Nat.zero_le _, haccepts (congrArg L1Out.reqReady (out_of_idle hidle)), Nat.zero_le _⟩
  | succ k ih =>
    obtain ⟨t, ht, hacc, hcount⟩ := ih
    obtain ⟨n, hn, hresp⟩ := hp.answered hacc
    -- the cache is ready where it responds
    refine ⟨n, by rw [Nat.succ_mul]; omega, haccepts (reqReadyAt_of_respondsAt hresp.holds), ?_⟩
    rw [respHits_length_succ hresp.holds]
    exact Nat.succ_le_succ (hcount.trans (respHits_length_le hresp.le))

end Run

/-- **When a request is answered.** Accepted in cycle `t` of any run, it is answered in
    cycle `t + 1` if it hits. Otherwise it is answered in the cycle behind the first
    `mem_resp_valid` behind the first `mem_req_ready` from cycle `t + 2` on, where a dirty
    victim has been written back first: accepted at the first `mem_req_ready` from there on
    and acknowledged at the first `mem_wr_ack` behind that. If one of these signals does not
    come, there is no answer. -/
theorem response_time (numWays : Nat) (ins : Nat → L1In) (c : L1Cache) (t n : Nat)
    (h : acceptsAt numWays ins c t = true) :
    Answered numWays ins c t n ↔
      let s := runFor numWays ins c (t + 1)
      if s.cacheHit numWays (ins (t + 1)).req.addr then n = t + 1
      else if s.victimDirty then WritebackServed ins (t + 2) n
      else FillServed ins (t + 2) n :=
  first_of_compareTag (next_of_accepts h).1

/-- Reads with a memory that is ready in cycle 3 and answers in cycle 6. -/
def slow (k : Nat) : L1In where
  reqValid := true
  req := { L1Req.zero with addr := 0x40 }
  memReqReady := k == 3
  memWrAck := false
  memRespValid := k == 6
  memRespRdata := 7

/-- With this memory the request of cycle 0 is answered in cycle 7. -/
theorem response_time_slow : Answered 2 slow blank 0 7 := by
  refine (response_time 2 slow blank 0 7 (by decide)).mpr ?_
  show FillServed slow 2 7
  refine ⟨3, ⟨by decide, rfl, fun k hk hlt => ?_⟩, 6, ⟨by decide, rfl, fun k hk hlt => ?_⟩, rfl⟩
  · exact beq_false_of_ne (by omega)
  · exact beq_false_of_ne (by omega)

/-- **A prompt memory makes a prompt cache.** In every run from a reset with a memory that
    never lets the cache wait for `latency` cycles, every accepted request is answered
    within `4 * latency + 2` cycles, the cache is ready again within `4 * latency + 1`
    cycles whatever it does, and a CPU that always requests gets an answer at least every
    `4 * latency + 2` cycles. -/
theorem prompt_service (numWays : Nat) (ins : Nat → L1In) (c : L1Cache) (latency : Nat)
    (hp : Prompt numWays ins c.asyncReset latency) :
    (∀ t, acceptsAt numWays ins c.asyncReset t = true →
      ∃ n ≤ t + (4 * latency + 2), Answered numWays ins c.asyncReset t n) ∧
    (∀ t, ∃ n ≤ t + (4 * latency + 1), t ≤ n ∧ reqReadyAt numWays ins c.asyncReset n = true) ∧
    ((∀ t, (ins t).reqValid = true) → ∀ k n, k * (4 * latency + 2) < n →
      k ≤ (respHits numWays ins c.asyncReset n).length) := by
  refine ⟨fun t ha => hp.answered ha, hp.ready_again, fun hvalid k n hn => ?_⟩
  obtain ⟨t, ht, -, hcount⟩ := hp.rate rfl hvalid k
  exact hcount.trans (respHits_length_le (by omega))

/-- Writes with a memory that never waits. -/
def eager (k : Nat) : L1In where
  reqValid := true
  req := { L1Req.zero with addr := BitVec.ofNat 32 (256 * k), wr := true }
  memReqReady := true
  memWrAck := true
  memRespValid := true
  memRespRdata := 0

/-- With this memory there are three answers in twenty cycles. -/
theorem prompt_service_eager : 3 ≤ (respHits 2 eager blank.asyncReset 20).length := by
  have hprompt : Prompt 2 eager blank.asyncReset 1 :=
    ⟨fun k _ => ⟨k, by omega, Nat.le_refl k, rfl⟩, fun k _ => ⟨k, by omega, Nat.le_refl k, rfl⟩,
      fun k _ => ⟨k, by omega, Nat.le_refl k, rfl⟩⟩
  exact (prompt_service 2 eager blank 1 hprompt).2.2 (fun _ => rfl) 3 20 (by decide)

end URiscV.Hdl.L1Cache
