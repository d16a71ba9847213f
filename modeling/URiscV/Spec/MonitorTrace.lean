import Mathlib.Data.Nat.Find
import URiscV.Spec.CacheService
import URiscV.Tb.L1cMonitor

/-!
# What the cache monitor observes

The cache serves one request at a time, so the `k`-th response belongs to the `k`-th
accepted request. It may accept the next request in the cycle of a response; the monitor
uses up that cycle for the response and sees the next request too late, as it does for a
request in the first cycle behind the reset. Such a request is lost for the monitor, and
so is the monitor's count of the responses.

## Key results

- `OneAtATime`: what the monitor relies on, and `oneAtATime_cpuPort`
- `Sync.next`: the monitor in step with the interface
- `published_iff_of_prompt`: when everything is observed
-/

namespace URiscV.Tb

open Hdl (L1Req)

/-! ## Transactions of an interface -/

section Interface

variable (port : Nat → CpuCycle)

/-- The requests accepted in the first `n` cycles. -/
def requests : Nat → List L1Req
  | 0 => []
  | n + 1 => requests n ++ if (port n).handshake then [(port n).req] else []

/-- The responses of the first `n` cycles. -/
def responses : Nat → List (BitVec 32 × Bool)
  | 0 => []
  | n + 1 => responses n ++
      if (port n).respValid then [((port n).respRdata, (port n).respHit)] else []

/-- The accepted requests that have been answered, each with its response. -/
def transactions (n : Nat) : List L1cTransaction :=
  List.zipWith L1cTransaction.of (requests port n) (responses port n)

/-- The server behind the interface has a request to answer (`busy`) from its acceptance
    to its response, and takes the next one in the cycle of the response at the
    earliest. -/
structure OneAtATime (busy : Nat → Bool) : Prop where
  init : busy 0 = false
  next : ∀ n, busy (n + 1) = ((port n).handshake || busy n && !(port n).respValid)
  ready : ∀ n, busy n = true → (port n).handshake = true → (port n).respValid = true
  resp : ∀ n, (port n).respValid = true → busy n = true

/-- Each accepted request is answered before `wait_for_response` gives up. -/
def Prompt : Prop := ∀ a, (port a).handshake = true →
  ∃ j, 1 ≤ j ∧ j ≤ L1cMonitor.timeoutCycles ∧ (port (a + j)).respValid = true

/-- A cycle in which the monitor misses nothing. -/
def Observable (n : Nat) : Prop :=
  (n = 0 → (port n).handshake = false) ∧ ((port n).handshake = true → (port n).respValid = false)

end Interface

section Lists

variable {port : Nat → CpuCycle} {busy : Nat → Bool} {n : Nat}

/-- A request is accepted. -/
theorem requests_of_handshake (h : (port n).handshake = true) :
    requests port (n + 1) = requests port n ++ [(port n).req] := by
  rw [requests, h, if_pos rfl]

/-- None is. -/
theorem requests_of_not_handshake (h : (port n).handshake = false) :
    requests port (n + 1) = requests port n := by
  rw [requests, h, if_neg Bool.false_ne_true, List.append_nil]

/-- A response comes. -/
theorem responses_of_respValid (h : (port n).respValid = true) :
    responses port (n + 1) = responses port n ++ [((port n).respRdata, (port n).respHit)] := by
  rw [responses, h, if_pos rfl]

/-- None comes. -/
theorem responses_of_not_respValid (h : (port n).respValid = false) :
    responses port (n + 1) = responses port n := by
  rw [responses, h, if_neg Bool.false_ne_true, List.append_nil]

/-- All accepted requests but the one in service have been answered. -/
theorem OneAtATime.length_requests (h : OneAtATime port busy) (n : Nat) :
    (requests port n).length = (responses port n).length + if busy n then 1 else 0 := by
  induction n with
  | zero => rw [h.init]; rfl
  | succ n ih =>
    rw [h.next n]
    have hready := h.ready n
    have hresp := h.resp n
    cases hs : (port n).handshake with
    | true =>
      -- one more request: either nothing was in service, or its response comes now
      rw [requests_of_handshake hs, List.length_append, ih]
      rw [hs] at hready
      cases hb : busy n with
      | true =>
        rw [responses_of_respValid (hready hb rfl), List.length_append]
        simp
      | false =>
        have hr : (port n).respValid = false := by
          cases hr : (port n).respValid with
          | true => rw [hresp hr] at hb; cases hb
          | false => rfl
        rw [responses_of_not_respValid hr]
        simp
    | false =>
      -- no request: what was in service stays, or is answered
      rw [requests_of_not_handshake hs, ih]
      cases hr : (port n).respValid with
      | true =>
        rw [responses_of_respValid hr, hresp hr]
        simp
      | false =>
        rw [responses_of_not_respValid hr]
        simp

/-- The transactions so far are as many as the responses. -/
theorem OneAtATime.length_transactions (h : OneAtATime port busy) (n : Nat) :
    (transactions port n).length = (responses port n).length := by
  have hlen := h.length_requests n
  rw [transactions, List.length_zipWith]
  omega

end Lists

/-! ## The monitor in step -/

open L1cMonitor (after published timeoutCycles)

/-- The monitor behind `n` edges, when it has missed nothing: it waits for a request when
    none is to be answered, and otherwise for the response to the one accepted `i + 1`
    edges ago. -/
inductive Sync (port : Nat → CpuCycle) (busy : Nat → Bool) (n : Nat) : Prop
  | request (hb : busy n = false) (hm : after port n = if n = 0 then .reset else .request)
      (hpub : published port n = transactions port n)
  | response (a i : Nat) (hn : n = a + 1 + i) (hb : busy n = true)
      (hacc : (port a).handshake = true)
      (hquiet : ∀ k, a < k → k < n → (port k).respValid = false)
      (done : List L1Req) (req : L1Req) (hreqs : requests port n = done ++ [req])
      (hm : after port n = .response req i) (hpub : published port n = transactions port n)

section Sync

variable {port : Nat → CpuCycle} {busy : Nat → Bool} {n : Nat}

/-- The monitor, one cycle later. -/
theorem after_succ : after port (n + 1) = (after port n).step (port n) := rfl

/-- And what it has published. -/
theorem published_succ :
    published port (n + 1) = published port n ++ (after port n).publish (port n) := rfl

/-- Requests behind the last response make no transaction. -/
theorem zipWith_append_of_le {reqs : List L1Req} {resps : List (BitVec 32 × Bool)}
    (more : List L1Req) (hlen : resps.length ≤ reqs.length) :
    List.zipWith L1cTransaction.of (reqs ++ more) resps =
      List.zipWith L1cTransaction.of reqs resps := by
  induction resps generalizing reqs with
  | nil => rw [List.zipWith_nil_right, List.zipWith_nil_right]
  | cons v resps ih =>
    cases reqs with
    | nil => simp at hlen
    | cons r reqs =>
      have hlen' : resps.length ≤ reqs.length := by simpa using hlen
      simp [ih hlen']

/-- The response to the only request without one. -/
theorem zipWith_concat {done : List L1Req} {req : L1Req} {resps : List (BitVec 32 × Bool)}
    (hlen : resps.length = done.length) (v : BitVec 32 × Bool) :
    List.zipWith L1cTransaction.of (done ++ [req]) (resps ++ [v]) =
      List.zipWith L1cTransaction.of (done ++ [req]) resps ++ [.of req v] := by
  rw [List.zipWith_append hlen.symm, zipWith_append_of_le [req] hlen.le]
  rfl

/-- A CPU port that is not busy has no response. -/
theorem OneAtATime.respValid_of_idle (h : OneAtATime port busy) (hb : busy n = false) :
    (port n).respValid = false := by
  cases hr : (port n).respValid with
  | true => rw [h.resp n hr] at hb; cases hb
  | false => rfl

/-- Without a response the transactions stay the same. -/
theorem OneAtATime.transactions_of_not_respValid (h : OneAtATime port busy)
    (hr : (port n).respValid = false) : transactions port (n + 1) = transactions port n := by
  have hlen := h.length_requests n
  rw [transactions, responses_of_not_respValid hr, requests, zipWith_append_of_le _ (by omega)]
  rfl

/-- Behind the reset the monitor and the port are in step. -/
theorem sync_zero (h : OneAtATime port busy) : Sync port busy 0 :=
  .request h.init rfl rfl

/-- One edge on which nothing is missed. -/
theorem Sync.next (hs : Sync port busy n) (h : OneAtATime port busy) (hprompt : Prompt port)
    (hobs : Observable port n) : Sync port busy (n + 1) := by
  have hbusy := h.next n
  cases hs with
  | request hb hm hpub =>
    have hr := h.respValid_of_idle hb
    have htrans := h.transactions_of_not_respValid hr
    have hpub' : published port (n + 1) = transactions port (n + 1) := by
      rw [published_succ, hm, htrans, hpub]
      -- neither at the top of the loop nor behind the reset is anything published
      cases n with
      | zero => exact List.append_nil _
      | succ n => exact List.append_nil _
    rw [hb, Bool.false_and, Bool.or_false] at hbusy
    cases hacc : (port n).handshake with
    | false =>
      rw [hacc] at hbusy
      refine .request hbusy ?_ hpub'
      rw [after_succ, hm, if_neg (Nat.succ_ne_zero n)]
      cases n with
      | zero => rfl
      | succ n =>
        rw [if_neg (Nat.succ_ne_zero n), L1cMonitor.step, hacc]
        rfl
    | true =>
      rw [hacc] at hbusy
      -- not in the cycle behind the reset
      have hn : n ≠ 0 := by
        intro h0
        rw [hobs.1 h0] at hacc
        cases hacc
      refine .response n 0 rfl hbusy hacc (fun k h1 h2 => by omega) (requests port n) (port n).req
        (requests_of_handshake hacc) ?_ hpub'
      rw [after_succ, hm, if_neg hn, L1cMonitor.step, hacc]
      rfl
  | response a i hn hb hacc hquiet done req hreqs hm hpub =>
    have hlen := h.length_requests n
    rw [hb, hreqs, List.length_append] at hlen
    rw [hb, Bool.true_and] at hbusy
    cases hr : (port n).respValid with
    | true =>
      -- nothing else is accepted with the response
      have hno : (port n).handshake = false := by
        cases hs : (port n).handshake with
        | true => rw [hobs.2 hs] at hr; cases hr
        | false => rfl
      rw [hno, hr] at hbusy
      -- the response is published with the request it belongs to, and ends the service
      refine .request hbusy ?_ ?_
      · rw [after_succ, hm, if_neg (Nat.succ_ne_zero n), L1cMonitor.step, hr]
        rfl
      · have htrans : transactions port n = List.zipWith L1cTransaction.of (done ++ [req])
            (responses port n) := by rw [transactions, hreqs]
        rw [published_succ, hm, hpub, htrans, transactions, requests_of_not_handshake hno, hreqs,
          responses_of_respValid hr, zipWith_concat (by simpa using hlen.symm), L1cMonitor.publish,
          hr]
        rfl
    | false =>
      have hno : (port n).handshake = false := by
        cases hs : (port n).handshake with
        | true => rw [h.ready n hb hs] at hr; cases hr
        | false => rfl
      rw [hno, hr] at hbusy
      -- the response is still to come, within the timeout
      have hi : i + 1 < timeoutCycles := by
        obtain ⟨j, hj1, hj2, hresp⟩ := hprompt a hacc
        have hlate : n < a + j := by
          by_contra hle
          rcases Nat.lt_or_eq_of_le (Nat.le_of_not_lt hle) with hlt | heq
          · rw [hquiet (a + j) (by omega) hlt] at hresp
            cases hresp
          · rw [heq, hr] at hresp
            cases hresp
        omega
      refine .response a (i + 1) (by omega) hbusy hacc ?_ done req ?_ ?_ ?_
      · intro k hk1 hk2
        by_cases hkn : k = n
        · rw [hkn, hr]
        · exact hquiet k hk1 (by omega)
      · rw [requests_of_not_handshake hno, hreqs]
      · rw [after_succ, hm, L1cMonitor.step, hr, if_neg Bool.false_ne_true, if_pos hi]
      · rw [published_succ, hm, L1cMonitor.publish, hr, if_neg Bool.false_ne_true, if_pos hi,
          List.append_nil, hpub, h.transactions_of_not_respValid hr]

/-! ## A missed request -/

/-- Behind a cycle in which a request is missed, the monitor waits for a request while
    one is in service. -/
theorem Sync.missed (hs : Sync port busy n) (h : OneAtATime port busy)
    (hobs : ¬Observable port n) : after port (n + 1) = .request ∧ busy (n + 1) = true := by
  have hacc : (port n).handshake = true := by
    cases hacc : (port n).handshake with
    | true => rfl
    | false => exact absurd ⟨fun _ => hacc, fun h => by rw [hacc] at h; cases h⟩ hobs
  have hbusy : busy (n + 1) = true := by rw [h.next n, hacc, Bool.true_or]
  refine ⟨?_, hbusy⟩
  rw [after_succ]
  cases hs with
  | request hb hm hpub =>
    -- nothing is answered here, so this is the cycle behind the reset
    have hr := h.respValid_of_idle hb
    have hn : n = 0 := by
      by_contra hne
      exact hobs ⟨fun h0 => absurd h0 hne, fun _ => hr⟩
    rw [hm, if_pos hn]
    rfl
  | response a i hn hb hacc' hquiet done req hreqs hm hpub =>
    rw [hm, L1cMonitor.step, h.ready n hb hacc, if_pos rfl]

/-- Until the response, nothing happens. -/
theorem waits_of_missed (h : OneAtATime port busy) {m : Nat} (hm : after port m = .request)
    (hb : busy m = true) (j : Nat)
    (hquiet : ∀ k, m ≤ k → k < m + j → (port k).respValid = false) :
    after port (m + j) = .request ∧ busy (m + j) = true ∧
      published port (m + j) = published port m ∧
      (responses port (m + j)).length = (responses port m).length := by
  induction j with
  | zero => exact ⟨hm, hb, rfl, rfl⟩
  | succ j ih =>
    obtain ⟨hm', hb', hpub, hresps⟩ := ih fun k hk hkj => hquiet k hk (by omega)
    have hr : (port (m + j)).respValid = false := hquiet (m + j) (by omega) (by omega)
    have hno : (port (m + j)).handshake = false := by
      cases hs : (port (m + j)).handshake with
      | true => rw [h.ready _ hb' hs] at hr; cases hr
      | false => rfl
    show after port (m + j + 1) = _ ∧ busy (m + j + 1) = _ ∧ published port (m + j + 1) = _ ∧
      (responses port (m + j + 1)).length = _
    refine ⟨?_, ?_, ?_, ?_⟩
    · rw [after_succ, hm', L1cMonitor.step, hno]
      rfl
    · rw [h.next, hb', hno, hr]
      rfl
    · rw [published_succ, hm', hpub]
      exact List.append_nil _
    · rw [responses_of_not_respValid hr, hresps]

/-- The response to a missed request is not published. -/
theorem exists_unpublished (h : OneAtATime port busy) {m : Nat} (hm : after port m = .request)
    (hb : busy m = true) (hresp : ∃ j, (port (m + j)).respValid = true) :
    ∃ j, published port (m + j) = published port m ∧
      (transactions port (m + j)).length = (transactions port m).length + 1 := by
  have hfirst : ∀ k, m ≤ k → k < m + Nat.find hresp → (port k).respValid = false := by
    intro k hk hlt
    have hnot := Nat.find_min hresp (m := k - m) (by omega)
    rw [show m + (k - m) = k by omega] at hnot
    simpa using hnot
  obtain ⟨hm', -, hpub, hlen⟩ := waits_of_missed h hm hb (Nat.find hresp) hfirst
  refine ⟨Nat.find hresp + 1, ?_, ?_⟩
  · show published port (m + Nat.find hresp + 1) = _
    rw [published_succ, hm', hpub]
    exact List.append_nil _
  · show (transactions port (m + Nat.find hresp + 1)).length = _
    rw [h.length_transactions, h.length_transactions,
      responses_of_respValid (Nat.find_spec hresp), List.length_append, hlen]
    rfl

/-- The monitor publishes every transaction as long as none is accepted in a cycle in
    which it does not look. -/
theorem published_iff (h : OneAtATime port busy) (hprompt : Prompt port) :
    (∀ n, published port n = transactions port n) ↔ ∀ n, Observable port n := by
  constructor
  · intro hpub
    -- in step up to a cycle in which a request is missed: its response makes the count short
    have hboth : ∀ n, Sync port busy n ∧ Observable port n := by
      have hobs : ∀ n, Sync port busy n → Observable port n := by
        intro n hs
        by_contra hno
        obtain ⟨hm, hb⟩ := hs.missed h hno
        -- the missed request is answered some time
        have hacc : (port n).handshake = true := by
          by_contra hacc
          exact hno ⟨fun _ => by simpa using hacc, fun h => absurd h hacc⟩
        obtain ⟨j, hj, -, hresp⟩ := hprompt n hacc
        obtain ⟨k, hsame, hmore⟩ := exists_unpublished h hm hb
          ⟨j - 1, by rw [show n + 1 + (j - 1) = n + j by omega]; exact hresp⟩
        have hlen := congrArg List.length (hpub (n + 1 + k))
        rw [hsame, hpub (n + 1), hmore] at hlen
        omega
      intro n
      induction n with
      | zero => exact ⟨sync_zero h, hobs 0 (sync_zero h)⟩
      | succ n ih =>
        have hs := ih.1.next h hprompt ih.2
        exact ⟨hs, hobs (n + 1) hs⟩
    exact fun n => (hboth n).2
  · intro hobs n
    -- nothing is missed in any cycle, so the monitor stays in step
    have hs : Sync port busy n := by
      induction n with
      | zero => exact sync_zero h
      | succ n ih => exact ih.next h hprompt (hobs n)
    cases hs with
    | request _ _ hpub => exact hpub
    | response _ _ _ _ _ _ _ _ _ _ hpub => exact hpub

end Sync

/-! ## The interface of the cache -/

open Hdl (L1Cache L1In)
open Hdl.L1Cache (runFor)

/-- The CPU side of the cache in a cycle. -/
def cpuCycle (numWays : Nat) (i : L1In) (c : L1Cache) : CpuCycle where
  reqValid := i.reqValid
  reqReady := (c.out numWays i.req.addr).reqReady
  req := i.req
  respValid := (c.out numWays i.req.addr).respValid
  respRdata := (c.out numWays i.req.addr).respRdata
  respHit := (c.out numWays i.req.addr).respHit

/-- The CPU side of the cache in a run from reset. -/
def cpuPort (numWays : Nat) (c : L1Cache) (ins : Nat → L1In) (n : Nat) : CpuCycle :=
  cpuCycle numWays (ins n) (runFor numWays ins c.asyncReset n)

section Cache

variable {numWays : Nat} {c : L1Cache} {i : L1In}

/-- A handshake is an acceptance by the cache. -/
theorem handshake_cpuCycle : (cpuCycle numWays i c).handshake = c.accepts numWays i :=
  Bool.and_comm _ _

/-- A request is accepted in `L1_IDLE`, or with a response. -/
theorem responds_of_accepts (hst : c.state ≠ .idle) (h : c.accepts numWays i = true) :
    c.responds numWays i = true := by
  simp only [L1Cache.accepts, L1Cache.responds, L1Cache.out] at h ⊢
  cases hs : c.state with
  | idle => exact absurd hs hst
  | compareTag =>
    simp only [hs] at h ⊢
    cases hhit : c.cacheHit numWays i.req.addr <;> simp [hhit] at h ⊢
  | readout => rfl
  | writeback | writebackWait | fill | fillWait => simp [hs] at h

/-- Responses are given outside of `L1_IDLE`. -/
theorem ne_idle_of_responds (h : c.responds numWays i = true) : c.state ≠ .idle := by
  intro hst
  rw [L1Cache.responds, L1Cache.out_of_idle hst] at h
  cases h

/-- A request is in service behind an edge that accepts one, and until its response. -/
theorem busy_next : ((c.next numWays i).state != .idle) =
    (c.accepts numWays i || c.state != .idle && !c.responds numWays i) := by
  have hcount := @L1Cache.inService_next numWays i c
  have hready := @responds_of_accepts numWays c i
  have hresp := @ne_idle_of_responds numWays c i
  have hbusy (d : L1Cache) : (d.state != .idle) = true ↔ d.state ≠ .idle := bne_iff_ne
  rw [Bool.eq_iff_iff, Bool.or_eq_true, Bool.and_eq_true, Bool.not_eq_true', hbusy, hbusy]
  by_cases hst : c.state = .idle
  -- in `L1_IDLE` nothing is answered
  · have hr : c.responds numWays i = false := by
      rw [← Bool.not_eq_true]
      exact fun hr => hresp hr hst
    rw [if_pos hst, hr] at hcount
    cases ha : c.accepts numWays i <;> by_cases hst' : (c.next numWays i).state = .idle <;>
      simp [ha, hst, hst'] at hcount ⊢
  · have hready' := hready hst
    rw [if_neg hst] at hcount
    cases ha : c.accepts numWays i <;> cases hr : c.responds numWays i <;>
      by_cases hst' : (c.next numWays i).state = .idle <;>
      simp [ha, hr, hst, hst'] at hcount hready' ⊢

/-- The cache serves one request at a time. -/
theorem oneAtATime_cpuPort (numWays : Nat) (c : L1Cache) (ins : Nat → L1In) :
    OneAtATime (cpuPort numWays c ins)
      fun n => (runFor numWays ins c.asyncReset n).state != .idle where
  init := rfl
  next := by
    intro n
    show (((runFor numWays ins c.asyncReset n).next numWays (ins n)).state != .idle) = _
    rw [busy_next, cpuPort, handshake_cpuCycle]
    rfl
  ready := by
    intro n hb hacc
    rw [cpuPort, handshake_cpuCycle] at hacc
    exact responds_of_accepts (by simpa using hb) hacc
  resp := by
    intro n hr
    simpa using ne_idle_of_responds hr

end Cache

/-- **What the monitor observes.** Take any run of the cache from reset in which each
    response comes within 200 cycles. The monitor publishes exactly the answered requests
    in their order, each with its own response, if and only if no request is accepted at
    the first edge behind the reset, and none at the edge of a response. -/
theorem published_iff_of_prompt (numWays : Nat) (c : L1Cache) (ins : Nat → L1In)
    (hprompt : Prompt (cpuPort numWays c ins)) :
    (∀ n, published (cpuPort numWays c ins) n = transactions (cpuPort numWays c ins) n) ↔
      (cpuPort numWays c ins 0).handshake = false ∧
        ∀ n, (cpuPort numWays c ins n).handshake = true →
          (cpuPort numWays c ins n).respValid = false := by
  rw [published_iff (oneAtATime_cpuPort numWays c ins) hprompt]
  constructor
  · intro h
    exact ⟨(h 0).1 rfl, fun n => (h n).2⟩
  · rintro ⟨h0, h⟩ n
    exact ⟨fun hn => hn ▸ h0, h n⟩

/-- Reads of address 0, offered in the given cycles, with a memory that answers at once. -/
def readsAt (cycles : List Nat) (n : Nat) : L1In :=
  { L1Cache.readZero with reqValid := decide (n ∈ cycles) }

/-- What is accepted was offered. -/
theorem mem_of_handshake {cycles : List Nat} {n : Nat}
    (h : (cpuPort 2 L1Cache.blank (readsAt cycles) n).handshake = true) : n ∈ cycles := by
  have hvalid : (readsAt cycles n).reqValid = true := (Bool.and_eq_true_iff.mp h).1
  simpa [readsAt] using hvalid

/-- Two reads, the second one accepted behind the response to the first one: both are
    observed. -/
theorem published_readsAt_two :
    (transactions (cpuPort 2 L1Cache.blank (readsAt [1, 6])) 8).length = 2 ∧
    published (cpuPort 2 L1Cache.blank (readsAt [1, 6])) 8 =
      transactions (cpuPort 2 L1Cache.blank (readsAt [1, 6])) 8 := by
  have honly {n : Nat} (h : (cpuPort 2 L1Cache.blank (readsAt [1, 6]) n).handshake = true) :
      n = 1 ∨ n = 6 := by
    simpa using mem_of_handshake h
  refine ⟨by decide,
    (published_iff_of_prompt 2 L1Cache.blank (readsAt [1, 6]) ?_).mpr ⟨by decide, ?_⟩ 8⟩
  · intro a ha
    rcases honly ha with rfl | rfl
    · exact ⟨4, by decide, by decide, by decide⟩
    · exact ⟨1, by decide, by decide, by decide⟩
  · intro n hn
    rcases honly hn with rfl | rfl
    · decide
    · decide

/-- The second read is accepted with the response to the first one: it is answered in
    the next cycle, and never published. -/
theorem not_published_readsAt_overlap :
    Prompt (cpuPort 2 L1Cache.blank (readsAt [1, 5])) ∧
    (transactions (cpuPort 2 L1Cache.blank (readsAt [1, 5])) 7).length = 2 ∧
    published (cpuPort 2 L1Cache.blank (readsAt [1, 5])) 7 ≠
      transactions (cpuPort 2 L1Cache.blank (readsAt [1, 5])) 7 := by
  refine ⟨?_, by decide, fun h => ?_⟩
  · intro a ha
    have hcases : a = 1 ∨ a = 5 := by simpa using mem_of_handshake ha
    rcases hcases with rfl | rfl
    · exact ⟨4, by decide, by decide, by decide⟩
    · exact ⟨1, by decide, by decide, by decide⟩
  · have hlen := congrArg List.length h
    revert hlen
    decide

end URiscV.Tb
