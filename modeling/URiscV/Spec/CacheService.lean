import URiscV.Spec.CacheEdge
import URiscV.Spec.CacheLookup

/-!
# The service of one request

From its acceptance to its response the cache serves one request. `next_of_accepts`
starts the service in `L1_COMPARE_TAG`; a hit ends it there, a miss goes through the
phases of `MissPhase`, each of which is given by the state `t` of the tag compare:
nothing but the controller state and `lat_victim_way` changes until the line arrives,
so what is offered to the memory stays what it was, and `lat_victim_way` stays
`victim_way`.

None of this depends on the lookup of the live address being that of the latched one,
so the CPU may put anything on its inputs, and the memory take any time.

## Key results

- `missPhase_run`: the phases of the service of a miss
- `memory_side`: what the memory port shows
- `one_response_one_effect`: responses and updates of `data_ram`
-/

namespace URiscV.Hdl

/-- A request on the memory port. -/
structure MemReq where
  wr : Bool
  addr : BitVec 32
  wdata : BitVec 128
deriving DecidableEq

namespace L1Cache

/-! ## Handshakes and updates of a cycle -/

section Cycle

variable (numWays : Nat) (i : L1In) (c : L1Cache)

/-- A CPU request is accepted. -/
def accepts : Bool := (c.out numWays i.req.addr).reqReady && i.reqValid

/-- A response is given. -/
def responds : Bool := (c.out numWays i.req.addr).respValid

/-- A request is offered to the memory. -/
def offers : Bool := (c.out numWays i.req.addr).memReqValid

/-- The payload of the memory port. -/
def memReq : MemReq where
  wr := (c.out numWays i.req.addr).memReqWr
  addr := (c.out numWays i.req.addr).memReqAddr
  wdata := (c.out numWays i.req.addr).memReqWdata

/-- The memory request that is accepted, if any. -/
def memReqs : List MemReq :=
  if c.offers numWays i && i.memReqReady then [c.memReq numWays i] else []

/-- The assignment to `data_ram`, if any: a write hit, or the arrival of a line. -/
def dataWrites : List (Slot × BitVec 128) :=
  match c.state with
  | .compareTag =>
    if c.cacheHit numWays i.req.addr && c.lat.wr then
      [(c.hitSlot numWays i.req.addr,
        lineWriteWord (c.dataRam (c.hitSlot numWays i.req.addr)) c.latWord c.lat.wdata c.lat.wmask)]
    else []
  | .fillWait =>
    if i.memRespValid then
      [(c.fillSlot,
        if c.lat.wr then lineWriteWord i.memRespRdata c.latWord c.lat.wdata c.lat.wmask
        else i.memRespRdata)]
    else []
  | _ => []

end Cycle

/-- The cache after `n` cycles. -/
abbrev runFor (numWays : Nat) (ins : Nat → L1In) (c : L1Cache) (n : Nat) : L1Cache :=
  Clocked.run (fun i c => c.next numWays i) ins c n

/-- The CPU requests accepted in the first `n` cycles. -/
def accepted (numWays : Nat) (ins : Nat → L1In) (c : L1Cache) (n : Nat) : List L1Req :=
  Clocked.log (fun i c => if c.accepts numWays i then [i.req] else [])
    (fun i c => c.next numWays i) ins c n

/-- The hit flags of the responses of the first `n` cycles. -/
def respHits (numWays : Nat) (ins : Nat → L1In) (c : L1Cache) (n : Nat) : List Bool :=
  Clocked.log
    (fun i c => if c.responds numWays i then [(c.out numWays i.req.addr).respHit] else [])
    (fun i c => c.next numWays i) ins c n

/-- The requests the memory accepts in the first `n` cycles. -/
def memLog (numWays : Nat) (ins : Nat → L1In) (c : L1Cache) (n : Nat) : List MemReq :=
  Clocked.log (fun i c => c.memReqs numWays i) (fun i c => c.next numWays i) ins c n

/-- The assignments to `data_ram` of the first `n` cycles. -/
def dataLog (numWays : Nat) (ins : Nat → L1In) (c : L1Cache) (n : Nat) :
    List (Slot × BitVec 128) :=
  Clocked.log (fun i c => c.dataWrites numWays i) (fun i c => c.next numWays i) ins c n

section Cycle

variable {numWays : Nat} {i : L1In} {c : L1Cache}

/-- `data_ram` changes by its assignments only. -/
theorem next_dataRam : (c.next numWays i).dataRam =
    (c.dataWrites numWays i).foldl (fun ram p => Function.update ram p.1 p.2) c.dataRam := by
  cases hst : c.state with
  | idle => rw [next_of_idle hst, dataWrites, hst]; rfl
  | readout => rw [next_of_readout hst, dataWrites, hst]; rfl
  | writeback | writebackWait | fill =>
    rw [next_of_inMiss (by simp [inMiss, hst]) (by simp [hst]), dataWrites, hst]; rfl
  | compareTag =>
    cases hhit : c.cacheHit numWays i.req.addr with
    | true =>
      rw [next_of_hit hst hhit]
      cases hwr : c.lat.wr <;> simp [compareUpdate, dataWrites, hst, hhit, hwr]
    | false =>
      rw [next_of_miss hst hhit]
      simp [dataWrites, hst, hhit]
  | fillWait =>
    cases hr : i.memRespValid with
    | true =>
      rw [next_of_fillWait hst hr]
      simp [fillUpdate, dataWrites, hst, hr]
    | false =>
      rw [next_of_inMiss (by simp [inMiss, hst]) (by simp [hr])]
      simp [dataWrites, hst, hr]

/-- What is accepted is latched, and its tag is compared in the next cycle. -/
theorem next_of_accepts (h : c.accepts numWays i = true) :
    (c.next numWays i).state = .compareTag ∧ (c.next numWays i).lat = i.req := by
  have hlat : (c.next numWays i).lat = i.req := by
    show (if c.accepts numWays i then i.req else c.lat) = i.req
    rw [h]; rfl
  refine ⟨?_, hlat⟩
  show c.fsm numWays i = .compareTag
  simp only [accepts, out, fsm] at h ⊢
  cases hst : c.state <;> simp [hst] at h ⊢
  · simp [h]
  · cases hhit : c.cacheHit numWays i.req.addr <;> simp [hhit] at h ⊢
    exact h
  · simp [h]

/-- One cycle: a request in service is answered, or stays in service. -/
theorem inService_next :
    (if c.accepts numWays i then 1 else 0) + (if c.state = .idle then 0 else 1) =
      (if c.responds numWays i then 1 else 0) +
        (if (c.next numWays i).state = .idle then 0 else 1) := by
  have hfsm : (c.next numWays i).state = c.fsm numWays i := rfl
  rw [hfsm]
  obtain ⟨st, hst⟩ : ∃ st, c.state = st := ⟨_, rfl⟩
  cases st with
  | idle | readout =>
    simp only [accepts, responds, out, fsm, hst]
    cases i.reqValid <;> rfl
  | compareTag =>
    simp only [accepts, responds, out, fsm, hst]
    cases c.cacheHit numWays i.req.addr with
    | true => cases i.reqValid <;> rfl
    | false => cases c.victimDirty <;> rfl
  | writeback | fill =>
    simp only [accepts, responds, out, fsm, hst]
    cases i.memReqReady <;> rfl
  | writebackWait =>
    simp only [accepts, responds, out, fsm, hst]
    cases i.memWrAck <;> rfl
  | fillWait =>
    simp only [accepts, responds, out, fsm, hst]
    cases i.memRespValid <;> rfl

end Cycle

/-- **One request at a time.** The requests accepted so far are those answered so far,
    and one more outside of `L1_IDLE`. -/
theorem accepted_length (numWays : Nat) (ins : Nat → L1In) (c : L1Cache) (n : Nat) :
    (accepted numWays ins c.asyncReset n).length =
      (respHits numWays ins c.asyncReset n).length +
        (if (runFor numWays ins c.asyncReset n).state = .idle then 0 else 1) := by
  induction n with
  | zero => rfl
  | succ n ih =>
    have hstep := @inService_next numWays (ins n) (runFor numWays ins c.asyncReset n)
    have hacc : (accepted numWays ins c.asyncReset (n + 1)).length =
        (accepted numWays ins c.asyncReset n).length +
          if (runFor numWays ins c.asyncReset n).accepts numWays (ins n) then 1 else 0 := by
      rw [accepted, Clocked.log_succ, List.length_append]
      congr 1
      split <;> rfl
    have hresp : (respHits numWays ins c.asyncReset (n + 1)).length =
        (respHits numWays ins c.asyncReset n).length +
          if (runFor numWays ins c.asyncReset n).responds numWays (ins n) then 1 else 0 := by
      rw [respHits, Clocked.log_succ, List.length_append]
      congr 1
      split <;> rfl
    have hrun : runFor numWays ins c.asyncReset (n + 1) =
        (runFor numWays ins c.asyncReset n).next numWays (ins n) := rfl
    rw [hacc, hresp, hrun]
    omega

/-! ## The phases of a miss -/

section Miss

variable (t : L1Cache)

/-- The cache in a later state of the service of the miss that `t` compares. -/
def serving (st : L1State) : L1Cache := { t with state := st, latVictimWay := t.victimWay }

/-- The write-back of the victim of `t`: its tag and index, and its stored line. -/
def writebackReq : MemReq where
  wr := true
  addr := t.victimTag ++ t.latIndex ++ 0#4
  wdata := t.victimData

/-- The write-back that the miss owes: that of a valid and dirty victim. -/
def writebacks : List MemReq := if t.victimDirty then [t.writebackReq] else []

/-- The fill of the latched line. -/
def fillReq : MemReq where
  wr := false
  addr := t.latLineAddr
  wdata := 0

/-- The write-back has been accepted before cycle `n`, and acknowledged since. -/
def Acked (numWays : Nat) (ins : Nat → L1In) (t : L1Cache) (n : Nat) : Prop :=
  ∃ j < n, memLog numWays ins t j = t.writebacks ∧ (ins j).memWrAck = true

/-- The fill has been accepted before cycle `n`, and its line has come since. -/
def LineCame (numWays : Nat) (ins : Nat → L1In) (t : L1Cache) (n : Nat) : Prop :=
  ∃ j < n, memLog numWays ins t j = t.writebacks ++ [t.fillReq] ∧ (ins j).memRespValid = true

/-- The state of the service of a miss `n` cycles after its tag compare, the requests
    the memory has accepted, and the assignments made to `data_ram`. -/
inductive MissPhase (numWays : Nat) (ins : Nat → L1In) (t : L1Cache) (n : Nat) : Prop
  | writeback (hs : runFor numWays ins t n = t.serving .writeback) (hd : t.victimDirty = true)
      (hmem : memLog numWays ins t n = []) (hdata : dataLog numWays ins t n = [])
  | writebackWait (hs : runFor numWays ins t n = t.serving .writebackWait)
      (hd : t.victimDirty = true) (hno : ¬Acked numWays ins t n)
      (hmem : memLog numWays ins t n = t.writebacks) (hdata : dataLog numWays ins t n = [])
  | fill (hs : runFor numWays ins t n = t.serving .fill)
      (hack : t.victimDirty = true → Acked numWays ins t n)
      (hmem : memLog numWays ins t n = t.writebacks) (hdata : dataLog numWays ins t n = [])
  | fillWait (hs : runFor numWays ins t n = t.serving .fillWait) (hno : ¬LineCame numWays ins t n)
      (hmem : memLog numWays ins t n = t.writebacks ++ [t.fillReq])
      (hdata : dataLog numWays ins t n = [])
  | readout (j : Nat) (hj : j < n) (hw : runFor numWays ins t j = t.serving .fillWait)
      (hr : (ins j).memRespValid = true)
      (hs : runFor numWays ins t n =
        { (t.serving .fillWait).fillUpdate (ins j) with state := .readout })
      (hmem : memLog numWays ins t n = t.writebacks ++ [t.fillReq])
      (hdata : dataLog numWays ins t n = (t.serving .fillWait).dataWrites numWays (ins j))

end Miss

section Phases

variable {numWays : Nat} {ins : Nat → L1In} {t : L1Cache} {n : Nat}

/-- What is accepted from the cache in one cycle more. -/
theorem memLog_succ : memLog numWays ins t (n + 1) =
    memLog numWays ins t n ++ (runFor numWays ins t n).memReqs numWays (ins n) := rfl

/-- What is written to the data RAM in one cycle more. -/
theorem dataLog_succ : dataLog numWays ins t (n + 1) =
    dataLog numWays ins t n ++ (runFor numWays ins t n).dataWrites numWays (ins n) := rfl

/-- An earlier log of the memory port is no longer than a later one. -/
theorem length_memLog_mono {j : Nat} (hj : j ≤ n) :
    (memLog numWays ins t j).length ≤ (memLog numWays ins t n).length :=
  (Clocked.log_prefix hj).length_le

/-- The fill is a request of its own. -/
theorem memLog_ne_of_fill {l : List MemReq} (hmem : l = t.writebacks ++ [t.fillReq]) :
    l ≠ t.writebacks := by
  intro h
  have hlen := congrArg List.length (hmem.symm.trans h)
  rw [List.length_append, List.length_singleton] at hlen
  omega

/-- One more cycle without an acknowledgement. -/
theorem not_acked_succ (hno : ¬Acked numWays ins t n) (hack : (ins n).memWrAck = false) :
    ¬Acked numWays ins t (n + 1) := by
  rintro ⟨j, hj, hmem, hj'⟩
  by_cases hn : j = n
  · subst hn
    rw [hack] at hj'
    cases hj'
  · exact hno ⟨j, by omega, hmem, hj'⟩

/-- One more cycle without the line. -/
theorem not_lineCame_succ (hno : ¬LineCame numWays ins t n) (hr : (ins n).memRespValid = false) :
    ¬LineCame numWays ins t (n + 1) := by
  rintro ⟨j, hj, hmem, hj'⟩
  by_cases hn : j = n
  · subst hn
    rw [hr] at hj'
    cases hj'
  · exact hno ⟨j, by omega, hmem, hj'⟩

/-- The cycle after a tag compare that misses. -/
theorem missPhase_one (hst : t.state = .compareTag)
    (hhit : t.cacheHit numWays (ins 0).req.addr = false) : MissPhase numWays ins t 1 := by
  have hs : runFor numWays ins t 1 = t.serving (if t.victimDirty then .writeback else .fill) :=
    next_of_miss hst hhit
  have hmem : memLog numWays ins t 1 = [] := by
    rw [memLog_succ]
    simp [memLog, memReqs, offers, out_of_miss hst hhit]
  have hdata : dataLog numWays ins t 1 = [] := by
    rw [dataLog_succ]
    simp [dataLog, dataWrites, hst, hhit]
  cases hd : t.victimDirty with
  | true =>
    rw [hd] at hs
    exact .writeback hs hd hmem hdata
  | false =>
    rw [hd] at hs
    refine .fill hs (fun h => ?_) ?_ hdata
    · rw [hd] at h; cases h
    · rw [hmem, writebacks, hd]; rfl

/-- An edge of the service that brings no line. -/
theorem runFor_succ_of_serving {st : L1State} (hs : runFor numWays ins t n = t.serving st)
    (hm : (t.serving st).inMiss = true) (hf : ¬(st = .fillWait ∧ (ins n).memRespValid = true)) :
    runFor numWays ins t (n + 1) = t.serving ((t.serving st).fsm numWays (ins n)) := by
  show (runFor numWays ins t n).next numWays (ins n) = _
  rw [hs, next_of_inMiss hm hf]
  rfl

/-- `L1_WRITEBACK`: the write-back is offered until it is accepted. -/
theorem MissPhase.next_of_writeback (hs : runFor numWays ins t n = t.serving .writeback)
    (hd : t.victimDirty = true) (hmem : memLog numWays ins t n = [])
    (hdata : dataLog numWays ins t n = []) : MissPhase numWays ins t (n + 1) := by
  have hnext : runFor numWays ins t (n + 1) =
      t.serving (if (ins n).memReqReady then .writebackWait else .writeback) :=
    runFor_succ_of_serving hs rfl (by rintro ⟨h, -⟩; cases h)
  have hdata' : dataLog numWays ins t (n + 1) = [] := by
    rw [dataLog_succ, hdata, hs]; rfl
  -- accepted, or offered again
  cases hready : (ins n).memReqReady with
  | true =>
    rw [hready] at hnext
    refine .writebackWait hnext hd ?_ ?_ hdata'
    · -- up to now nothing was accepted that could have been acknowledged
      rintro ⟨j, hj, hwb, -⟩
      have hle := @length_memLog_mono numWays ins t n j (by omega)
      rw [hmem, hwb, writebacks, hd] at hle
      cases hle
    · rw [memLog_succ, hmem, hs, writebacks, hd]
      simp [memReqs, offers, memReq, out, serving, hready]
      rfl
  | false =>
    rw [hready] at hnext
    refine .writeback hnext hd ?_ hdata'
    rw [memLog_succ, hmem, hs]
    simp [memReqs, hready]

/-- `L1_WRITEBACK_WAIT`: nothing is offered before the acknowledgement. -/
theorem MissPhase.next_of_writebackWait
    (hs : runFor numWays ins t n = t.serving .writebackWait) (hd : t.victimDirty = true)
    (hno : ¬Acked numWays ins t n)
    (hmem : memLog numWays ins t n = t.writebacks) (hdata : dataLog numWays ins t n = []) :
    MissPhase numWays ins t (n + 1) := by
  have hnext : runFor numWays ins t (n + 1) =
      t.serving (if (ins n).memWrAck then .fill else .writebackWait) :=
    runFor_succ_of_serving hs rfl (by rintro ⟨h, -⟩; cases h)
  have hdata' : dataLog numWays ins t (n + 1) = [] := by
    rw [dataLog_succ, hdata, hs]; rfl
  have hmem' : memLog numWays ins t (n + 1) = t.writebacks := by
    rw [memLog_succ, hmem, hs]
    simp [memReqs, offers, out, serving]
  -- the acknowledgement is the one the fill waits for
  cases hack : (ins n).memWrAck with
  | true =>
    rw [hack] at hnext
    exact .fill hnext (fun _ => ⟨n, Nat.lt_succ_self n, hmem, hack⟩) hmem' hdata'
  | false =>
    rw [hack] at hnext
    exact .writebackWait hnext hd (not_acked_succ hno hack) hmem' hdata'

/-- `L1_FILL`: the fill is offered until it is accepted. -/
theorem MissPhase.next_of_fill (hs : runFor numWays ins t n = t.serving .fill)
    (hack : t.victimDirty = true → Acked numWays ins t n)
    (hmem : memLog numWays ins t n = t.writebacks) (hdata : dataLog numWays ins t n = []) :
    MissPhase numWays ins t (n + 1) := by
  have hnext : runFor numWays ins t (n + 1) =
      t.serving (if (ins n).memReqReady then .fillWait else .fill) :=
    runFor_succ_of_serving hs rfl (by rintro ⟨h, -⟩; cases h)
  have hdata' : dataLog numWays ins t (n + 1) = [] := by
    rw [dataLog_succ, hdata, hs]; rfl
  cases hready : (ins n).memReqReady with
  | true =>
    rw [hready] at hnext
    refine .fillWait hnext ?_ ?_ hdata'
    · -- up to now no fill was accepted that could have been answered
      rintro ⟨j, hj, hfill, -⟩
      have hle := @length_memLog_mono numWays ins t n j (by omega)
      rw [hmem, hfill, List.length_append, List.length_singleton] at hle
      omega
    · rw [memLog_succ, hmem, hs]
      simp [memReqs, offers, memReq, out, serving, hready]
      rfl
  | false =>
    rw [hready] at hnext
    refine .fill hnext (fun hd => ?_) ?_ hdata'
    · obtain ⟨j, hj, hwb, hj'⟩ := hack hd
      exact ⟨j, Nat.lt_succ_of_lt hj, hwb, hj'⟩
    · rw [memLog_succ, hmem, hs]
      simp [memReqs, hready]

/-- `L1_FILL_WAIT`: the line is put into the cache when it arrives. -/
theorem MissPhase.next_of_fillWait (hs : runFor numWays ins t n = t.serving .fillWait)
    (hno : ¬LineCame numWays ins t n)
    (hmem : memLog numWays ins t n = t.writebacks ++ [t.fillReq])
    (hdata : dataLog numWays ins t n = []) : MissPhase numWays ins t (n + 1) := by
  have hmem' : memLog numWays ins t (n + 1) = t.writebacks ++ [t.fillReq] := by
    rw [memLog_succ, hmem, hs]
    simp [memReqs, offers, out, serving]
  have hdata' : dataLog numWays ins t (n + 1) =
      (t.serving .fillWait).dataWrites numWays (ins n) := by
    rw [dataLog_succ, hdata, hs, List.nil_append]
  -- the line comes, or the wait goes on
  cases hr : (ins n).memRespValid with
  | true =>
    refine .readout n (Nat.lt_succ_self n) hs hr ?_ hmem' hdata'
    show (runFor numWays ins t n).next numWays (ins n) = _
    rw [hs, L1Cache.next_of_fillWait rfl hr]
  | false =>
    refine .fillWait ?_ (not_lineCame_succ hno hr) hmem' ?_
    · rw [runFor_succ_of_serving hs rfl (by simp [hr]), fsm]
      simp [serving, hr]
    · rw [hdata', dataWrites]
      simp [serving, hr]

/-- One cycle of the service of a miss, before the response. -/
theorem MissPhase.next (h : MissPhase numWays ins t n)
    (hresp : (runFor numWays ins t n).responds numWays (ins n) = false) :
    MissPhase numWays ins t (n + 1) := by
  cases h with
  | writeback hs hd hmem hdata => exact next_of_writeback hs hd hmem hdata
  | writebackWait hs hd hno hmem hdata => exact next_of_writebackWait hs hd hno hmem hdata
  | fill hs hack hmem hdata => exact next_of_fill hs hack hmem hdata
  | fillWait hs hno hmem hdata => exact next_of_fillWait hs hno hmem hdata
  | readout j hj hw hr hs hmem hdata =>
    -- a readout responds
    rw [hs] at hresp
    cases hresp

/-- **The phases of a miss.** Whatever the inputs, until it is answered. -/
theorem missPhase_run (hst : t.state = .compareTag)
    (hhit : t.cacheHit numWays (ins 0).req.addr = false) (n : Nat)
    (hresp : ∀ k < n + 1, (runFor numWays ins t k).responds numWays (ins k) = false) :
    MissPhase numWays ins t (n + 1) := by
  induction n with
  | zero => exact missPhase_one hst hhit
  | succ n ih =>
    exact (ih fun k hk => hresp k (Nat.lt_succ_of_lt hk)).next (hresp (n + 1) (Nat.lt_succ_self _))

end Phases

/-! ## The memory side -/

section MemorySide

variable {numWays : Nat} {ins : Nat → L1In} {t : L1Cache} {n : Nat}

/-- An offer that is not accepted is repeated. -/
theorem offers_next {c : L1Cache} {i : L1In} (h : c.offers numWays i = true)
    (hr : i.memReqReady = false) (i' : L1In) :
    (c.next numWays i).offers numWays i' = true ∧
      (c.next numWays i).memReq numWays i' = c.memReq numWays i := by
  cases hst : c.state with
  | idle | writebackWait | fillWait | readout => simp [offers, out, hst] at h
  | compareTag => cases hhit : c.cacheHit numWays i.req.addr <;> simp [offers, out, hst, hhit] at h
  | writeback | fill =>
    have hnext : c.next numWays i = c := by
      rw [next_of_inMiss (by simp [inMiss, hst]) (by simp [hst]), fsm, hst, hr]
      simp [← hst]
    rw [hnext]
    simp [offers, memReq, out, hst]

/-- What the memory port shows in cycle `n` of the service of the miss that `t` compares:

    * `ordered`: accepted so far are the write-back that the victim owes, and then the
      fill of the latched line, or the first of these;
    * `offered`: what is offered is the next of these;
    * `acked`: behind a write-back, the fill is offered only after it was accepted and
      then acknowledged;
    * `writeback`: the write-back that the victim owes is offered in every cycle behind the
      tag compare until it is accepted;
    * `fill`: the fill is offered in every cycle behind the tag compare, or behind the
      acknowledgement where a write-back is owed, until it is accepted;
    * `readout`: the response is given in the cycle behind the arrival of the line;
    * `kept`: until the response the RAMs hold what they held at the tag compare, and
      `lat_victim_way` is the way of the victim;
    * `filled`: at the response all requests have been accepted, and the victim's slot,
      and no other, holds the latched line. -/
structure MissService (numWays : Nat) (ins : Nat → L1In) (t : L1Cache) (n : Nat) : Prop where
  ordered : memLog numWays ins t n <+: t.writebacks ++ [t.fillReq]
  offered : (runFor numWays ins t n).offers numWays (ins n) = true →
    memLog numWays ins t n ++ [(runFor numWays ins t n).memReq numWays (ins n)] <+:
      t.writebacks ++ [t.fillReq]
  acked : (runFor numWays ins t n).offers numWays (ins n) = true →
    (runFor numWays ins t n).memReq numWays (ins n) = t.fillReq → t.victimDirty = true →
    ∃ j < n, memLog numWays ins t j = [t.writebackReq] ∧ (ins j).memWrAck = true
  writeback : 0 < n → t.victimDirty = true → memLog numWays ins t n = [] →
    (runFor numWays ins t n).offers numWays (ins n) = true ∧
      (runFor numWays ins t n).memReq numWays (ins n) = t.writebackReq
  fill : 0 < n → (t.victimDirty = true → Acked numWays ins t n) →
    memLog numWays ins t n = t.writebacks →
    (runFor numWays ins t n).offers numWays (ins n) = true ∧
      (runFor numWays ins t n).memReq numWays (ins n) = t.fillReq
  readout : LineCame numWays ins t n →
    (runFor numWays ins t n).responds numWays (ins n) = true
  kept : (runFor numWays ins t n).responds numWays (ins n) = false →
    (runFor numWays ins t n).tagRam = t.tagRam ∧ (runFor numWays ins t n).dataRam = t.dataRam ∧
      (runFor numWays ins t n).validRam = t.validRam ∧
      (0 < n → (runFor numWays ins t n).fillSlot = t.victimSlot)
  filled : (runFor numWays ins t n).responds numWays (ins n) = true →
    ((runFor numWays ins t n).out numWays (ins n).req.addr).respHit = false ∧
      memLog numWays ins t n = t.writebacks ++ [t.fillReq] ∧
      (runFor numWays ins t n).tagRam = Function.update t.tagRam t.victimSlot t.latTag ∧
      (runFor numWays ins t n).validRam = Function.update t.validRam t.victimSlot true ∧
      ∃ line, (runFor numWays ins t n).dataRam = Function.update t.dataRam t.victimSlot line

/-- A hit is answered in the cycle of its tag compare. -/
theorem responds_of_hit (hst : t.state = .compareTag) :
    t.responds numWays (ins 0) = t.cacheHit numWays (ins 0).req.addr := by
  cases hhit : t.cacheHit numWays (ins 0).req.addr with
  | true => rw [responds, out_of_hit hst hhit]
  | false => rw [responds, out_of_miss hst hhit]

/-- Behind its tag compare, a hit is not in service any more. -/
theorem eq_zero_of_hit (hst : t.state = .compareTag)
    (hhit : t.cacheHit numWays (ins 0).req.addr = true)
    (hresp : ∀ k < n, (runFor numWays ins t k).responds numWays (ins k) = false) : n = 0 := by
  by_contra h0
  have hr : t.responds numWays (ins 0) = true := (responds_of_hit hst).trans hhit
  have hnot : t.responds numWays (ins 0) = false := hresp 0 (by omega)
  rw [hr] at hnot
  cases hnot

/-- Before the fill is accepted, its line cannot come. -/
theorem not_lineCame_of_length_le
    (hle : (memLog numWays ins t n).length ≤ t.writebacks.length) :
    ¬LineCame numWays ins t n := by
  rintro ⟨j, hj, hfill, -⟩
  have hmono := @length_memLog_mono numWays ins t n j (by omega)
  rw [hfill, List.length_append, List.length_singleton] at hmono
  omega

/-- A write-back is no fill. -/
theorem memReq_ne : t.writebackReq ≠ t.fillReq := fun h => by
  have hwr := congrArg MemReq.wr h
  cases hwr

/-- The cycle of the tag compare. -/
theorem missService_zero (hst : t.state = .compareTag)
    (hhit : t.cacheHit numWays (ins 0).req.addr = false) : MissService numWays ins t 0 where
  ordered := List.nil_prefix
  offered := fun h => by simp [offers, out_of_miss hst hhit] at h
  acked := fun h => by simp [offers, out_of_miss hst hhit] at h
  writeback := fun h => absurd h (Nat.lt_irrefl 0)
  fill := fun h => absurd h (Nat.lt_irrefl 0)
  readout := fun ⟨j, hj, _⟩ => absurd hj (Nat.not_lt_zero j)
  kept := fun _ => ⟨rfl, rfl, rfl, fun h => absurd h (Nat.lt_irrefl 0)⟩
  filled := fun h => by simp [responds, out_of_miss hst hhit] at h

/-- Each phase of a miss shows on the memory port what it should. -/
theorem MissPhase.missService (h : MissPhase numWays ins t n) : MissService numWays ins t n := by
  cases h with
  | writeback hs hd hmem hdata =>
    exact {
      ordered := by rw [hmem]; exact List.nil_prefix
      offered := fun _ => by
        rw [hmem, hs, writebacks, hd]
        exact ⟨[t.fillReq], rfl⟩
      acked := fun _ hfill => by
        rw [hs] at hfill
        exact absurd hfill memReq_ne
      writeback := fun _ _ _ => by rw [hs]; exact ⟨rfl, rfl⟩
      fill := fun _ _ h => by
        rw [hmem, writebacks, hd] at h
        cases h
      readout := fun hcame => absurd hcame <|
        not_lineCame_of_length_le (by rw [hmem]; exact Nat.zero_le _)
      kept := fun _ => by rw [hs]; exact ⟨rfl, rfl, rfl, fun _ => rfl⟩
      filled := fun h => by rw [hs] at h; cases h }
  | writebackWait hs hd hno hmem hdata =>
    -- nothing is offered until the write-back is acknowledged
    exact {
      ordered := by rw [hmem]; exact List.prefix_append _ _
      offered := fun h => by rw [hs] at h; cases h
      acked := fun h => by rw [hs] at h; cases h
      writeback := fun _ _ h => by
        rw [hmem, writebacks, hd] at h
        cases h
      fill := fun _ hack _ => absurd (hack hd) hno
      readout := fun hcame => absurd hcame <|
        not_lineCame_of_length_le (by rw [hmem])
      kept := fun _ => by rw [hs]; exact ⟨rfl, rfl, rfl, fun _ => rfl⟩
      filled := fun h => by rw [hs] at h; cases h }
  | fill hs hack hmem hdata =>
    exact {
      ordered := by rw [hmem]; exact List.prefix_append _ _
      offered := fun _ => by rw [hmem, hs]; exact List.prefix_rfl
      acked := fun _ _ hd => by
        obtain ⟨j, hj, hwb, hj'⟩ := hack hd
        rw [writebacks, hd] at hwb
        exact ⟨j, hj, hwb, hj'⟩
      writeback := fun _ hd h => by
        rw [hmem, writebacks, hd] at h
        cases h
      fill := fun _ _ _ => by rw [hs]; exact ⟨rfl, rfl⟩
      readout := fun hcame => absurd hcame <|
        not_lineCame_of_length_le (by rw [hmem])
      kept := fun _ => by rw [hs]; exact ⟨rfl, rfl, rfl, fun _ => rfl⟩
      filled := fun h => by rw [hs] at h; cases h }
  | fillWait hs hno hmem hdata =>
    exact {
      ordered := by rw [hmem]
      offered := fun h => by rw [hs] at h; cases h
      acked := fun h => by rw [hs] at h; cases h
      writeback := fun _ _ h =>
        absurd (hmem.symm.trans h) (List.append_ne_nil_of_right_ne_nil _ (List.cons_ne_nil _ _))
      fill := fun _ _ h => absurd h (memLog_ne_of_fill hmem)
      readout := fun hcame => absurd hcame hno
      kept := fun _ => by rw [hs]; exact ⟨rfl, rfl, rfl, fun _ => rfl⟩
      filled := fun h => by rw [hs] at h; cases h }
  | readout j hj hw hr hs hmem hdata =>
    -- the line has been put into the slot of the victim
    exact {
      ordered := by rw [hmem]
      offered := fun h => by rw [hs] at h; cases h
      acked := fun h => by rw [hs] at h; cases h
      writeback := fun _ _ h =>
        absurd (hmem.symm.trans h) (List.append_ne_nil_of_right_ne_nil _ (List.cons_ne_nil _ _))
      fill := fun _ _ h => absurd h (memLog_ne_of_fill hmem)
      readout := fun _ => by rw [hs]; rfl
      kept := fun h => by rw [hs] at h; cases h
      filled := fun _ => by rw [hs]; exact ⟨rfl, hmem, rfl, rfl, _, rfl⟩ }

/-- **The memory side of a miss is exact.** Take any run from reset, whatever the CPU and
    the memory put on their inputs. While a request to the memory is offered and not
    accepted, it is offered again. And let a CPU request be accepted in cycle `a`, and
    consider cycle `n` behind it, up to that of the response. If the tag compare in the
    cycle after `a` hits, the response is given there and nothing is offered to the
    memory; if it misses, the memory port shows what `MissService` says, which is also
    when the next request and the response are due. -/
theorem memory_side (numWays : Nat) (ins : Nat → L1In) (c : L1Cache) :
    (∀ n, (runFor numWays ins c.asyncReset n).offers numWays (ins n) = true →
      (ins n).memReqReady = false →
      (runFor numWays ins c.asyncReset (n + 1)).offers numWays (ins (n + 1)) = true ∧
        (runFor numWays ins c.asyncReset (n + 1)).memReq numWays (ins (n + 1)) =
          (runFor numWays ins c.asyncReset n).memReq numWays (ins n)) ∧
    ∀ a n, (runFor numWays ins c.asyncReset a).accepts numWays (ins a) = true →
      let t := runFor numWays ins c.asyncReset (a + 1)
      let ins' := fun k => ins (a + 1 + k)
      (∀ k < n, (runFor numWays ins' t k).responds numWays (ins' k) = false) →
      t.state = .compareTag ∧ t.lat = (ins a).req ∧
      (t.cacheHit numWays (ins' 0).req.addr = true →
        n = 0 ∧ t.responds numWays (ins' 0) = true ∧
          (t.out numWays (ins' 0).req.addr).respHit = true ∧ t.offers numWays (ins' 0) = false) ∧
      (t.cacheHit numWays (ins' 0).req.addr = false → MissService numWays ins' t n) := by
  refine ⟨fun n h hr => offers_next h hr _, ?_⟩
  intro a n hacc t ins' hresp
  obtain ⟨hst, hlat⟩ := next_of_accepts hacc
  have hst' : t.state = .compareTag := hst
  refine ⟨hst, hlat, fun hhit => ?_, fun hhit => ?_⟩
  -- a hit is answered at once, without the memory
  · refine ⟨eq_zero_of_hit hst' hhit hresp, (responds_of_hit hst').trans hhit, ?_, ?_⟩
    · rw [out_of_hit hst' hhit]
    · rw [offers, out_of_hit hst' hhit]
  · cases n with
    | zero => exact missService_zero hst' hhit
    | succ n => exact (missPhase_run hst' hhit n hresp).missService

/-- Writes to three lines of set 0, one after the other, with a memory that is always
    ready. -/
def evictIn (k : Nat) : L1In where
  reqValid := true
  req :=
    { addr := if k < 4 then 0x000 else if k < 8 then 0x100 else 0x200
      wr := true
      wdata := 5
      wmask := 0xf }
  memReqReady := true
  memWrAck := true
  memRespValid := true
  memRespRdata := 0

/-- The third write evicts a modified line. -/
theorem memory_side_evictIn :
    (runFor 2 evictIn blank.asyncReset 9).victimDirty = true ∧
    MissService 2 (fun k => evictIn (9 + k)) (runFor 2 evictIn blank.asyncReset 9) 5 :=
  ⟨by decide, ((memory_side 2 evictIn blank).2 8 5 (by decide) (by decide)).2.2.2 (by decide)⟩

end MemorySide

/-! ## Updates of the data RAM -/

section DataRam

variable {numWays : Nat} {ins : Nat → L1In} {t : L1Cache} {n : Nat}

/-- The assignments to `data_ram` of a whole service, that of a hit. -/
theorem dataLog_of_hit (hst : t.state = .compareTag)
    (hhit : t.cacheHit numWays (ins 0).req.addr = true) :
    (t.lat.wr = true → (dataLog numWays ins t 1).length = 1) ∧
      (t.lat.wr = false → dataLog numWays ins t 1 = []) := by
  have hone : dataLog numWays ins t 1 = t.dataWrites numWays (ins 0) := rfl
  rw [hone, dataWrites, hst]
  constructor <;> intro hwr <;> simp [hhit, hwr]

/-- The assignments to `data_ram` of a whole service, that of a miss. -/
theorem MissPhase.dataLog_of_responds (h : MissPhase numWays ins t n)
    (hresp : (runFor numWays ins t n).responds numWays (ins n) = true) :
    ∃ j < n, (runFor numWays ins t j).state = .fillWait ∧ (ins j).memRespValid = true ∧
      dataLog numWays ins t (n + 1) = [((runFor numWays ins t j).fillSlot,
        if t.lat.wr then
          lineWriteWord (ins j).memRespRdata t.latWord t.lat.wdata t.lat.wmask
        else (ins j).memRespRdata)] := by
  cases h with
  | writeback hs | writebackWait hs | fill hs | fillWait hs => rw [hs] at hresp; cases hresp
  | readout j hj hw hr hs hmem hdata =>
    refine ⟨j, hj, ?_, hr, ?_⟩
    · rw [hw]; rfl
    · rw [dataLog_succ, hdata, hs, hw]
      simp only [dataWrites, serving, hr, if_true, List.append_nil]
      rfl

/-- **One response and one effect for each request.** Take any run from reset, whatever
    the CPU and the memory put on their inputs.

    * After every cycle, as many requests have been accepted as responses given, and one
      more outside of `L1_IDLE`.
    * In every cycle `data_ram` changes by the assignments of `dataWrites` only.
    * Let a request be accepted in cycle `a`, and answered `n + 1` cycles later. In the
      cycles behind its acceptance up to its response, a write assigns to `data_ram`
      once; a read does not, or once, when the line it waits for arrives. -/
theorem one_response_one_effect (numWays : Nat) (ins : Nat → L1In) (c : L1Cache) :
    (∀ n, (accepted numWays ins c.asyncReset n).length =
      (respHits numWays ins c.asyncReset n).length +
        (if (runFor numWays ins c.asyncReset n).state = .idle then 0 else 1)) ∧
    (∀ n, (runFor numWays ins c.asyncReset (n + 1)).dataRam =
      ((runFor numWays ins c.asyncReset n).dataWrites numWays (ins n)).foldl
        (fun ram p => Function.update ram p.1 p.2) (runFor numWays ins c.asyncReset n).dataRam) ∧
    ∀ a n, (runFor numWays ins c.asyncReset a).accepts numWays (ins a) = true →
      let t := runFor numWays ins c.asyncReset (a + 1)
      let ins' := fun k => ins (a + 1 + k)
      (∀ k < n, (runFor numWays ins' t k).responds numWays (ins' k) = false) →
      (runFor numWays ins' t n).responds numWays (ins' n) = true →
      ((ins a).req.wr = true → (dataLog numWays ins' t (n + 1)).length = 1) ∧
      ((ins a).req.wr = false → dataLog numWays ins' t (n + 1) = [] ∨
        ∃ j < n, (runFor numWays ins' t j).state = .fillWait ∧ (ins' j).memRespValid = true ∧
          dataLog numWays ins' t (n + 1) =
            [((runFor numWays ins' t j).fillSlot, (ins' j).memRespRdata)]) := by
  refine ⟨accepted_length numWays ins c, fun n => next_dataRam, ?_⟩
  intro a n hacc t ins' hbefore hresp
  obtain ⟨hst, hlat⟩ := next_of_accepts hacc
  have hst' : t.state = .compareTag := hst
  have hlat' : t.lat = (ins a).req := hlat
  rw [← hlat']
  -- a hit writes in the cycle of its response, a miss with its line
  cases hhit : t.cacheHit numWays (ins' 0).req.addr with
  | true =>
    obtain rfl : n = 0 := eq_zero_of_hit hst' hhit hbefore
    obtain ⟨hwrite, hread⟩ := dataLog_of_hit hst' hhit
    exact ⟨hwrite, fun hwr => .inl (hread hwr)⟩
  | false =>
    cases n with
    | zero =>
      have hr : t.responds numWays (ins' 0) = false := (responds_of_hit hst').trans hhit
      exact absurd (hr.symm.trans hresp) Bool.false_ne_true
    | succ n =>
      obtain ⟨j, hj, hfw, hr, hlog⟩ :=
        (missPhase_run hst' hhit n hbefore).dataLog_of_responds hresp
      refine ⟨fun hwr => ?_, fun hwr => .inr ⟨j, hj, hfw, hr, ?_⟩⟩
      · rw [hlog]; rfl
      · rw [hlog, hwr]; rfl

/-- The third write of `evictIn` assigns to `data_ram` once. -/
theorem one_effect_evictIn :
    (dataLog 2 (fun k => evictIn (9 + k)) (runFor 2 evictIn blank.asyncReset 9) 6).length = 1 :=
  ((one_response_one_effect 2 evictIn blank).2.2 8 5 (by decide) (by decide) (by decide)).1 rfl

end DataRam

end L1Cache

end URiscV.Hdl
