import URiscV.ForStd.Answers
import URiscV.Spec.CacheSystem

/-!
# Clean lines and responses of the cache

Two consequences of `SysInv` for whole runs from reset. With `req_addr` held at
the accepted address during `L1_COMPARE_TAG`, the clean lines agree with the next
level exactly as long as no read hit marks a modified line clean. And as long as
that does not happen and the live lookup is the latched one, the responses are
those of a flat memory.

## Key results

- `clean_iff_of_addr_held`: clean lines
- `answered_of_lookupOk`: responses
-/

namespace URiscV.Hdl.Sys

open FlatMemory (lineOf writeLine bytes)

/-- The state after `n` edges behind a reset. -/
abbrev after (c : L1Cache) (mem : BitVec 28 → BitVec 128) (ins : Nat → SysIn) (n : Nat) : Sys :=
  Clocked.run next ins (init c mem) n

/-! ## Clean lines -/

/-- In `L1_IDLE` and `L1_COMPARE_TAG`, every way of every set that is valid and not
    dirty holds the data of the next level. -/
def CleanOk (y : Sys) : Prop :=
  y.cache.state = .idle ∨ y.cache.state = .compareTag →
    ∀ (set : BitVec 4) (way : Nat), way < 2 → y.cache.validRam (set, way) = true →
      y.cache.dirtyRam (set, way) = false →
      y.cache.dataRam (set, way) = y.nextLevel.mem (y.cache.tagRam (set, way) ++ set)

section Clean

variable {y : Sys} {view : BitVec 28 → BitVec 128} {i : SysIn}

/-- What is marked clean is in the next level. -/
theorem SysInv.cleanOk (h : SysInv y view) : CleanOk y := by
  intro _ set way _ hvalid hdirty
  have hline : y.cache.line (set, way) = some (y.cache.tagRam (set, way) ++ set) :=
    L1Cache.line_eq_some.mpr ⟨hvalid, rfl⟩
  rw [h.coh.held _ _ hline, h.coh.clean _ _ hline hdirty]

/-- A read hit that marks a modified line clean shows in the next state. -/
theorem not_cleanOk_next (h : SysInv y view) (hlook : y.lookupOk i = true)
    (hloses : y.losesDirtyLine = true) : ¬ CleanOk (y.next i) := by
  simp only [losesDirtyLine, Bool.and_eq_true, beq_iff_eq, Bool.not_eq_true', bne_iff_ne,
    L1Cache.victimDirty] at hloses
  obtain ⟨⟨⟨⟨hst, hsome⟩, hwr⟩, hvalid, -⟩, hne⟩ := hloses
  have hhit : y.cache.cacheHit 2 i.req.addr = true := by
    have hlat : y.cache.lookup i.req.addr = y.cache.lookup y.cache.lat.addr := by
      simpa [lookupOk, hst] using hlook
    rw [L1Cache.cacheHit_eq, hlat, hsome]
  -- no write is outstanding in `L1_COMPARE_TAG`, so the next level keeps its lines
  have hp : y.nextLevel.pending = none := by
    cases h.ctl with
    | compare _ hp => exact hp
    | idle h' | writeback h' | wait h' | fill h' | fillWait h' | readout h' =>
      rw [hst] at h'; cases h'
  have hmem : (y.next i).nextLevel.mem = y.nextLevel.mem := NextLevel.clk_mem_of_pending_none hp
  have hdu : y.cache.dataUpdate 2 (y.l1In i) = { y.cache with
      lruRam := Function.update y.cache.lruRam y.cache.latIndex
        (!(y.cache.hitWayVal 2 i.req.addr).getLsbD 0)
      dirtyRam := Function.update y.cache.dirtyRam y.cache.victimSlot false } := by
    simp [L1Cache.dataUpdate, L1Cache.compareUpdate, hst, l1In, hhit, hwr]
  have hfsm : (y.next i).cache.state = if i.reqValid then .compareTag else .idle :=
    next_state_of_hit hst hhit
  intro hclean
  have hstate : (y.next i).cache.state = .idle ∨ (y.next i).cache.state = .compareTag := by
    rw [hfsm]
    cases i.reqValid
    · exact .inl rfl
    · exact .inr rfl
  have hvalid' : (y.next i).cache.validRam y.cache.victimSlot = true := by
    show (y.cache.dataUpdate 2 (y.l1In i)).validRam y.cache.victimSlot = true
    rw [hdu]
    exact hvalid
  have hdirty' : (y.next i).cache.dirtyRam y.cache.victimSlot = false := by
    show (y.cache.dataUpdate 2 (y.l1In i)).dirtyRam y.cache.victimSlot = false
    rw [hdu]
    exact Function.update_self _ _ _
  -- the victim way of the next state is valid, clean and not what memory holds
  have heq := hclean hstate y.cache.latIndex y.cache.victimWay.toNat (Bool.toNat_lt _) hvalid'
    hdirty'
  have hdata : (y.next i).cache.dataRam y.cache.victimSlot = y.cache.victimData := by
    show (y.cache.dataUpdate 2 (y.l1In i)).dataRam y.cache.victimSlot = _
    rw [hdu]
    rfl
  have htag : (y.next i).cache.tagRam y.cache.victimSlot = y.cache.victimTag := by
    show (y.cache.dataUpdate 2 (y.l1In i)).tagRam y.cache.victimSlot = _
    rw [hdu]
    rfl
  rw [hmem] at heq
  exact hne (hdata.symm.trans (heq.trans (by rw [← htag]; rfl)))

end Clean

/-- While the address is held, the live lookup is the latched one. -/
theorem lookupOk_of_addr_held {i : SysIn} {y : Sys}
    (h : y.cache.state = .compareTag → i.req.addr = y.cache.lat.addr) : y.lookupOk i = true := by
  by_cases hst : y.cache.state = .compareTag
  · simp [lookupOk, hst, h hst]
  · simp [lookupOk, hst]

section Runs

variable {c : L1Cache} {mem : BitVec 28 → BitVec 128} {ins : Nat → SysIn}

/-- Runs whose edges have the right lookup and mark no modified line clean. -/
theorem sysInv_after {n : Nat} (hlook : ∀ k < n, (after c mem ins k).lookupOk (ins k) = true)
    (hloses : ∀ k < n, (after c mem ins k).losesDirtyLine = false) :
    ∃ view, SysInv (after c mem ins n) view :=
  Clocked.run_invariant_of (P := fun y => ∃ view, SysInv y view)
    (C := fun i y => y.lookupOk i = true ∧ y.losesDirtyLine = false) ⟨_, sysInv_init c mem⟩
    (fun _ _ hC ⟨_, h⟩ => ⟨_, h.next hC.1 hC.2⟩) fun k hk => ⟨hlook k hk, hloses k hk⟩

end Runs

/-- **Clean lines.** Take a reset, any contents of the unreset RAMs and of the next
    level, and any run whose requests hold their address during `L1_COMPARE_TAG`.
    All clean lines agree with the next level in its first `n` edges exactly if
    none of them marks a modified line clean. -/
theorem clean_iff_of_addr_held (c : L1Cache) (mem : BitVec 28 → BitVec 128) (ins : Nat → SysIn)
    (n : Nat)
    (hheld : ∀ k < n, (after c mem ins k).cache.state = .compareTag →
      (ins k).req.addr = (after c mem ins k).cache.lat.addr) :
    (∀ k ≤ n, CleanOk (after c mem ins k)) ↔
      ∀ k < n, (after c mem ins k).losesDirtyLine = false := by
  have hlook (k : Nat) (hk : k < n) : (after c mem ins k).lookupOk (ins k) = true :=
    lookupOk_of_addr_held (hheld k hk)
  constructor
  · intro hclean k
    induction k using Nat.strong_induction_on with
    | _ k ih =>
      intro hk
      -- up to here no edge has marked a modified line clean, so the invariant holds
      obtain ⟨view, h⟩ := @sysInv_after c mem ins k (fun j hj => hlook j (by omega))
        fun j hj => ih j hj (by omega)
      by_contra hl
      exact not_cleanOk_next h (hlook k hk) (by simpa using hl) (hclean (k + 1) hk)
  · intro hloses k hk
    obtain ⟨view, h⟩ := @sysInv_after c mem ins k (fun j hj => hlook j (by omega))
      fun j hj => hloses j (by omega)
    exact h.cleanOk

/-- A write to line 0, two reads of another line of the set, a read of a third
    one, and a read of line 0, each offered until it is accepted and its address
    held until it is answered, with a next level that is always ready. -/
def lossIn (k : Nat) : SysIn where
  reqValid := k ∈ [0, 4, 8, 10, 14]
  req :=
    if k < 4 then { addr := 0, wr := true, wdata := 5, wmask := 0xf }
    else if k < 10 then { addr := 0x100, wr := false, wdata := 0, wmask := 0 }
    else if k < 14 then { addr := 0x200, wr := false, wdata := 0, wmask := 0 }
    else { addr := 0, wr := false, wdata := 0, wmask := 0 }
  memReqReady := true
  memWrAck := true
  memRespValid := true
  commit := false
  junk := 0

/-- The write leaves a state whose clean lines agree with the next level. -/
theorem cleanOk_lossIn : CleanOk (after L1Cache.blank (fun _ => 0) lossIn 9) :=
  (clean_iff_of_addr_held L1Cache.blank (fun _ => 0) lossIn 9 (by decide)).mpr (by decide) 9
    (Nat.le_refl 9)

/-- The second read of the other line marks line 0 clean. -/
theorem not_cleanOk_lossIn :
    (∀ k < 10, (after L1Cache.blank (fun _ => 0) lossIn k).cache.state = .compareTag →
      (lossIn k).req.addr = (after L1Cache.blank (fun _ => 0) lossIn k).cache.lat.addr) ∧
    ¬ CleanOk (after L1Cache.blank (fun _ => 0) lossIn 10) := by
  refine ⟨by decide, fun h => ?_⟩
  have h0 := h (by decide) 0 0 (by decide) (by decide) (by decide)
  revert h0
  decide

/-! ## Responses -/

/-- What a cycle accepts and answers. -/
def acceptNow (i : SysIn) (y : Sys) : List L1Req :=
  if (y.out i).reqReady && i.reqValid then [i.req] else []

def respondNow (i : SysIn) (y : Sys) : List (BitVec 32) :=
  if (y.out i).respValid then [(y.out i).respRdata] else []

/-- The requests accepted in the first `n` cycles. -/
def accepted (ins : Nat → SysIn) (y : Sys) (n : Nat) : List L1Req :=
  Clocked.log acceptNow next ins y n

/-- The data of the responses given in the first `n` cycles. -/
def responses (ins : Nat → SysIn) (y : Sys) (n : Nat) : List (BitVec 32) :=
  Clocked.log respondNow next ins y n

/-- The response to a read is the word of the flat memory `m` after the requests before it. -/
def ReadOk (m : FlatMemory.Memory) (hist : List L1Req) (r : L1Req) (v : BitVec 32) : Prop :=
  r.wr = false → v = FlatMemory.read (FlatMemory.run m hist) r.addr

/-- Where a run stands: all accepted requests but the latched one have been
    answered, and the memory represented is that of the performed ones. -/
structure Serving (m : FlatMemory.Memory) (acc : List L1Req) (resp : List (BitVec 32)) (y : Sys) :
    Prop where
  answered : Answers.Answered (ReadOk m) acc resp
  split : ∃ view done, SysInv y view ∧ resp.length = done.length ∧
    acc = (if y.cache.state = .idle then done else done ++ [y.cache.lat]) ∧
    bytes view =
      FlatMemory.run m (if y.cache.state = .readout then done ++ [y.cache.lat] else done)

section Serving

variable {m : FlatMemory.Memory} {acc done : List L1Req} {resp : List (BitVec 32)} {y : Sys}
  {view : BitVec 28 → BitVec 128} {i : SysIn}

/-- The latched request changes at a handshake only. -/
theorem next_lat (i : SysIn) (y : Sys) : (y.next i).cache.lat =
    if (y.out i).reqReady && i.reqValid then i.req else y.cache.lat := by
  show (y.cache.next 2 (y.l1In i)).lat = _
  unfold L1Cache.next
  rfl

/-- A cycle that frees the controller: the requests so far are answered, and the
    next one, if any, is latched. -/
theorem serving_of_ready (hans : Answers.Answered (ReadOk m) acc resp)
    (hlen : resp.length = acc.length) (hinv : SysInv (y.next i) view)
    (hview : bytes view = FlatMemory.run m acc) (hready : (y.out i).reqReady = true)
    (hst : (y.next i).cache.state = if i.reqValid then .compareTag else .idle) :
    Serving m (acc ++ acceptNow i y) resp (y.next i) := by
  refine ⟨hans.accept _, view, acc, hinv, hlen, ?_⟩
  rw [hst, next_lat, acceptNow, hready]
  cases i.reqValid with
  | true => exact ⟨rfl, by simpa using hview⟩
  | false => exact ⟨by simp, by simpa using hview⟩

/-- A cycle in the middle of a miss. -/
theorem serving_of_busy (hans : Answers.Answered (ReadOk m) (done ++ [y.cache.lat]) resp)
    (hlen : resp.length = done.length) (hinv : SysInv (y.next i) view)
    (hready : (y.out i).reqReady = false) (hidle : (y.next i).cache.state ≠ .idle)
    (hview : bytes view = FlatMemory.run m
      (if (y.next i).cache.state = .readout then done ++ [y.cache.lat] else done)) :
    Serving m (done ++ [y.cache.lat]) resp (y.next i) := by
  have hlat : (y.next i).cache.lat = y.cache.lat := by rw [next_lat, hready]; rfl
  exact ⟨hans, view, done, hinv, hlen, by rw [if_neg hidle, hlat], by rw [hlat]; exact hview⟩

/-- The word of a slot that holds the latched line. -/
theorem lineWord_of_line (h : SysInv y view) {s : Slot}
    (hs : y.cache.line s = some y.cache.latLine) :
    L1Cache.lineWord (y.cache.dataRam s) y.cache.latWord =
      FlatMemory.read (bytes view) y.cache.lat.addr := by
  rw [FlatMemory.read_bytes, h.coh.held _ _ hs]
  rfl

/-- A hit answers the latched request and frees the controller. -/
theorem Serving.next_of_hit (hs : Serving m acc resp y) (hst : y.cache.state = .compareTag)
    {w : Nat} (hlat : y.cache.lookup y.cache.lat.addr = some w) (hlook : y.lookupOk i = true)
    (hloses : y.losesDirtyLine = false) :
    Serving m (acc ++ acceptNow i y) (resp ++ respondNow i y) (y.next i) := by
  obtain ⟨view, done, hinv, hlen, hacc, hview⟩ := hs.split
  have hans := hs.answered
  simp only [hst, reduceCtorEq, if_false] at hacc hview
  subst hacc
  have hreq : y.cache.lookup i.req.addr = some w := by
    rw [← hlat]; simpa [lookupOk, hst] using hlook
  have hhit : y.cache.cacheHit 2 i.req.addr = true := by rw [L1Cache.cacheHit_eq, hreq]; rfl
  have hout : y.out i =
      { respValid := true, respHit := true,
        respRdata := L1Cache.lineWord (y.cache.dataRam (y.cache.latIndex, w)) y.cache.latWord,
        reqReady := true } := by
    simp only [out, L1Cache.out, hst, hhit, if_true, L1Cache.hitSlot_of_lookup hreq]
  -- the response has the word of the memory represented
  have hresp : respondNow i y = [FlatMemory.read (bytes view) y.cache.lat.addr] := by
    have hline : y.cache.line (y.cache.latIndex, w) = some y.cache.latLine :=
      L1Cache.line_of_lookup hlat
    simp only [respondNow, hout, if_true]
    rw [lineWord_of_line hinv hline]
  have hview' : bytes (y.nextView i view) = FlatMemory.run m (done ++ [y.cache.lat]) := by
    have hperf : y.performs i = true := by simp [performs, hst, hhit]
    rw [nextView, hperf, if_pos rfl, FlatMemory.bytes_writeLine, hview, FlatMemory.run_concat]
  rw [hresp]
  exact serving_of_ready (hans.respond hlen fun _ => by rw [hview]) (by simp [hlen])
    (hinv.next hlook hloses) hview' (by rw [hout]) (next_state_of_hit hst hhit)

/-- `L1_READOUT` answers the latched request and frees the controller. -/
theorem Serving.next_of_readout (hs : Serving m acc resp y) (hst : y.cache.state = .readout)
    (hlook : y.lookupOk i = true) (hloses : y.losesDirtyLine = false) :
    Serving m (acc ++ acceptNow i y) (resp ++ respondNow i y) (y.next i) := by
  obtain ⟨view, done, hinv, hlen, hacc, hview⟩ := hs.split
  have hans := hs.answered
  simp only [hst, reduceCtorEq, if_false, if_true] at hacc hview
  subst hacc
  have hline : y.cache.line y.cache.fillSlot = some y.cache.latLine := by
    cases hinv.ctl with
    | readout _ _ hl => exact hl
    | idle h' | compare h' | writeback h' | wait h' | fill h' | fillWait h' =>
      rw [hst] at h'; cases h'
  have hready : (y.out i).reqReady = true := by rw [out, L1Cache.out_of_readout hst]
  have hresp : respondNow i y = [FlatMemory.read (bytes view) y.cache.lat.addr] := by
    simp only [respondNow, out, L1Cache.out, hst, if_true]
    rw [lineWord_of_line hinv hline]
  have hview' : y.nextView i view = view :=
    nextView_of_ne (by rw [hst]; decide) (by rw [hst]; decide)
  rw [hresp]
  refine serving_of_ready (hans.respond hlen fun hwr => ?_) (by simp [hlen])
    (hinv.next hlook hloses) (by rw [hview', hview]) hready (next_state_of_ready (.inr hst))
  -- the latched read has changed nothing
  rw [hview, FlatMemory.run_concat, FlatMemory.apply_read _ hwr]

/-- Without a request in service, nothing is answered. -/
theorem Serving.next_of_idle (hs : Serving m acc resp y) (hst : y.cache.state = .idle)
    (hlook : y.lookupOk i = true) (hloses : y.losesDirtyLine = false) :
    Serving m (acc ++ acceptNow i y) (resp ++ respondNow i y) (y.next i) := by
  obtain ⟨view, done, hinv, hlen, hacc, hview⟩ := hs.split
  have hans := hs.answered
  simp only [hst, reduceCtorEq, if_false, if_true] at hacc hview
  subst hacc
  have hout : y.out i = { reqReady := true } := L1Cache.out_of_idle hst
  have hresp : respondNow i y = [] := by simp [respondNow, hout]
  have hview' : y.nextView i view = view :=
    nextView_of_ne (by rw [hst]; decide) (by rw [hst]; decide)
  rw [hresp, List.append_nil]
  exact serving_of_ready hans hlen (hinv.next hlook hloses) (by rw [hview', hview])
    (by rw [hout]) (next_state_of_ready (.inl hst))

/-- The states of a miss before the line is there: nothing is accepted or
    answered, and the request is performed on the way to `L1_READOUT`. -/
theorem Serving.next_of_busy (hs : Serving m acc resp y)
    (hst : y.cache.state ≠ .idle ∧ y.cache.state ≠ .readout)
    (hmiss : y.cache.state = .compareTag → y.cache.lookup y.cache.lat.addr = none)
    (hlook : y.lookupOk i = true) (hloses : y.losesDirtyLine = false) :
    Serving m (acc ++ acceptNow i y) (resp ++ respondNow i y) (y.next i) := by
  obtain ⟨view, done, hinv, hlen, hacc, hview⟩ := hs.split
  have hans := hs.answered
  simp only [hst.1, hst.2, if_false] at hacc hview
  subst hacc
  have hhit (h : y.cache.state = .compareTag) : y.cache.cacheHit 2 i.req.addr = false := by
    have heq : y.cache.lookup i.req.addr = none := by
      rw [← hmiss h]; simpa [lookupOk, h] using hlook
    rw [L1Cache.cacheHit_eq, heq]
    rfl
  have hquiet : (y.out i).reqReady = false ∧ (y.out i).respValid = false := by
    cases hstate : y.cache.state with
    | idle => exact absurd hstate hst.1
    | readout => exact absurd hstate hst.2
    | compareTag =>
      rw [out, L1Cache.out_of_miss hstate (hhit hstate)]
      exact ⟨rfl, rfl⟩
    | writeback | writebackWait | fill | fillWait =>
      exact L1Cache.quiet_of_inMiss (by simp [L1Cache.inMiss, hstate])
  have hnext : (y.next i).cache.state ≠ .idle ∧
      ((y.next i).cache.state = .readout ↔ y.performs i = true) := by
    have hfsm : (y.next i).cache.state = y.cache.fsm 2 (y.l1In i) := rfl
    rw [hfsm, L1Cache.fsm, performs]
    cases hstate : y.cache.state with
    | idle => exact absurd hstate hst.1
    | readout => exact absurd hstate hst.2
    | compareTag => cases hd : y.cache.victimDirty <;> simp [l1In, hhit hstate]
    | writeback => cases hr : i.memReqReady <;> simp [l1In, hr]
    | writebackWait => cases hr : i.memWrAck <;> simp [l1In, hr]
    | fill => cases hr : i.memReqReady <;> simp [l1In, hr]
    | fillWait => cases hr : i.memRespValid <;> simp [l1In, hr]
  have haccept : acceptNow i y = [] := by simp [acceptNow, hquiet.1]
  have hrespond : respondNow i y = [] := by simp [respondNow, hquiet.2]
  rw [haccept, hrespond, List.append_nil, List.append_nil]
  refine serving_of_busy hans hlen (hinv.next hlook hloses) hquiet.1 hnext.1 ?_
  -- the request is performed in the cycle its fill data arrives
  cases hp : y.performs i with
  | true =>
    rw [if_pos (hnext.2.mpr hp), nextView, hp, if_pos rfl, FlatMemory.bytes_writeLine, hview,
      FlatMemory.run_concat]
  | false =>
    have hne : (y.next i).cache.state ≠ .readout := fun h => by
      rw [hnext.2.mp h] at hp; cases hp
    rw [if_neg hne, nextView, hp]
    exact hview

/-- **One edge.** -/
theorem Serving.next (hs : Serving m acc resp y) (hlook : y.lookupOk i = true)
    (hloses : y.losesDirtyLine = false) :
    Serving m (acc ++ acceptNow i y) (resp ++ respondNow i y) (y.next i) := by
  by_cases hidle : y.cache.state = .idle
  · exact hs.next_of_idle hidle hlook hloses
  by_cases hread : y.cache.state = .readout
  · exact hs.next_of_readout hread hlook hloses
  by_cases hcmp : y.cache.state = .compareTag
  · cases hlat : y.cache.lookup y.cache.lat.addr with
    | some w => exact hs.next_of_hit hcmp hlat hlook hloses
    | none => exact hs.next_of_busy ⟨hidle, hread⟩ (fun _ => hlat) hlook hloses
  · exact hs.next_of_busy ⟨hidle, hread⟩ (fun h => absurd h hcmp) hlook hloses

end Serving

/-- **Responses.** Take a reset, any contents of the unreset RAMs and of the next
    level, any requests and any timing. If in every `L1_COMPARE_TAG` cycle the live
    address has the lookup of the latched one, and no read hit marks a modified
    line clean, then responses and accepted requests correspond one to one and every
    read is answered with the word of the flat memory after the requests accepted
    before it. -/
theorem answered_of_lookupOk (c : L1Cache) (mem : BitVec 28 → BitVec 128) (ins : Nat → SysIn)
    (n : Nat) (hlook : ∀ k < n, (after c mem ins k).lookupOk (ins k) = true)
    (hloses : ∀ k < n, (after c mem ins k).losesDirtyLine = false) :
    Answers.Answered (ReadOk (bytes mem)) (accepted ins (init c mem) n)
      (responses ins (init c mem) n) := by
  have hserving : Serving (bytes mem) (accepted ins (init c mem) n) (responses ins (init c mem) n)
      (after c mem ins n) := by
    induction n with
    | zero =>
      have h0 : Answers.Answered (ReadOk (bytes mem)) [] [] := Answers.answered_nil
      exact ⟨h0, mem, [], sysInv_init c mem, rfl, rfl, rfl⟩
    | succ n ih =>
      exact (ih (fun k hk => hlook k (by omega)) fun k hk => hloses k (by omega)).next
        (hlook n (by omega)) (hloses n (by omega))
  exact hserving.answered

/-- In nine cycles of `lossIn` three requests are accepted and two are answered, as they should
    be. -/
theorem answered_lossIn : Answers.Answered (ReadOk (bytes fun _ => 0))
    (accepted lossIn (init L1Cache.blank fun _ => 0) 9)
    (responses lossIn (init L1Cache.blank fun _ => 0) 9) :=
  answered_of_lookupOk L1Cache.blank (fun _ => 0) lossIn 9 (by decide) (by decide)

/-- The last one reads 0 where 5 was written. -/
theorem not_answered_lossIn : ¬ Answers.Answered (ReadOk (bytes fun _ => 0))
    (accepted lossIn (init L1Cache.blank fun _ => 0) 19)
    (responses lossIn (init L1Cache.blank fun _ => 0) 19) := by
  intro h
  have h4 := h.2 4 { addr := 0, wr := false, wdata := 0, wmask := 0 } 0
    (by decide +kernel) (by decide +kernel) rfl
  revert h4
  decide +kernel

end URiscV.Hdl.Sys
