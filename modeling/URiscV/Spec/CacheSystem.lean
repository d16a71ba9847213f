import URiscV.Spec.CacheEdge
import URiscV.Spec.CacheLookup
import URiscV.Spec.FlatMemory
import URiscV.ForStd.WriteBack

/-!
# The cache and its next level

`l1_cache` connected to a memory of lines that accepts, commits, acknowledges
and answers whenever it likes. The RAMs of the cache are a write-back cache in
the sense of `WriteBack`: `SysInv` says which memory cache and next level
represent together, with what the controller owes in each of its states.

Two things can break it. A lookup of the live address that differs from that of
the latched one (`lookupOk`), and a read hit that clears the dirty bit of the
victim way of its set although that way holds modified data (`losesDirtyLine`).

## Key results

- `SysInv.next`: one clock edge performs at most the latched request
-/

namespace URiscV.Hdl

open FlatMemory (lineOf writeLine tag_append_index append_eq_lineOf)

/-! ## Next level -/

/-- The next level: its lines, the write it has accepted and not yet committed,
    and the line whose data it owes. -/
structure NextLevel where
  mem : BitVec 28 → BitVec 128
  pending : Option (BitVec 28 × BitVec 128)
  fillLine : Option (BitVec 28)

/-- The inputs of a cycle: the CPU's request, the handshake of the next level,
    and what it does in between. `commit` commits an accepted write ahead of its
    acknowledgement; `junk` is on the data lines when no data is owed. -/
structure SysIn where
  reqValid : Bool
  req : L1Req
  memReqReady : Bool
  memWrAck : Bool
  memRespValid : Bool
  commit : Bool
  junk : BitVec 128

namespace NextLevel

/-- The data lines. -/
def respRdata (junk : BitVec 128) (m : NextLevel) : BitVec 128 :=
  match m.fillLine with
  | some l => m.mem l
  | none => junk

/-- The next level at a clock edge: it accepts what the cache requests when it is
    ready, and has committed a write when it acknowledges it. -/
def clk (o : L1Out) (i : SysIn) (m : NextLevel) : NextLevel where
  mem :=
    match m.pending with
    | some (l, d) => if i.commit || i.memWrAck then Function.update m.mem l d else m.mem
    | none => m.mem
  pending :=
    if o.memReqValid && i.memReqReady && o.memReqWr then some (lineOf o.memReqAddr, o.memReqWdata)
    else if i.commit || i.memWrAck then none
    else m.pending
  fillLine :=
    if o.memReqValid && i.memReqReady && !o.memReqWr then some (lineOf o.memReqAddr)
    else if i.memRespValid then none
    else m.fillLine

section Clk

variable {o : L1Out} {i : SysIn} {m : NextLevel}

/-- Without a pending write the next level keeps its lines. -/
theorem clk_mem_of_pending_none (h : m.pending = none) : (m.clk o i).mem = m.mem := by
  simp [clk, h]

/-- And without a new one nothing gets pending. -/
theorem clk_pending_of_no_write (h : m.pending = none)
    (ho : (o.memReqValid && i.memReqReady && o.memReqWr) = false) :
    (m.clk o i).pending = none := by
  simp [clk, h, ho]

end Clk

end NextLevel

/-- The cache and its next level. -/
structure Sys where
  cache : L1Cache
  nextLevel : NextLevel

namespace Sys

/-- The inputs of the cache. -/
def l1In (i : SysIn) (y : Sys) : L1In where
  reqValid := i.reqValid
  req := i.req
  memReqReady := i.memReqReady
  memWrAck := i.memWrAck
  memRespValid := i.memRespValid
  memRespRdata := y.nextLevel.respRdata i.junk

/-- The outputs of the cache. -/
def out (i : SysIn) (y : Sys) : L1Out := y.cache.out 2 i.req.addr

/-- A clock edge with `rst_n` high. -/
def next (i : SysIn) (y : Sys) : Sys where
  cache := y.cache.next 2 (y.l1In i)
  nextLevel := y.nextLevel.clk (y.out i) i

/-- The system out of reset, for any contents of the unreset RAMs. -/
def init (c : L1Cache) (mem : BitVec 28 → BitVec 128) : Sys where
  cache := c.asyncReset
  nextLevel := { mem := mem, pending := none, fillLine := none }

end Sys

/-! ## Lines of slots -/

namespace L1Cache

/-- The line a slot holds, if it is valid. -/
def line (c : L1Cache) : Slot → Option (BitVec 28) := fun s =>
  if c.validRam s then some (c.tagRam s ++ s.1) else none

/-- The line of the latched request. -/
def latLine (c : L1Cache) : BitVec 28 := lineOf c.lat.addr

section Line

variable {c : L1Cache}

/-- The line of a slot is that of a valid tag. -/
theorem line_eq_some {s : Slot} {l : BitVec 28} :
    c.line s = some l ↔ c.validRam s = true ∧ c.tagRam s ++ s.1 = l := by
  unfold line
  split
  · next h => simp [h]
  · next h => simp [h]

/-- A way hits when it holds the line of the address. -/
theorem hitWay_iff {addr : BitVec 32} {w : Nat} :
    c.hitWay addr w = true ↔ c.line (index addr, w) = some (lineOf addr) := by
  simp [hitWay, line_eq_some, append_eq_lineOf]

/-- A miss: no slot holds the line of the address. -/
theorem line_ne_of_lookup_none (hways : ∀ s, c.validRam s = true → s.2 < 2) {addr : BitVec 32}
    (h : c.lookup addr = none) (s : Slot) : c.line s ≠ some (lineOf addr) := by
  intro hs
  obtain ⟨hv, ht⟩ := line_eq_some.mp hs
  obtain ⟨-, hi⟩ := append_eq_lineOf.mp ht
  have hslot : s = (index addr, s.2) := by rw [← hi]
  rw [hslot, ← hitWay_iff, hitWay_of_lookup_none h (hways s hv)] at hs
  cases hs

/-- The way found holds it. -/
theorem line_of_lookup {addr : BitVec 32} {w : Nat} (h : c.lookup addr = some w) :
    c.line (index addr, w) = some (lineOf addr) :=
  hitWay_iff.mp (hitWay_of_lookup h)

/-- The victim slot is the one that will be filled once its way is latched. -/
theorem fillSlot_eq_victimSlot (h : c.latVictimWay = c.victimWay) : c.fillSlot = c.victimSlot := by
  rw [fillSlot, victimSlot, h]

end Line

/-! ## Clock edges of the data block -/

section Edge

variable {i : L1In} {c : L1Cache}

/-- The line of each slot after the fill. -/
theorem line_fillUpdate :
    (c.fillUpdate i).line = Function.update c.line c.fillSlot (some c.latLine) := by
  funext s
  by_cases hs : s = c.fillSlot
  · subst hs
    rw [Function.update_self, latLine, ← tag_append_index]
    simp only [line, fillUpdate, Function.update_self, if_true]
    rfl
  · simp [line, fillUpdate, Function.update_of_ne hs]

end Edge

end L1Cache

/-! ## What the system represents -/

namespace Sys

/-- The live address has the lookup of the latched one. -/
def lookupOk (i : SysIn) (y : Sys) : Bool :=
  y.cache.state != .compareTag || y.cache.lookup i.req.addr == y.cache.lookup y.cache.lat.addr

/-- The latched request is a read hit, and the victim way of its set holds data
    that the next level does not have. -/
def losesDirtyLine (y : Sys) : Bool :=
  y.cache.state == .compareTag && (y.cache.lookup y.cache.lat.addr).isSome && !y.cache.lat.wr &&
    y.cache.victimDirty &&
    y.cache.victimData != y.nextLevel.mem (y.cache.victimTag ++ y.cache.latIndex)

/-- The latched request is performed in this cycle. -/
def performs (i : SysIn) (y : Sys) : Bool :=
  match y.cache.state with
  | .compareTag => y.cache.cacheHit 2 i.req.addr
  | .fillWait => i.memRespValid
  | _ => false

/-- The memory represented after the cycle. -/
def nextView (i : SysIn) (y : Sys) (view : BitVec 28 → BitVec 128) : BitVec 28 → BitVec 128 :=
  if y.performs i then writeLine view y.cache.lat else view

/-- What the controller owes in each state: no outstanding write outside of
    `L1_WRITEBACK_WAIT`; from the miss to the fill, no slot holds the latched line
    and the victim is the slot that will be filled; and from `L1_FILL` on, the
    next level has what the victim holds. -/
inductive Ctl (y : Sys) (view : BitVec 28 → BitVec 128) : Prop
  | idle (hst : y.cache.state = .idle) (hp : y.nextLevel.pending = none)
  | compare (hst : y.cache.state = .compareTag) (hp : y.nextLevel.pending = none)
  | writeback (hst : y.cache.state = .writeback) (hp : y.nextLevel.pending = none)
      (hmiss : ∀ s, y.cache.line s ≠ some y.cache.latLine)
      (hv : y.cache.latVictimWay = y.cache.victimWay)
      (hl : y.cache.line y.cache.victimSlot = some (y.cache.victimTag ++ y.cache.latIndex))
  | wait (hst : y.cache.state = .writebackWait)
      (hmiss : ∀ s, y.cache.line s ≠ some y.cache.latLine)
      (hv : y.cache.latVictimWay = y.cache.victimWay) (l : BitVec 28)
      (hl : y.cache.line y.cache.victimSlot = some l)
      (hp : y.nextLevel.pending = some (l, y.cache.victimData) ∨
        y.nextLevel.pending = none ∧ y.nextLevel.mem l = view l)
  | fill (hst : y.cache.state = .fill) (hp : y.nextLevel.pending = none)
      (hmiss : ∀ s, y.cache.line s ≠ some y.cache.latLine)
      (hold : ∀ l, y.cache.line y.cache.fillSlot = some l → y.nextLevel.mem l = view l)
  | fillWait (hst : y.cache.state = .fillWait) (hp : y.nextLevel.pending = none)
      (hmiss : ∀ s, y.cache.line s ≠ some y.cache.latLine)
      (hold : ∀ l, y.cache.line y.cache.fillSlot = some l → y.nextLevel.mem l = view l)
      (hf : y.nextLevel.fillLine = some y.cache.latLine)
  | readout (hst : y.cache.state = .readout) (hp : y.nextLevel.pending = none)
      (hl : y.cache.line y.cache.fillSlot = some y.cache.latLine)

/-- Cache and next level represent `view`. -/
structure SysInv (y : Sys) (view : BitVec 28 → BitVec 128) : Prop where
  coh : WriteBack.Coherent y.cache.line y.cache.dataRam y.cache.dirtyRam y.nextLevel.mem view
  ways : ∀ s, y.cache.validRam s = true → s.2 < 2
  ctl : Ctl y view

/-- At the start the memory represented is that of the next level. -/
theorem sysInv_init (c : L1Cache) (mem : BitVec 28 → BitVec 128) : SysInv (init c mem) mem where
  coh := WriteBack.Coherent.empty _ _ _
  ways := fun _ h => by cases h
  ctl := .idle rfl rfl

section Step

variable {y : Sys} {view : BitVec 28 → BitVec 128} {i : SysIn}

/-- While no write is outstanding or requested, the next level keeps its lines. -/
theorem nextLevel_of_no_write (hp : y.nextLevel.pending = none)
    (ho : ((y.out i).memReqValid && i.memReqReady && (y.out i).memReqWr) = false) :
    (y.next i).nextLevel.pending = none ∧ (y.next i).nextLevel.mem = y.nextLevel.mem :=
  ⟨NextLevel.clk_pending_of_no_write hp ho, NextLevel.clk_mem_of_pending_none hp⟩

/-- In the states that neither hit nor fill, an edge changes only the state and
    the latched request of the cache. -/
theorem next_of_ne (h1 : y.cache.state ≠ .compareTag) (h2 : y.cache.state ≠ .fillWait) :
    (y.next i).cache = { y.cache with
      state := y.cache.fsm 2 (y.l1In i)
      lat := if (y.out i).reqReady && i.reqValid then i.req else y.cache.lat } := by
  simp only [next, L1Cache.next, L1Cache.dataUpdate_of_ne h1 h2]
  rfl

/-- Where the controller is free it neither hits nor fills, and leaves the next level
    alone. -/
theorem quiet_of_ready (hst : y.cache.state = .idle ∨ y.cache.state = .readout) :
    y.cache.state ≠ .compareTag ∧ y.cache.state ≠ .fillWait ∧ (y.out i).memReqValid = false := by
  rcases hst with h | h
  · rw [h, out, L1Cache.out_of_idle h]
    simp
  · rw [h, out, L1Cache.out_of_readout h]
    simp

/-- There the next request, if any, is compared next. -/
theorem next_state_of_ready (hst : y.cache.state = .idle ∨ y.cache.state = .readout) :
    (y.next i).cache.state = if i.reqValid then .compareTag else .idle := by
  show y.cache.fsm 2 (y.l1In i) = _
  rw [L1Cache.fsm]
  rcases hst with h | h
  · rw [h]; rfl
  · rw [h]; rfl

/-- A hit frees the controller in the same way. -/
theorem next_state_of_hit (hst : y.cache.state = .compareTag)
    (hhit : y.cache.cacheHit 2 i.req.addr = true) :
    (y.next i).cache.state = if i.reqValid then .compareTag else .idle := by
  show y.cache.fsm 2 (y.l1In i) = _
  simp only [L1Cache.fsm, hst, l1In, hhit, if_true]
  rfl

/-- In `L1_WRITEBACK` the next level takes the line of the victim. -/
theorem pending_next_of_writeback (hst : y.cache.state = .writeback)
    (hr : i.memReqReady = true) : (y.next i).nextLevel.pending =
      some (y.cache.victimTag ++ y.cache.latIndex, y.cache.victimData) := by
  have hout : y.out i = _ := L1Cache.out_of_writeback hst
  have hline : lineOf (y.cache.victimTag ++ y.cache.latIndex ++ 0#4) =
      y.cache.victimTag ++ y.cache.latIndex := BitVec.extractLsb'_append_eq_left
  simp only [next, NextLevel.clk, hout, hr, hline]
  rfl

/-- In `L1_FILL` the next level is asked for the latched line. -/
theorem fillLine_next_of_fill (hst : y.cache.state = .fill) (hr : i.memReqReady = true) :
    (y.next i).nextLevel.fillLine = some y.cache.latLine := by
  have hout : y.out i = _ := L1Cache.out_of_fill hst
  have hline : lineOf y.cache.latLineAddr = y.cache.latLine := BitVec.extractLsb'_append_eq_left
  simp only [next, NextLevel.clk, hout, hr, hline]
  rfl

/-- Outside two states nothing is written. -/
theorem nextView_of_ne (h1 : y.cache.state ≠ .compareTag) (h2 : y.cache.state ≠ .fillWait) :
    y.nextView i view = view := by
  have hp : y.performs i = false := by
    unfold performs
    split
    · next h => exact absurd h h1
    · next h => exact absurd h h2
    · rfl
  simp [nextView, hp]

/-- Such an edge represents the same memory, if the next level does. -/
theorem sysInv_of_ne (h : SysInv y view) (h1 : y.cache.state ≠ .compareTag)
    (h2 : y.cache.state ≠ .fillWait)
    (hcoh : WriteBack.Coherent y.cache.line y.cache.dataRam y.cache.dirtyRam
      (y.next i).nextLevel.mem view)
    (hctl : Ctl (y.next i) view) : SysInv (y.next i) (y.nextView i view) := by
  rw [nextView_of_ne h1 h2]
  refine ⟨?_, ?_, hctl⟩
  · rw [next_of_ne h1 h2]; exact hcoh
  · rw [next_of_ne h1 h2]; exact h.ways

/-- `L1_IDLE` and `L1_READOUT`: the next request, if any, is latched. -/
theorem SysInv.next_of_ready (h : SysInv y view)
    (hst : y.cache.state = .idle ∨ y.cache.state = .readout)
    (hp : y.nextLevel.pending = none) : SysInv (y.next i) (y.nextView i view) := by
  obtain ⟨h1, h2, hvalid⟩ := @quiet_of_ready y i hst
  obtain ⟨hp', hmem⟩ := @nextLevel_of_no_write y i hp (by simp [hvalid])
  refine sysInv_of_ne h h1 h2 (by rw [hmem]; exact h.coh) ?_
  have hstate := @next_state_of_ready y i hst
  cases hv : i.reqValid with
  | true =>
    rw [hv] at hstate
    exact .compare hstate hp'
  | false =>
    rw [hv] at hstate
    exact .idle hstate hp'

/-- `L1_WRITEBACK`: the victim is offered to the next level. -/
theorem SysInv.next_of_writeback (h : SysInv y view) (hst : y.cache.state = .writeback)
    (hp : y.nextLevel.pending = none) (hmiss : ∀ s, y.cache.line s ≠ some y.cache.latLine)
    (hv : y.cache.latVictimWay = y.cache.victimWay)
    (hl : y.cache.line y.cache.victimSlot = some (y.cache.victimTag ++ y.cache.latIndex)) :
    SysInv (y.next i) (y.nextView i view) := by
  have h1 : y.cache.state ≠ .compareTag := by rw [hst]; decide
  have h2 : y.cache.state ≠ .fillWait := by rw [hst]; decide
  have hout : y.out i =
      { memReqValid := true
        memReqWr := true
        memReqAddr := y.cache.victimTag ++ y.cache.latIndex ++ 0#4
        memReqWdata := y.cache.victimData } := L1Cache.out_of_writeback hst
  have hc : (y.next i).cache = { y.cache with
      state := if i.memReqReady then .writebackWait else .writeback } := by
    rw [next_of_ne h1 h2, hout, L1Cache.fsm, hst]
    rfl
  have hmem : (y.next i).nextLevel.mem = y.nextLevel.mem := NextLevel.clk_mem_of_pending_none hp
  refine sysInv_of_ne h h1 h2 (by rw [hmem]; exact h.coh) ?_
  cases hr : i.memReqReady with
  | true =>
    rw [hr] at hc
    -- accepted: the next level owes this write
    refine .wait (by rw [hc]; rfl) (by rw [hc]; exact hmiss) (by rw [hc]; exact hv)
      (y.cache.victimTag ++ y.cache.latIndex) (by rw [hc]; exact hl) (.inl ?_)
    rw [hc]
    exact pending_next_of_writeback hst hr
  | false =>
    rw [hr] at hc
    refine .writeback (by rw [hc]; rfl) ?_ (by rw [hc]; exact hmiss) (by rw [hc]; exact hv)
      (by rw [hc]; exact hl)
    exact NextLevel.clk_pending_of_no_write hp (by simp [hr])

/-- `L1_WRITEBACK_WAIT`: the next level commits the victim and acknowledges. -/
theorem SysInv.next_of_wait (h : SysInv y view) (hst : y.cache.state = .writebackWait)
    (hmiss : ∀ s, y.cache.line s ≠ some y.cache.latLine)
    (hv : y.cache.latVictimWay = y.cache.victimWay) {l : BitVec 28}
    (hl : y.cache.line y.cache.victimSlot = some l)
    (hp : y.nextLevel.pending = some (l, y.cache.victimData) ∨
      y.nextLevel.pending = none ∧ y.nextLevel.mem l = view l) :
    SysInv (y.next i) (y.nextView i view) := by
  have h1 : y.cache.state ≠ .compareTag := by rw [hst]; decide
  have h2 : y.cache.state ≠ .fillWait := by rw [hst]; decide
  have hout : y.out i = {} := L1Cache.out_of_writebackWait hst
  have hc : (y.next i).cache = { y.cache with
      state := if i.memWrAck then .fill else .writebackWait } := by
    rw [next_of_ne h1 h2, hout, L1Cache.fsm, hst]
    rfl
  -- either the write has been committed by now, or it is still pending and nothing changed
  have hdone : ((y.next i).nextLevel.pending = none ∧ (y.next i).nextLevel.mem l = view l ∧
        WriteBack.Coherent y.cache.line y.cache.dataRam y.cache.dirtyRam
          (y.next i).nextLevel.mem view) ∨
      (i.memWrAck = false ∧ (y.next i).nextLevel.pending = some (l, y.cache.victimData) ∧
        (y.next i).nextLevel.mem = y.nextLevel.mem) := by
    rcases hp with hp | ⟨hp, hmem⟩
    · cases hca : i.commit || i.memWrAck with
      | true =>
        have hmem' : (y.next i).nextLevel.mem =
            Function.update y.nextLevel.mem l y.cache.victimData := by
          simp [next, NextLevel.clk, hp, hca]
        refine .inl ⟨by simp [next, NextLevel.clk, hout, hca], ?_, ?_⟩
        · rw [hmem', Function.update_self]
          exact h.coh.held _ _ hl
        · rw [hmem']
          exact h.coh.writeback hl
      | false =>
        refine .inr ⟨?_, by simp [next, NextLevel.clk, hout, hca, hp],
          by simp [next, NextLevel.clk, hp, hca]⟩
        simp only [Bool.or_eq_false_iff] at hca
        exact hca.2
    · have hmem' : (y.next i).nextLevel.mem = y.nextLevel.mem :=
        NextLevel.clk_mem_of_pending_none hp
      exact .inl ⟨NextLevel.clk_pending_of_no_write hp (by simp [hout]), by rw [hmem', hmem],
        by rw [hmem']; exact h.coh⟩
  rcases hdone with ⟨hp', hm', hcoh⟩ | ⟨ha, hp', hm'⟩
  · refine sysInv_of_ne h h1 h2 hcoh ?_
    cases ha : i.memWrAck with
    | true =>
      rw [ha] at hc
      -- the slot that will be filled is the victim that was written back
      refine .fill (by rw [hc]; rfl) hp' (by rw [hc]; exact hmiss) ?_
      rw [hc]
      intro l' hl'
      have hl'' : y.cache.line y.cache.victimSlot = some l' := by
        rw [← L1Cache.fillSlot_eq_victimSlot hv]; exact hl'
      obtain rfl : l = l' := by rw [hl] at hl''; exact Option.some.inj hl''
      exact hm'
    | false =>
      rw [ha] at hc
      exact .wait (by rw [hc]; rfl) (by rw [hc]; exact hmiss) (by rw [hc]; exact hv) l
        (by rw [hc]; exact hl) (.inr ⟨hp', hm'⟩)
  · rw [ha] at hc
    refine sysInv_of_ne h h1 h2 (by rw [hm']; exact h.coh) ?_
    exact .wait (by rw [hc]; rfl) (by rw [hc]; exact hmiss) (by rw [hc]; exact hv) l
      (by rw [hc]; exact hl) (.inl (by rw [hp', hc]; rfl))

/-- `L1_FILL`: the latched line is requested. -/
theorem SysInv.next_of_fill (h : SysInv y view) (hst : y.cache.state = .fill)
    (hp : y.nextLevel.pending = none) (hmiss : ∀ s, y.cache.line s ≠ some y.cache.latLine)
    (hold : ∀ l, y.cache.line y.cache.fillSlot = some l → y.nextLevel.mem l = view l) :
    SysInv (y.next i) (y.nextView i view) := by
  have h1 : y.cache.state ≠ .compareTag := by rw [hst]; decide
  have h2 : y.cache.state ≠ .fillWait := by rw [hst]; decide
  have hout : y.out i =
      { memReqValid := true, memReqWr := false, memReqAddr := y.cache.latLineAddr } :=
    L1Cache.out_of_fill hst
  have hc : (y.next i).cache = { y.cache with
      state := if i.memReqReady then .fillWait else .fill } := by
    rw [next_of_ne h1 h2, hout, L1Cache.fsm, hst]
    rfl
  obtain ⟨hp', hmem⟩ := @nextLevel_of_no_write y i hp (by simp [hout])
  refine sysInv_of_ne h h1 h2 (by rw [hmem]; exact h.coh) ?_
  -- accepted, or offered again
  cases hr : i.memReqReady with
  | true =>
    rw [hr] at hc
    refine .fillWait (by rw [hc]; rfl) hp' (by rw [hc]; exact hmiss)
      (by rw [hc, hmem]; exact hold) ?_
    rw [hc]
    exact fillLine_next_of_fill hst hr
  | false =>
    rw [hr] at hc
    exact .fill (by rw [hc]; rfl) hp' (by rw [hc]; exact hmiss) (by rw [hc, hmem]; exact hold)

/-- An edge that performs the latched request, in terms of the data block. -/
theorem sysInv_of_dataUpdate {c' : L1Cache} {view' : BitVec 28 → BitVec 128}
    (hdu : y.cache.dataUpdate 2 (y.l1In i) = c')
    (hmem : (y.next i).nextLevel.mem = y.nextLevel.mem)
    (hcoh : WriteBack.Coherent c'.line c'.dataRam c'.dirtyRam y.nextLevel.mem view')
    (hways : ∀ s, c'.validRam s = true → s.2 < 2) (hctl : Ctl (y.next i) view') :
    SysInv (y.next i) view' := by
  refine ⟨?_, ?_, hctl⟩
  · show WriteBack.Coherent (y.cache.dataUpdate 2 (y.l1In i)).line
      (y.cache.dataUpdate 2 (y.l1In i)).dataRam (y.cache.dataUpdate 2 (y.l1In i)).dirtyRam
      (y.next i).nextLevel.mem view'
    rw [hdu, hmem]
    exact hcoh
  · show ∀ s, (y.cache.dataUpdate 2 (y.l1In i)).validRam s = true → s.2 < 2
    rw [hdu]
    exact hways

/-- The line of the victim is known to the next level, or modified data is at
    stake. -/
theorem mem_victim_of_not_loses (h : SysInv y view) (hst : y.cache.state = .compareTag)
    (hhit : (y.cache.lookup y.cache.lat.addr).isSome = true) (hwr : y.cache.lat.wr = false)
    (hloses : y.losesDirtyLine = false) {l : BitVec 28}
    (hl : y.cache.line y.cache.victimSlot = some l) : y.nextLevel.mem l = view l := by
  obtain ⟨hvalid, htag⟩ := L1Cache.line_eq_some.mp hl
  cases hd : y.cache.dirtyRam y.cache.victimSlot with
  | false => exact h.coh.clean _ _ hl hd
  | true =>
    have hdirty : y.cache.victimDirty = true := by rw [L1Cache.victimDirty, hvalid, hd]; rfl
    have heq : y.cache.victimData = y.nextLevel.mem (y.cache.victimTag ++ y.cache.latIndex) := by
      simpa [losesDirtyLine, hst, hhit, hwr, hdirty] using hloses
    have hheld : y.cache.victimData = view l := h.coh.held _ _ hl
    have hline : y.cache.victimTag ++ y.cache.latIndex = l := htag
    rw [← hheld, heq, hline]

/-- `L1_COMPARE_TAG`, hit: the latched request is performed. -/
theorem SysInv.next_of_hit (h : SysInv y view) (hst : y.cache.state = .compareTag)
    (hp : y.nextLevel.pending = none) {w : Nat} (hlat : y.cache.lookup y.cache.lat.addr = some w)
    (hlook : y.lookupOk i = true) (hloses : y.losesDirtyLine = false) :
    SysInv (y.next i) (y.nextView i view) := by
  have hreq : y.cache.lookup i.req.addr = some w := by
    rw [← hlat]; simpa [lookupOk, hst] using hlook
  have hhit : y.cache.cacheHit 2 i.req.addr = true := by rw [L1Cache.cacheHit_eq, hreq]; rfl
  have hslot : y.cache.hitSlot 2 i.req.addr = (y.cache.latIndex, w) :=
    L1Cache.hitSlot_of_lookup hreq
  have hline : y.cache.line (y.cache.latIndex, w) = some y.cache.latLine :=
    L1Cache.line_of_lookup hlat
  have hvalid : (y.out i).memReqValid = false := by rw [out, L1Cache.out_of_hit hst hhit]
  obtain ⟨hp', hmem⟩ := @nextLevel_of_no_write y i hp (by simp [hvalid])
  have hctl (view' : BitVec 28 → BitVec 128) : Ctl (y.next i) view' := by
    have hstate := next_state_of_hit hst hhit
    cases hv : i.reqValid with
    | true =>
      rw [hv] at hstate
      exact .compare hstate hp'
    | false =>
      rw [hv] at hstate
      exact .idle hstate hp'
  have hdu : y.cache.dataUpdate 2 (y.l1In i) = y.cache.compareUpdate 2 (y.l1In i) := by
    simp [L1Cache.dataUpdate, hst]
  have hview : y.nextView i view = writeLine view y.cache.lat := by
    simp [nextView, performs, hst, hhit]
  rw [hview]
  cases hwr : y.cache.lat.wr with
  | true =>
    -- a write hit: `line_write_word` on what the line represents
    have hdata : y.cache.dataRam (y.cache.latIndex, w) = view y.cache.latLine :=
      h.coh.held _ _ hline
    refine sysInv_of_dataUpdate hdu hmem ?_ ?_ (hctl _)
    · simp only [L1Cache.compareUpdate, l1In, hhit, hwr, if_true, hslot, hdata, writeLine]
      exact h.coh.write hline _
    · simp only [L1Cache.compareUpdate, l1In, hhit, hwr, if_true]
      exact h.ways
  | false =>
    refine sysInv_of_dataUpdate hdu hmem ?_ ?_ (hctl _)
    · simp only [L1Cache.compareUpdate, l1In, hhit, hwr, if_true, writeLine, Bool.false_eq_true,
        if_false]
      exact h.coh.markClean fun l hl =>
        mem_victim_of_not_loses h hst (by rw [hlat]; rfl) hwr hloses hl
    · simp only [L1Cache.compareUpdate, l1In, hhit, hwr, if_true, Bool.false_eq_true, if_false]
      exact h.ways

/-- `L1_COMPARE_TAG`, miss: the victim way is latched. -/
theorem SysInv.next_of_miss (h : SysInv y view) (hst : y.cache.state = .compareTag)
    (hp : y.nextLevel.pending = none) (hlat : y.cache.lookup y.cache.lat.addr = none)
    (hlook : y.lookupOk i = true) : SysInv (y.next i) (y.nextView i view) := by
  have hreq : y.cache.lookup i.req.addr = none := by
    rw [← hlat]; simpa [lookupOk, hst] using hlook
  have hhit : y.cache.cacheHit 2 i.req.addr = false := by rw [L1Cache.cacheHit_eq, hreq]; rfl
  have hmiss (s : Slot) : y.cache.line s ≠ some y.cache.latLine :=
    L1Cache.line_ne_of_lookup_none h.ways hlat s
  have hout : y.out i = {} := L1Cache.out_of_miss hst hhit
  obtain ⟨hp', hmem⟩ := @nextLevel_of_no_write y i hp (by simp [hout])
  have hdu : y.cache.dataUpdate 2 (y.l1In i) =
      { y.cache with latVictimWay := y.cache.victimWay } := by
    simp [L1Cache.dataUpdate, L1Cache.compareUpdate, hst, l1In, hhit]
  have hc : (y.next i).cache = { y.cache with
      latVictimWay := y.cache.victimWay
      state := if y.cache.victimDirty then .writeback else .fill } := by
    show { y.cache.dataUpdate 2 (y.l1In i) with
      state := y.cache.fsm 2 (y.l1In i)
      lat := if (y.out i).reqReady && i.reqValid then i.req else y.cache.lat } = _
    rw [hdu, hout, L1Cache.fsm, hst]
    simp only [l1In, hhit, Bool.false_and, Bool.false_eq_true, if_false]
  have hview : y.nextView i view = view := by simp [nextView, performs, hst, hhit]
  rw [hview]
  refine sysInv_of_dataUpdate hdu hmem h.coh h.ways ?_
  cases hd : y.cache.victimDirty with
  | true =>
    rw [hd] at hc
    -- a dirty victim: it has a line, which must be written back first
    have hvalid : y.cache.validRam y.cache.victimSlot = true := by
      simp only [L1Cache.victimDirty, Bool.and_eq_true] at hd
      exact hd.1
    refine .writeback (by rw [hc]; rfl) hp' (by rw [hc]; exact hmiss) (by rw [hc]; rfl) ?_
    rw [hc]
    exact L1Cache.line_eq_some.mpr ⟨hvalid, rfl⟩
  | false =>
    rw [hd] at hc
    refine .fill (by rw [hc]; rfl) hp' (by rw [hc]; exact hmiss) ?_
    rw [hc, hmem]
    intro l hl
    -- a clean victim may be overwritten
    have hl' : y.cache.line y.cache.victimSlot = some l := hl
    obtain ⟨hvalid, -⟩ := L1Cache.line_eq_some.mp hl'
    refine h.coh.clean _ _ hl' ?_
    simpa [L1Cache.victimDirty, hvalid] using hd

/-- `L1_FILL_WAIT`: the latched request is performed on the line that arrives. -/
theorem SysInv.next_of_fillWait (h : SysInv y view) (hst : y.cache.state = .fillWait)
    (hp : y.nextLevel.pending = none) (hmiss : ∀ s, y.cache.line s ≠ some y.cache.latLine)
    (hold : ∀ l, y.cache.line y.cache.fillSlot = some l → y.nextLevel.mem l = view l)
    (hf : y.nextLevel.fillLine = some y.cache.latLine) :
    SysInv (y.next i) (y.nextView i view) := by
  have hout : y.out i = {} := L1Cache.out_of_fillWait hst
  obtain ⟨hp', hmem⟩ := @nextLevel_of_no_write y i hp (by simp [hout])
  have hc : (y.next i).cache = { y.cache.dataUpdate 2 (y.l1In i) with
      state := if i.memRespValid then .readout else .fillWait
      lat := y.cache.lat } := by
    show { y.cache.dataUpdate 2 (y.l1In i) with
      state := y.cache.fsm 2 (y.l1In i)
      lat := if (y.out i).reqReady && i.reqValid then i.req else y.cache.lat } = _
    rw [hout, L1Cache.fsm, hst]
    rfl
  -- the line is the one represented, as it was in no way
  cases hr : i.memRespValid with
  | false =>
    rw [hr] at hc
    have hdu : y.cache.dataUpdate 2 (y.l1In i) = y.cache := by
      simp [L1Cache.dataUpdate, hst, l1In, hr]
    have hview : y.nextView i view = view := by simp [nextView, performs, hst, hr]
    rw [hdu] at hc
    rw [hview]
    refine sysInv_of_dataUpdate hdu hmem h.coh h.ways ?_
    refine .fillWait (by rw [hc]; rfl) hp' (by rw [hc]; exact hmiss)
      (by rw [hc, hmem]; exact hold) ?_
    rw [hc]
    simp only [next, NextLevel.clk, hout, hr]
    exact hf
  | true =>
    rw [hr] at hc
    have hdu : y.cache.dataUpdate 2 (y.l1In i) = y.cache.fillUpdate (y.l1In i) := by
      simp [L1Cache.dataUpdate, hst, l1In, hr]
    have hdata : (y.l1In i).memRespRdata = y.nextLevel.mem y.cache.latLine := by
      simp [l1In, NextLevel.respRdata, hf]
    have habsent : y.nextLevel.mem y.cache.latLine = view y.cache.latLine := h.coh.absent _ hmiss
    have hview : y.nextView i view = writeLine view y.cache.lat := by
      simp [nextView, performs, hst, hr]
    have hways : ∀ s, (y.cache.fillUpdate (y.l1In i)).validRam s = true → s.2 < 2 := by
      intro s hs
      by_cases he : s = y.cache.fillSlot
      · have hlt : y.cache.latVictimWay.toNat < 2 := Bool.toNat_lt _
        rw [he]
        exact hlt
      · simp only [L1Cache.fillUpdate, Function.update_of_ne he] at hs
        exact h.ways s hs
    rw [hview]
    refine sysInv_of_dataUpdate hdu hmem ?_ hways (.readout (by rw [hc]; rfl) hp' ?_)
    · rw [L1Cache.line_fillUpdate]
      cases hwr : y.cache.lat.wr with
      | true =>
        simp only [L1Cache.fillUpdate, hwr, if_true, hdata, habsent, writeLine]
        exact h.coh.replace_write hmiss hold _
      | false =>
        simp only [L1Cache.fillUpdate, hwr, hdata, writeLine, Bool.false_eq_true, if_false]
        exact h.coh.replace hmiss hold false
    · rw [hc, hdu]
      show (y.cache.fillUpdate (y.l1In i)).line y.cache.fillSlot = some y.cache.latLine
      rw [L1Cache.line_fillUpdate, Function.update_self]

/-- **One edge.** As long as the live lookup is the latched one and no modified
    line is marked clean, cache and next level represent the memory that the
    latched request leaves. -/
theorem SysInv.next (h : SysInv y view) (hlook : y.lookupOk i = true)
    (hloses : y.losesDirtyLine = false) : SysInv (y.next i) (y.nextView i view) := by
  cases h.ctl with
  | idle hst hp => exact h.next_of_ready (.inl hst) hp
  | compare hst hp =>
    cases hlat : y.cache.lookup y.cache.lat.addr with
    | some w => exact h.next_of_hit hst hp hlat hlook hloses
    | none => exact h.next_of_miss hst hp hlat hlook
  | writeback hst hp hmiss hv hl => exact h.next_of_writeback hst hp hmiss hv hl
  | wait hst hmiss hv l hl hp => exact h.next_of_wait hst hmiss hv hl hp
  | fill hst hp hmiss hold => exact h.next_of_fill hst hp hmiss hold
  | fillWait hst hp hmiss hold hf => exact h.next_of_fillWait hst hp hmiss hold hf
  | readout hst hp hl => exact h.next_of_ready (.inr hst) hp

end Step

end Sys

end URiscV.Hdl
