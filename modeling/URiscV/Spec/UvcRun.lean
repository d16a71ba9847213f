import URiscV.Spec.UvcRefinement

/-!
# Runs of the cache testbench

The items of a test are driven one after the other, so its transactions and the clock
cycles they take can be told from the sets of the cache alone: `transactions` answers them
as `CacheSet.serve` does, and `serviceCycles` adds up what a hit, a clean miss and a dirty
miss take. `Run` ties the testbench to both after every cycle.

## Key results

- `Run.next`: one clock cycle
- `seen_after`: what driver, monitor and scoreboard have seen
- `Run.left_eq_nil_iff`: when all items are done
-/

namespace URiscV

open Hdl (L1Cache L1Req L1State Sys CacheSet)

namespace Hdl.CacheSet

/-- The clock cycles of a request to the set, in the testbench. -/
def cycles (r : L1Req) (x : CacheSet) : Nat :=
  match x.lookup (L1Cache.tag r.addr) with
  | some _ => 2
  | none => if x.victimDirty then 14 else 9

end Hdl.CacheSet

namespace Tb.L1cUvc

open Hdl.Sys (setIndex)

/-! ## Transactions -/

/-- A request with its response. -/
def transaction (r : L1Req) (a : Bool × BitVec 32) : L1cTransaction := .of r (a.2, a.1)

/-- The requests `hist` with the responses of the sets `st`. -/
def transactions (st : BitVec 4 → CacheSet) (hist : List L1Req) : List L1cTransaction :=
  List.zipWith transaction hist (Shards.answers setIndex CacheSet.serve st hist)

/-- The clock cycles that the requests `hist` take. -/
def serviceCycles (st : BitVec 4 → CacheSet) : List L1Req → Nat
  | [] => 0
  | r :: hist =>
    (st (setIndex r)).cycles r + serviceCycles (Shards.apply setIndex CacheSet.serve st r) hist

/-- The sets behind the requests `hist`. -/
abbrev setsAfter (st : BitVec 4 → CacheSet) (hist : List L1Req) : BitVec 4 → CacheSet :=
  Shards.after setIndex CacheSet.serve st hist

section Transactions

variable {st : BitVec 4 → CacheSet} {hist : List L1Req} {r : L1Req}

/-- The transaction of one more request. -/
theorem transactions_concat : transactions st (hist ++ [r]) = transactions st hist ++
    [transaction r ((setsAfter st hist (setIndex r)).serve r).2] := by
  rw [transactions, Shards.answers_concat, List.zipWith_append (by rw [Shards.length_answers])]
  rfl

/-- One transaction for each request. -/
theorem length_transactions : (transactions st hist).length = hist.length := by
  rw [transactions, List.length_zipWith, Shards.length_answers, Nat.min_self]

/-- The cycles of one more request. -/
theorem serviceCycles_concat : serviceCycles st (hist ++ [r]) =
    serviceCycles st hist + (setsAfter st hist (setIndex r)).cycles r := by
  induction hist generalizing st with
  | nil => exact Nat.add_comm _ _
  | cons q hist ih =>
    rw [List.cons_append, serviceCycles, ih, serviceCycles, Nat.add_assoc]
    rfl

/-- A request takes two cycles at least. -/
theorem two_le_cycles {x : CacheSet} : 2 ≤ x.cycles r := by
  unfold CacheSet.cycles
  split
  · exact Nat.le_refl 2
  · split <;> omega

/-- And fourteen at most. -/
theorem cycles_le {x : CacheSet} : x.cycles r ≤ 14 := by
  unfold CacheSet.cycles
  split
  · omega
  · split <;> omega

/-- A request takes two to fourteen cycles. -/
theorem serviceCycles_bounds :
    2 * hist.length ≤ serviceCycles st hist ∧ serviceCycles st hist ≤ 14 * hist.length := by
  induction hist generalizing st with
  | nil => exact ⟨Nat.le_refl _, Nat.le_refl _⟩
  | cons q hist ih =>
    have hone := @two_le_cycles q (st (setIndex q))
    have hone' := @cycles_le q (st (setIndex q))
    have hrest := @ih (Shards.apply setIndex CacheSet.serve st q)
    rw [serviceCycles, List.length_cons]
    omega

/-- More requests take more cycles. -/
theorem serviceCycles_le_append (more : List L1Req) :
    serviceCycles st hist ≤ serviceCycles st (hist ++ more) := by
  induction hist generalizing st with
  | nil => exact Nat.zero_le _
  | cons q hist ih => exact Nat.add_le_add_left ih _

end Transactions

/-! ## Where a run stands -/

namespace Stage

/-- Whether the victim has to be written back. -/
def dirty : Stage → Bool
  | compare | fillRequest => false
  | writebackRequest | writebackRaise | writebackLower | writebackLatency | writebackAnswer
    | writebackFinish => true
  | fillRaise d | fillLower d | fillLatency d | fillLatency' d | fillAnswer d | fillFinish d => d

/-- A service stays one with or without a write-back. -/
theorem dirty_next {m m' : Stage} (h : m.next? = some m') : m'.dirty = m.dirty := by
  cases m with
  | compare | fillFinish _ => cases h
  | _ =>
    obtain rfl := Option.some.inj h
    rfl

/-- No stage goes back to the tag compare. -/
theorem ne_compare_of_next {m m' : Stage} (h : m.next? = some m') : m' ≠ .compare := by
  rintro rfl
  have := cycles_next h
  have := m.cycles_pos
  have hone : compare.cycles = 1 := rfl
  omega

end Stage

/-- Where the testbench is when `st` are the sets behind the items done: the items that
    are left, and the clock cycles since the last one was done. -/
inductive Position (st : BitVec 4 → CacheSet) (u : L1cUvc) : List L1Req → Nat → Prop
  | item (k : Nat) (h : Idle u) (hd : u.driver.loc = .item) (hitems : u.driver.items = []) :
    Position st u [] k
  | drive (req : L1Req) (h : Idle u) (hd : u.driver.loc = .drive req) :
    Position st u (req :: u.driver.items) 0
  | compare (req : L1Req) (h : Busy u req .compare) : Position st u (req :: u.driver.items) 1
  | miss (req : L1Req) (m : Stage) (h : Busy u req m) (hne : m ≠ .compare)
      (hmiss : (st (setIndex req)).lookup (L1Cache.tag req.addr) = none)
      (hdirty : m.dirty = (st (setIndex req)).victimDirty) :
    Position st u (req :: u.driver.items) m.cycles

/-- What driver, monitor and scoreboard have seen when the requests `done` are done, and `pub`
    has been published. -/
structure Seen (st : BitVec 4 → CacheSet) (done : List L1Req) (u : L1cUvc)
    (pub : List L1cTransaction) : Prop where
  transactions : u.driver.done = transactions st done
  errors : u.driver.errors = []
  monitorErrors : u.monitorErrors = []
  published : pub = L1cUvc.transactions st done
  scoreboard : u.scoreboard = (L1cUvc.transactions st done).foldl .write .buildPhase

/-- The testbench behind `n` cycles of a test, when the items `done` are done. -/
structure Run (st : BitVec 4 → CacheSet) (items done left : List L1Req) (k n : Nat) (u : L1cUvc)
    (pub : List L1cTransaction) : Prop extends Seen st done u pub where
  items : items = done ++ left
  time : n = 2 + serviceCycles st done + k
  stage : Sys.Stage u.sys (setsAfter st done)
  position : Position (setsAfter st done) u left k

section Position

variable {st : BitVec 4 → CacheSet} {u : L1cUvc} {left : List L1Req} {k : Nat}

/-- Behind an item. -/
theorem position_of_itemDone {d : L1cDriver} {t : L1cTransaction} (h : Idle u)
    (hd : u.driver = d.itemDone t) : Position st u d.items 0 := by
  cases hitems : d.items with
  | nil =>
    have hdrv : u.driver = { d with loc := .item, done := d.done ++ [t] } := by
      rw [hd, L1cDriver.itemDone, L1cDriver.getNextItem, hitems]
    exact .item 0 h (by rw [hdrv]) (by rw [hdrv]; exact hitems)
  | cons req rest =>
    have hdrv : u.driver =
        { d with loc := .drive req, items := rest, done := d.done ++ [t] } := by
      rw [hd, L1cDriver.itemDone, L1cDriver.getNextItem, hitems]
    have hpos : Position st u (req :: u.driver.items) 0 := .drive req h (by rw [hdrv])
    rwa [hdrv] at hpos

/-- An item that is left is not overdue. -/
theorem Position.lt_cycles {req : L1Req} (h : Position st u (req :: left) k) :
    k < (st (setIndex req)).cycles req := by
  have htwo := @two_le_cycles req (st (setIndex req))
  cases h with
  | drive _ _ _ => omega
  | compare _ _ => omega
  | miss _ m _ _ hmiss hdirty =>
    rw [CacheSet.cycles, hmiss, ← hdirty]
    cases m with
    | fillRaise d | fillLower d | fillLatency d | fillLatency' d | fillAnswer d | fillFinish d =>
      cases d <;> decide
    | _ => decide

end Position

/-! ## One cycle -/

section Step

variable {st : BitVec 4 → CacheSet} {items done left : List L1Req} {k n : Nat} {u : L1cUvc}
  {pub : List L1cTransaction} {req : L1Req}

/-- The monitor reports nothing while it waits, nor with a response. -/
theorem monitorErrors_step (h : u.publish = [] ∨ u.negedge.out.respValid = true) :
    u.step.monitorErrors = u.monitorErrors := by
  show u.monitorErrors ++ u.negedge.monitor.errors u.negedge.cpuCycle = _
  rw [errors_eq_nil h, List.append_nil]

/-- A cycle in which no item gets done. -/
theorem Run.wait {d : L1cDriverLoc} (h : Run st items done left k n u pub)
    (hdrv : u.step.driver = { u.driver with loc := d }) (hpub : u.publish = [])
    (hsb : u.step.scoreboard = u.scoreboard)
    (hstage : Sys.Stage u.step.sys (setsAfter st done))
    (hpos : Position (setsAfter st done) u.step left (k + 1)) :
    Run st items done left (k + 1) (n + 1) u.step (pub ++ u.publish) where
  items := h.items
  time := by
    have := h.time
    omega
  stage := hstage
  position := hpos
  transactions := by rw [hdrv]; exact h.transactions
  errors := by rw [hdrv]; exact h.errors
  monitorErrors := (monitorErrors_step (.inl hpub)).trans h.monitorErrors
  published := by rw [hpub, List.append_nil]; exact h.published
  scoreboard := by rw [hsb]; exact h.scoreboard

/-- The cycle in which an item gets done. -/
theorem Run.answer (h : Run st items done (req :: u.driver.items) k n u pub) (hidle : Idle u.step)
    {t : L1cTransaction} (ht : t = transaction req ((setsAfter st done (setIndex req)).serve req).2)
    (hdrv : u.step.driver = u.driver.itemDone t) (hresp : u.negedge.out.respValid = true)
    (hpub : u.publish = [t]) (hsb : u.step.scoreboard = u.scoreboard.write t)
    (hstage : Sys.Stage u.step.sys (setsAfter st (done ++ [req])))
    (hk : k + 1 = (setsAfter st done (setIndex req)).cycles req) :
    Run st items (done ++ [req]) u.driver.items 0 (n + 1) u.step (pub ++ u.publish) where
  items := by rw [h.items, List.append_assoc, List.singleton_append]
  time := by
    have := h.time
    rw [serviceCycles_concat]
    omega
  stage := hstage
  position := position_of_itemDone hidle hdrv
  transactions := by
    have hdone : (u.driver.itemDone t).done = u.driver.done ++ [t] := by
      unfold L1cDriver.itemDone L1cDriver.getNextItem
      split <;> rfl
    rw [hdrv, hdone, h.transactions, ht, transactions_concat]
  errors := by
    have herrors : (u.driver.itemDone t).errors = u.driver.errors := by
      unfold L1cDriver.itemDone L1cDriver.getNextItem
      split <;> rfl
    rw [hdrv, herrors, h.errors]
  monitorErrors := (monitorErrors_step (.inr hresp)).trans h.monitorErrors
  published := by rw [hpub, h.published, ht, transactions_concat]
  scoreboard := by
    rw [hsb, h.scoreboard, transactions_concat, List.foldl_append, ← ht]
    rfl

/-- The transaction of a response. -/
theorem answered_of_answerNow {a : Bool × BitVec 32} (h : Sys.answerNow u.sysIn u.sys = [a]) :
    u.negedge.answered req = transaction req a ∧ u.negedge.out.respValid = true := by
  have hnow : (if u.negedge.out.respValid then
      [(u.negedge.out.respHit, u.negedge.out.respRdata)] else []) = [a] := h
  split at hnow
  · next hresp =>
    obtain rfl := List.singleton_inj.mp hnow
    exact ⟨rfl, hresp⟩
  · cases hnow

/-- The handshake of an item. -/
theorem Run.next_drive (h : Run st items done (req :: u.driver.items) 0 n u pub) (hi : Idle u)
    (hd : u.driver.loc = .drive req) :
    Run st items done (req :: u.driver.items) 1 (n + 1) u.step (pub ++ u.publish) := by
  obtain ⟨hbusy, hdrv, hpub, hsb⟩ := hi.step_drive hd
  have hpos : Position (setsAfter st done) u.step (req :: u.step.driver.items) 1 :=
    .compare req hbusy
  rw [hdrv] at hpos
  refine h.wait hdrv hpub hsb ?_ hpos
  rw [hi.step_sys]
  have hst : u.sys.cache.state = .idle := hi.state
  -- the controller is free
  cases h.stage with
  | idle _ hp hsets => exact Sys.stage_next_of_ready (.inl hst) hp hsets
  | compare hs | writeback hs | offered hs | committed hs | fill hs | fillWait hs | readout hs =>
    rw [hst] at hs
    cases hs

/-- The tag compare. -/
theorem Run.next_compare (h : Run st items done (req :: u.driver.items) 1 n u pub)
    (hb : Busy u req .compare) : ∃ done' left' k',
    Run st items done' left' k' (n + 1) u.step (pub ++ u.publish) := by
  have hst : u.sys.cache.state = .compareTag := hb.state
  obtain ⟨hp, hsets⟩ : u.sys.nextLevel.pending = none ∧ u.sys.sets = setsAfter st done := by
    cases h.stage with
    | compare _ hp hsets => exact ⟨hp, hsets⟩
    | idle hs | writeback hs | offered hs | committed hs | fill hs | fillWait hs | readout hs =>
      rw [hst] at hs
      cases hs
  have hreq : u.sysIn.req.addr = u.sys.cache.lat.addr := by
    have hneg : u.sysIn.req = u.vif.req := by
      show u.negedge.vif.req = _
      rw [hb.negedge_compare]
    rw [hneg, hb.req, ← hb.lat]
    rfl
  have hlat : u.sys.cache.lat = req := hb.lat
  have hidx : u.sys.cache.latIndex = setIndex req := by rw [← hlat]; rfl
  have htag : u.sys.cache.latTag = L1Cache.tag req.addr := by rw [← hlat]; rfl
  -- the cache looks up what the set holds
  have hhit : u.dut.cacheHit 2 req.addr =
      ((setsAfter st done (setIndex req)).lookup (L1Cache.tag req.addr)).isSome := by
    have hlook := Sys.lookup_of_sets hsets hreq
    have haddr : u.sysIn.req.addr = req.addr := hreq.trans (by rw [hlat])
    rw [haddr, hidx, htag] at hlook
    have hdut : u.sys.cache.lookup req.addr = u.dut.lookup req.addr := rfl
    rw [L1Cache.cacheHit_eq, ← hdut, hlook, Option.isSome_map]
  -- a hit is answered in this cycle, a miss starts the service
  cases hw : (setsAfter st done (setIndex req)).lookup (L1Cache.tag req.addr) with
  | some w =>
    rw [hw] at hhit
    obtain ⟨hidle, hdrv, hpub, hsb⟩ := hb.step_hit hhit
    rw [← hidx, ← htag] at hw
    obtain ⟨hstage, -, -, hans⟩ := Sys.stage_next_of_hit (i := u.sysIn) hst hp hsets hreq hw
    rw [← hb.step_sys_compare, ← Sys.after_performed, hlat] at hstage
    rw [Sys.latAnswer, hlat, hidx] at hans
    rw [hidx, htag] at hw
    obtain ⟨htxn, hresp⟩ := answered_of_answerNow hans
    refine ⟨_, _, _, h.answer hidle htxn hdrv hresp hpub hsb hstage ?_⟩
    rw [CacheSet.cycles, hw]
  | none =>
    rw [hw] at hhit
    obtain ⟨hbusy, hdrv, hpub, hsb⟩ := hb.step_miss hhit
    have hvictim : u.dut.victimDirty = (setsAfter st done (setIndex req)).victimDirty := by
      rw [← hsets, ← hidx]
      rfl
    -- the driver waits for the stages of the miss
    have hpos : Position (setsAfter st done) u.step (req :: u.step.driver.items)
        (missStage u.dut).cycles := by
      refine .miss req _ hbusy ?_ hw ?_
      · unfold missStage
        split <;> decide
      · rw [← hvictim, missStage]
        cases u.dut.victimDirty <;> rfl
    have hcyc : (missStage u.dut).cycles = 1 + 1 := by
      unfold missStage
      split <;> rfl
    rw [hdrv, hcyc] at hpos
    refine ⟨_, _, _, h.wait hdrv hpub hsb ?_ hpos⟩
    rw [← hidx, ← htag] at hw
    rw [hb.step_sys_compare]
    exact (Sys.stage_next_of_miss hst hp hsets hreq hw).1

/-- A cycle of a miss. -/
theorem Run.next_miss {m : Stage}
    (h : Run st items done (req :: u.driver.items) m.cycles n u pub) (hb : Busy u req m)
    (hne : m ≠ .compare)
    (hmiss : (setsAfter st done (setIndex req)).lookup (L1Cache.tag req.addr) = none)
    (hdirty : m.dirty = (setsAfter st done (setIndex req)).victimDirty) : ∃ done' left' k',
    Run st items done' left' k' (n + 1) u.step (pub ++ u.publish) := by
  cases hm : m.next? with
  | some m' =>
    obtain ⟨hbusy, hdrv, hpub, hsb⟩ := hb.step hm
    have hpos : Position (setsAfter st done) u.step (req :: u.step.driver.items) m'.cycles :=
      .miss req m' hbusy (Stage.ne_compare_of_next hm) hmiss ((Stage.dirty_next hm).trans hdirty)
    rw [hdrv, Stage.cycles_next hm] at hpos
    have hin : u.sys.cache.inMiss = true := by
      have hst : u.sys.cache.state = m.state := hb.state
      cases m with
      | compare | fillFinish _ => cases hm
      | _ => simp only [L1Cache.inMiss, hst, Stage.state]
    refine ⟨_, _, _, h.wait hdrv hpub hsb ?_ hpos⟩
    rw [hb.step_sys hm]
    exact (h.stage.next_of_inMiss hin).1
  | none =>
    cases m with
    | compare => exact absurd rfl hne
    | fillFinish d =>
      obtain ⟨hidle, hdrv, hpub, hsb⟩ := hb.step_finish
      have hst : u.sys.cache.state = .readout := hb.state
      have hlat : u.sys.cache.lat = req := hb.lat
      have hidx : u.sys.cache.latIndex = setIndex req := by rw [← hlat]; rfl
      obtain ⟨hp, hsets, hresp⟩ : u.sys.nextLevel.pending = none ∧
          u.sys.sets = u.sys.performed (setsAfter st done) ∧ u.sys.latAnswer (setsAfter st done) =
            (false, L1Cache.lineWord (u.sys.cache.dataRam u.sys.cache.fillSlot)
              u.sys.cache.latWord) := by
        cases h.stage with
        | readout _ hp hsets hresp => exact ⟨hp, hsets, hresp⟩
        | idle hs | compare hs | writeback hs | offered hs | committed hs | fill hs | fillWait hs =>
          rw [hst] at hs
          cases hs
      have hstage := Sys.stage_next_of_ready (i := u.sysIn) (.inr hst) hp hsets
      rw [← hb.step_sys_finish, ← Sys.after_performed, hlat] at hstage
      -- the response is that of the sets
      have hans : Sys.answerNow u.sysIn u.sys = [u.sys.latAnswer (setsAfter st done)] := by
        have hout : u.sys.out u.sysIn = _ := L1Cache.out_of_readout hst
        rw [Sys.answerNow, hout, if_pos rfl, hresp]
      rw [Sys.latAnswer, hlat, hidx] at hans
      obtain ⟨htxn, hanswer⟩ := answered_of_answerNow hans
      refine ⟨_, _, _, h.answer hidle htxn hdrv hanswer hpub hsb hstage ?_⟩
      rw [CacheSet.cycles, hmiss, ← hdirty]
      cases d <;> rfl
    | _ => cases hm

/-- **One clock cycle.** -/
theorem Run.next (h : Run st items done left k n u pub) : ∃ done' left' k',
    Run st items done' left' k' (n + 1) u.step (pub ++ u.publish) := by
  cases hpos : h.position with
  | item k hi hd hitems =>
    obtain ⟨hstep, hpub⟩ := hi.step_item hd
    have hsys := hi.step_sys
    refine ⟨_, _, _, h.wait (d := .item) ?_ hpub (by rw [hstep]) (by rw [hstep]; exact h.stage) ?_⟩
    · rw [hstep, ← hd]
    · rw [hstep]
      exact .item (k + 1) hi hd hitems
  | drive req hi hd => exact ⟨_, _, _, h.next_drive hi hd⟩
  | compare req hb => exact h.next_compare hb
  | miss req m hb hne hmiss hdirty => exact h.next_miss hb hne hmiss hdirty

end Step

/-! ## Tests -/

/-- The sets of the cache out of reset, over the backing memory of the testbench. -/
def resetSets (dut : L1Cache) : BitVec 4 → CacheSet :=
  (Sys.init dut fun l => genLine (l ++ 0#4)).sets

section Test

variable {dut : L1Cache} {items done left : List L1Req} {k n : Nat} {u : L1cUvc}
  {pub : List L1cTransaction} {st : BitVec 4 → CacheSet}

/-- The system behind the reset: cleared directory, and the lines the next level generates. -/
theorem started_sys : (started dut items).sys = Sys.init dut fun l => genLine (l ++ 0#4) := by
  have hlines : BackingMem.lines (fun _ => none) = fun l => genLine (l ++ 0#4) := by
    funext l
    rw [BackingMem.lines, BackingMem.line, BackingMem.alignAddr_line]
  rw [← hlines]
  rfl

/-- When the driver takes its first item. -/
theorem run_started : Run (resetSets dut) items [] items 0 2 (started dut items) [] where
  items := rfl
  time := rfl
  stage := .idle rfl rfl (by rw [started_sys]; rfl)
  position := by
    cases items with
    | nil => exact .item 0 idle_started rfl rfl
    | cons req rest => exact .drive req idle_started rfl
  transactions := by cases items <;> rfl
  errors := by cases items <;> rfl
  monitorErrors := rfl
  published := rfl
  scoreboard := rfl

/-- Whole runs. -/
theorem run_after (dut : L1Cache) (items : List L1Req) (n : Nat) : ∃ done left k,
    Run (resetSets dut) items done left k (n + 2) (after dut items (n + 2))
      (published dut items (n + 2)) := by
  induction n with
  | zero =>
    obtain ⟨hafter, hpub⟩ := after_two dut items
    rw [Nat.zero_add, hafter, hpub]
    exact ⟨_, _, _, run_started⟩
  | succ n ih =>
    obtain ⟨done, left, k, h⟩ := ih
    exact h.next

/-- The items done are those that had the time to be. -/
theorem Run.serviceCycles_take_le_iff (h : Run st items done left k (n + 2) u pub) {j : Nat}
    (hj : j ≤ items.length) : serviceCycles st (items.take j) ≤ n ↔ j ≤ done.length := by
  have htime : n = serviceCycles st done + k := by
    have := h.time
    omega
  constructor
  · intro hle
    by_contra hlt
    obtain ⟨req, rest, rfl⟩ : ∃ req rest, left = req :: rest := by
      cases left with
      | nil =>
        rw [h.items, List.append_nil] at hj
        omega
      | cons req rest => exact ⟨req, rest, rfl⟩
    -- the item behind `done` takes longer
    obtain ⟨more, hmore⟩ : ∃ more, items.take j = done ++ [req] ++ more := by
      refine ⟨rest.take (j - done.length - 1), ?_⟩
      have hone : j - done.length = j - done.length - 1 + 1 := by omega
      rw [h.items, List.take_append, List.take_of_length_le (by omega), hone, List.take_succ_cons,
        List.append_assoc, List.singleton_append, Nat.add_sub_cancel]
    have hbound := @serviceCycles_le_append st (done ++ [req]) more
    have hlate := h.position.lt_cycles
    rw [hmore] at hle
    rw [serviceCycles_concat] at hbound
    omega
  · intro hle
    have htake : items.take j ++ done.drop j = done := by
      rw [h.items, List.take_append_of_le_length hle, List.take_append_drop]
    have hbound := @serviceCycles_le_append st (items.take j) (done.drop j)
    rw [htake] at hbound
    omega

/-- All items are done exactly when all had the time to be. -/
theorem Run.left_eq_nil_iff (h : Run st items done left k (n + 2) u pub) :
    left = [] ↔ serviceCycles st items ≤ n := by
  have hall := h.serviceCycles_take_le_iff (Nat.le_refl _)
  rw [List.take_length] at hall
  rw [hall, h.items, List.length_append]
  constructor
  · rintro rfl
    exact Nat.le_refl _
  · intro hle
    exact List.eq_nil_of_length_eq_zero (by omega)

/-- Before the driver takes its first item. -/
theorem seen_of_lt_two (hn : n < 2) : Seen (resetSets dut) [] (after dut items n)
    (published dut items n) ∧ (after dut items n).driver.items = items ∧
      ∃ k, (after dut items n).driver.loc = .reset k := by
  have h0 : Quiet (init dut items) := ⟨rfl, rfl, rfl, rfl, rfl, rfl⟩
  obtain ⟨h1, hp1⟩ := step_of_quiet h0 (k := 1) rfl (.inl rfl)
  match n, hn with
  | 0, _ => exact ⟨⟨rfl, rfl, rfl, rfl, rfl⟩, rfl, _, rfl⟩
  | 1, _ =>
    have hafter : after dut items 1 = (init dut items).step := rfl
    have hpub : published dut items 1 = [] ++ (init dut items).publish := rfl
    rw [hafter, hpub, h1, hp1]
    exact ⟨⟨rfl, rfl, rfl, rfl, rfl⟩, rfl, _, rfl⟩

/-- **The transactions of a test**, behind any number of clock cycles. The items done are
    those whose service fits into the cycles behind the second. -/
theorem seen_after (dut : L1Cache) (items : List L1Req) (n : Nat) : ∃ done left,
    items = done ++ left ∧ Seen (resetSets dut) done (after dut items n) (published dut items n) ∧
      ∀ j ≤ items.length,
        j ≤ done.length ↔ j = 0 ∨ serviceCycles (resetSets dut) (items.take j) + 2 ≤ n := by
  match n with
  | n + 2 =>
    obtain ⟨done, left, k, h⟩ := run_after dut items n
    refine ⟨done, left, h.items, h.toSeen, fun j hj => ?_⟩
    rw [← h.serviceCycles_take_le_iff hj]
    constructor
    · intro hle
      exact .inr (Nat.add_le_add_right hle 2)
    · rintro (rfl | hle)
      · exact Nat.zero_le _
      · exact Nat.le_of_add_le_add_right hle
  -- nothing is seen in the two cycles of the reset
  | 0 | 1 =>
    refine ⟨[], items, rfl, (seen_of_lt_two (by decide)).1, fun j _ => ?_⟩
    rw [List.length_nil]
    omega

end Test

end Tb.L1cUvc

end URiscV
