import URiscV.ForStd.Answers
import URiscV.ForStd.Lru
import URiscV.Spec.CacheReset
import URiscV.Spec.CacheService
import URiscV.Tb.L1cScoreboard

/-!
# Which lines the cache holds

Each set of the two-way cache is an `Lru.TwoWay`: a hit and a fill are its two
updates, and its bit of `lru_ram` is the one of that structure, whatever it was before
the first fill. So the set holds the two most recently requested of its lines, and the
hit flag of a response tells whether the requested line is one of them. The reference
cache of the scoreboard is the same structure.

## Key results

- `no_line_twice`: the tags of the valid ways of a set are different
- `LruInv.next`: one edge
- `respHit_iff_lruHit`: hit flags of the responses, and of the scoreboard
-/

namespace URiscV.Hdl.L1Cache

/-! ## No line is cached twice -/

/-- The directory invariant along a run from reset. -/
theorem dirInv_runFor {c : L1Cache} {ins : Nat → L1In} {n : Nat}
    (hheld : ∀ k < n, AddrHeld (ins k) (runFor 2 ins c.asyncReset k)) :
    DirInv (runFor 2 ins c.asyncReset n) :=
  Clocked.run_invariant_of (dirInv_asyncReset c) (fun _ _ hk h => h.next hk) hheld

/-- **No line is cached twice.** Take any run from reset in which the address of the
    request in service is held during `L1_COMPARE_TAG`. In every state no set has two
    valid ways with equal tags; so for every address at most one bit of
    `hit_way_onehot` is set, and `hit_way_val` is its way. -/
theorem no_line_twice (c : L1Cache) (ins : Nat → L1In) (n : Nat)
    (hheld : ∀ k < n, AddrHeld (ins k) (runFor 2 ins c.asyncReset k)) :
    let s := runFor 2 ins c.asyncReset n
    (∀ set, ∀ w < 2, ∀ u < 2, s.validRam (set, w) = true → s.validRam (set, u) = true →
      s.tagRam (set, w) = s.tagRam (set, u) → w = u) ∧
    (∀ addr w u, (s.hitWayOnehot 2 addr).getLsbD w = true →
      (s.hitWayOnehot 2 addr).getLsbD u = true → w = u) ∧
    ∀ addr w, (s.hitWayOnehot 2 addr).getLsbD w = true → (s.hitWayVal 2 addr).toNat = w := by
  intro s
  have hdir : DirInv s := dirInv_runFor hheld
  have hunique : ∀ set, ∀ w < 2, ∀ u < 2, s.validRam (set, w) = true →
      s.validRam (set, u) = true → s.tagRam (set, w) = s.tagRam (set, u) → w = u := by
    intro set w hw u hu hvw hvu htag
    have hbit (v : Nat) (hv : v < 2) : (decide (v = 1)).toNat = v := by
      obtain rfl | rfl : v = 0 ∨ v = 1 := by omega
      · rfl
      · rfl
    rw [← hbit w hw] at hvw htag ⊢
    rw [← hbit u hu] at hvu htag ⊢
    rw [hdir.unique set _ _ hvw hvu htag]
  have hone : ∀ addr w u, (s.hitWayOnehot 2 addr).getLsbD w = true →
      (s.hitWayOnehot 2 addr).getLsbD u = true → w = u := by
    intro addr w u hw hu
    simp only [getLsbD_hitWayOnehot, hitWay, Bool.and_eq_true, decide_eq_true_eq, beq_iff_eq]
      at hw hu
    exact hunique (index addr) w hw.1 u hu.1 hw.2.1 hu.2.1 (hw.2.2.trans hu.2.2.symm)
  refine ⟨hunique, hone, fun addr w hw => ?_⟩
  -- the way that the lookup finds has its bit set
  have hhit : s.hitWay addr w = true ∧ w < 2 := by
    rw [getLsbD_hitWayOnehot, Bool.and_eq_true, decide_eq_true_eq] at hw
    exact ⟨hw.2, hw.1⟩
  cases hl : s.lookup addr with
  | none =>
    rw [hitWay_of_lookup_none hl hhit.2] at hhit
    cases hhit.1
  | some u =>
    have hu := lookup_lt hl
    have huw : u = w := hone addr u w
      (by rw [getLsbD_hitWayOnehot, hitWay_of_lookup hl]; simpa using hu) hw
    rw [hitWayVal_eq, hl, ← huw]
    obtain rfl | rfl : u = 0 ∨ u = 1 := by omega
    · rfl
    · rfl

/-- Line 0 is found in one way, two edges after its fill. -/
theorem no_line_twice_readZero :
    ((runFor 2 (fun _ => readZero) blank.asyncReset 6).hitWayOnehot 2 0).getLsbD 0 = true ∧
    ((runFor 2 (fun _ => readZero) blank.asyncReset 6).hitWayVal 2 0).toNat = 0 :=
  ⟨by decide, (no_line_twice blank (fun _ => readZero) 6 (by simp only [AddrHeld]; decide)).2.2 0 0
    (by decide)⟩

/-! ## Recently requested lines -/

/-- The tags that a history of requests asks of a set. -/
def tagsOf (set : BitVec 4) (hist : List L1Req) : List (BitVec 24) :=
  (hist.filter fun r => index r.addr == set).map fun r => tag r.addr

/-- The line of the request is one of the two that the history has most recently asked
    of its set. -/
def LruHit (hist : List L1Req) (r : L1Req) : Prop :=
  tag r.addr ∈ Lru.resident 2 (tagsOf (index r.addr) hist)

instance (hist : List L1Req) (r : L1Req) : Decidable (LruHit hist r) :=
  inferInstanceAs (Decidable (_ ∈ _))

/-- A request asks its own set for its line, and no other set. -/
theorem tagsOf_concat (set : BitVec 4) (hist : List L1Req) (r : L1Req) :
    tagsOf set (hist ++ [r]) =
      if set = index r.addr then tagsOf set hist ++ [tag r.addr] else tagsOf set hist := by
  by_cases h : set = index r.addr
  · subst h
    simp [tagsOf]
  · have hne : index r.addr ≠ set := Ne.symm h
    simp [tagsOf, h, hne]

section Recent

variable {sets sets' : BitVec 4 → Lru.TwoWay (BitVec 24)} {hist : List L1Req} {r : L1Req}

/-- A request that hits its set, when every set holds what was recently asked of it. -/
theorem recent_hit {w : Bool} (h : ∀ set, (sets set).Holds (Lru.resident 2 (tagsOf set hist)))
    (hsets : ∀ set, sets' set = if set = index r.addr then (sets set).hit w else sets set)
    (hv : (sets (index r.addr)).valid w = true) (ht : (sets (index r.addr)).tag w = tag r.addr)
    (set : BitVec 4) : (sets' set).Holds (Lru.resident 2 (tagsOf set (hist ++ [r]))) := by
  rw [hsets, tagsOf_concat]
  by_cases hset : set = index r.addr
  · rw [if_pos hset, if_pos hset, hset, ← ht]
    exact (h (index r.addr)).hit_resident hv
  · rw [if_neg hset, if_neg hset]
    exact h set

/-- A request whose line is put into its set. -/
theorem recent_fill (h : ∀ set, (sets set).Holds (Lru.resident 2 (tagsOf set hist)))
    (hsets : ∀ set, sets' set =
      if set = index r.addr then (sets set).fill (tag r.addr) else sets set)
    (hmiss : ¬LruHit hist r) (set : BitVec 4) :
    (sets' set).Holds (Lru.resident 2 (tagsOf set (hist ++ [r]))) := by
  rw [hsets, tagsOf_concat]
  by_cases hset : set = index r.addr
  · rw [if_pos hset, if_pos hset, hset]
    exact (h (index r.addr)).fill_resident hmiss
  · rw [if_neg hset, if_neg hset]
    exact h set

end Recent

/-! ## The sets of the cache -/

/-- A set as a two-way structure. -/
def setOf (c : L1Cache) (set : BitVec 4) : Lru.TwoWay (BitVec 24) where
  valid := fun w => c.validRam (set, w.toNat)
  tag := fun w => c.tagRam (set, w.toNat)
  lru := c.lruRam set

/-- Every set holds the two lines most recently asked of it. -/
def HoldsRecent (c : L1Cache) (hist : List L1Req) : Prop :=
  ∀ set, (c.setOf set).Holds (Lru.resident 2 (tagsOf set hist))

section Sets

variable {c c' : L1Cache} {i : L1In} {hist : List L1Req}

/-- Behind a reset no set holds anything. -/
theorem holdsRecent_asyncReset (c : L1Cache) : HoldsRecent c.asyncReset [] :=
  fun _ => .empty fun _ => rfl

/-- Only the directory matters. -/
theorem HoldsRecent.congr (h : HoldsRecent c hist) (hv : c'.validRam = c.validRam)
    (ht : c'.tagRam = c.tagRam) (hl : c'.lruRam = c.lruRam) : HoldsRecent c' hist := by
  intro set
  have hset : c'.setOf set = c.setOf set := by rw [setOf, setOf, hv, ht, hl]
  rw [hset]
  exact h set

/-- The latched line is in the cache exactly when it was recently requested. -/
theorem HoldsRecent.cacheHit_iff (h : HoldsRecent c hist) :
    c.cacheHit 2 c.lat.addr = true ↔ LruHit hist c.lat := by
  rw [cacheHit_eq, LruHit, (h (index c.lat.addr)).mem_iff]
  -- no way has the line, or one has
  rcases lookup_cases c c.lat.addr with hn | ⟨w, hw⟩
  · rw [hn]
    constructor
    · intro h; cases h
    · rintro ⟨w, hv, ht⟩
      have hmiss := hitWay_of_lookup_none hn (Bool.toNat_lt w)
      simp only [hitWay, Bool.and_eq_false_iff, beq_eq_false_iff_ne] at hmiss
      rcases hmiss with hmiss | hmiss
      · rw [show c.validRam (index c.lat.addr, w.toNat) = true from hv] at hmiss
        cases hmiss
      · exact absurd ht hmiss
  · have hhit := hitWay_of_lookup hw
    simp only [hitWay, Bool.and_eq_true, beq_iff_eq] at hhit
    rw [hw]
    exact ⟨fun _ => ⟨w, hhit⟩, fun _ => rfl⟩

/-- A hit is a hit of its set. -/
theorem setOf_compareUpdate {w : Bool} (hw : c.lookup i.req.addr = some w.toNat)
    (set : BitVec 4) : (c.compareUpdate 2 i).setOf set =
      if set = c.latIndex then (c.setOf set).hit w else c.setOf set := by
  have hlru : (c.compareUpdate 2 i).lruRam = Function.update c.lruRam c.latIndex (!w) := by
    cases hwr : c.lat.wr with
    | true => rw [compareUpdate_of_write hw hwr]
    | false => rw [compareUpdate_of_read hw hwr]
  have hdir : (c.compareUpdate 2 i).validRam = c.validRam ∧
      (c.compareUpdate 2 i).tagRam = c.tagRam := by
    cases hwr : c.lat.wr with
    | true => rw [compareUpdate_of_write hw hwr]; exact ⟨rfl, rfl⟩
    | false => rw [compareUpdate_of_read hw hwr]; exact ⟨rfl, rfl⟩
  -- a hit changes the LRU bit only
  rw [setOf, hdir.1, hdir.2, hlru]
  by_cases hset : set = c.latIndex
  · subst hset
    rw [if_pos rfl, Function.update_self]
    rfl
  · rw [if_neg hset, Function.update_of_ne hset]
    rfl

/-- The arrival of a line is a fill of its set. -/
theorem setOf_fillUpdate (hv : c.latVictimWay = c.victimWay) (set : BitVec 4) :
    (c.fillUpdate i).setOf set =
      if set = c.latIndex then (c.setOf set).fill c.latTag else c.setOf set := by
  have hlru : c.lruRam c.latIndex = c.latVictimWay := hv.symm
  rw [setOf, fillUpdate, fillSlot]
  simp only [update_way]
  by_cases hset : set = c.latIndex
  · subst hset
    simp only [if_true, Function.update_self]
    rw [Lru.TwoWay.fill, setOf, hlru]
  · simp only [if_neg hset, Function.update_of_ne hset]
    rfl

/-- A hit of the latched request. -/
theorem HoldsRecent.hit (h : HoldsRecent c hist) (hreq : i.req.addr = c.lat.addr)
    (hhit : c.cacheHit 2 i.req.addr = true) :
    HoldsRecent (c.compareUpdate 2 i) (hist ++ [c.lat]) := by
  rw [cacheHit_eq] at hhit
  rcases lookup_cases c i.req.addr with hn | ⟨w, hw⟩
  · rw [hn] at hhit; cases hhit
  · have hway := hitWay_of_lookup hw
    simp only [hreq, hitWay, Bool.and_eq_true, beq_iff_eq] at hway
    exact recent_hit h (setOf_compareUpdate hw) hway.1 hway.2

/-- The arrival of the latched line. -/
theorem HoldsRecent.fill (h : HoldsRecent c hist) (hv : c.latVictimWay = c.victimWay)
    (hmiss : ¬LruHit hist c.lat) : HoldsRecent (c.fillUpdate i) (hist ++ [c.lat]) :=
  recent_fill h (setOf_fillUpdate hv) hmiss

end Sets

/-! ## Hit flags -/

/-- The hit flag of a response tells whether the line was recently requested. -/
abbrev HitFlagOk (hist : List L1Req) (r : L1Req) (hit : Bool) : Prop :=
  hit = true ↔ LruHit hist r

/-- Where a run stands: the requests `acc` have been accepted, and the hit flags `hits`
    given. `done` are the requests before the one in service.

    * `miss`: the line that is missing was not recently requested, and the way that it
      will be put in is still the victim;
    * `readout`: it is there, but the response is still due. -/
inductive LruPhase (c : L1Cache) (acc : List L1Req) (hits : List Bool) : Prop
  | idle (hst : c.state = .idle) (hlen : hits.length = acc.length) (hrec : HoldsRecent c acc)
  | compare (hst : c.state = .compareTag) (done : List L1Req) (hacc : acc = done ++ [c.lat])
      (hlen : hits.length = done.length) (hrec : HoldsRecent c done)
  | miss (hm : c.inMiss = true) (done : List L1Req) (hacc : acc = done ++ [c.lat])
      (hlen : hits.length = done.length) (hrec : HoldsRecent c done)
      (hv : c.latVictimWay = c.victimWay) (hmiss : ¬LruHit done c.lat)
  | readout (hst : c.state = .readout) (done : List L1Req) (hacc : acc = done ++ [c.lat])
      (hlen : hits.length = done.length) (hrec : HoldsRecent c acc)
      (hmiss : ¬LruHit done c.lat)

/-- All hit flags so far are right, and so will be the one of the request in service. -/
structure LruInv (c : L1Cache) (acc : List L1Req) (hits : List Bool) : Prop where
  answered : Answers.Answered HitFlagOk acc hits
  phase : LruPhase c acc hits

section Flags

variable {c c' : L1Cache} {i : L1In} {acc done : List L1Req} {hits : List Bool}

/-- The invariant holds behind a reset. -/
theorem lruInv_asyncReset (c : L1Cache) : LruInv c.asyncReset [] [] :=
  ⟨Answers.answered_nil, .idle rfl rfl (holdsRecent_asyncReset c)⟩

/-- Where all requests are answered, the next one, if any, is compared next. -/
theorem lruInv_of_ready (hans : Answers.Answered HitFlagOk acc hits)
    (hlen : hits.length = acc.length) (hrec : HoldsRecent c' acc)
    (hst : c'.state = if i.reqValid then .compareTag else .idle)
    (hlat : c'.lat = if i.reqValid then i.req else c.lat) :
    LruInv c' (acc ++ if i.reqValid then [i.req] else []) hits := by
  refine ⟨hans.accept _, ?_⟩
  cases hv : i.reqValid with
  | true =>
    rw [hv] at hst hlat
    exact .compare hst acc (by rw [hlat]; rfl) hlen hrec
  | false =>
    rw [hv] at hst
    have hnil : (acc ++ if false = true then [i.req] else []) = acc := List.append_nil acc
    rw [hnil]
    exact .idle hst hlen hrec

/-- The tag compare of the request in service. -/
theorem LruInv.next_of_compare (hans : Answers.Answered HitFlagOk (done ++ [c.lat]) hits)
    (hst : c.state = .compareTag) (hlen : hits.length = done.length) (hrec : HoldsRecent c done)
    (hreq : i.req.addr = c.lat.addr) :
    LruInv (c.next 2 i) (done ++ [c.lat] ++ if c.accepts 2 i then [i.req] else [])
      (hits ++ if c.responds 2 i then [(c.out 2 i.req.addr).respHit] else []) := by
  -- a hit is answered now; a miss waits for its line
  cases hhit : c.cacheHit 2 i.req.addr with
  | true =>
    have hout := @out_of_hit 2 c i.req.addr hst hhit
    have haccepts : c.accepts 2 i = i.reqValid := by rw [accepts, hout, Bool.true_and]
    have hresponds : c.responds 2 i = true := by rw [responds, hout]
    have hflag : (c.out 2 i.req.addr).respHit = true := by rw [hout]
    have hlru : LruHit done c.lat := hrec.cacheHit_iff.mp (hreq ▸ hhit)
    rw [haccepts, hresponds, hflag]
    refine @lruInv_of_ready c (c.next 2 i) i _ _ (hans.respond hlen ?_) ?_ ?_ ?_ ?_
    · exact ⟨fun _ => hlru, fun _ => rfl⟩
    · simp [hlen]
    · rw [next_of_hit hst hhit]
      exact (hrec.hit hreq hhit).congr rfl rfl rfl
    · rw [next_of_hit hst hhit]
    · rw [next_of_hit hst hhit]
  | false =>
    have hout := @out_of_miss 2 c i.req.addr hst hhit
    have haccepts : c.accepts 2 i = false := by rw [accepts, hout, Bool.false_and]
    have hresponds : c.responds 2 i = false := by rw [responds, hout]
    have hmiss : ¬LruHit done c.lat := by
      intro hlru
      rw [hreq, hrec.cacheHit_iff.mpr hlru] at hhit
      cases hhit
    rw [haccepts, hresponds]
    simp only [Bool.false_eq_true, if_false, List.append_nil]
    rw [next_of_miss hst hhit]
    refine ⟨hans, .miss ?_ done rfl hlen (hrec.congr rfl rfl rfl) rfl hmiss⟩
    unfold inMiss
    cases c.victimDirty <;> rfl

/-- One edge between a miss and the response. -/
theorem LruInv.next_of_inMiss (hans : Answers.Answered HitFlagOk (done ++ [c.lat]) hits)
    (hm : c.inMiss = true) (hlen : hits.length = done.length) (hrec : HoldsRecent c done)
    (hv : c.latVictimWay = c.victimWay) (hmiss : ¬LruHit done c.lat) :
    LruInv (c.next 2 i) (done ++ [c.lat] ++ if c.accepts 2 i then [i.req] else [])
      (hits ++ if c.responds 2 i then [(c.out 2 i.req.addr).respHit] else []) := by
  obtain ⟨hready, hresp⟩ := @quiet_of_inMiss 2 c i.req.addr hm
  have haccepts : c.accepts 2 i = false := by rw [accepts, hready, Bool.false_and]
  have hresponds : c.responds 2 i = false := hresp
  rw [haccepts, hresponds]
  simp only [Bool.false_eq_true, if_false, List.append_nil]
  refine ⟨hans, ?_⟩
  by_cases hf : c.state = .fillWait ∧ i.memRespValid = true
  · have hfill : HoldsRecent (c.fillUpdate i) (done ++ [c.lat]) := hrec.fill hv hmiss
    rw [next_of_fillWait hf.1 hf.2]
    exact .readout rfl done rfl hlen (hfill.congr rfl rfl rfl) hmiss
  · rw [L1Cache.next_of_inMiss hm hf]
    refine .miss ?_ done rfl hlen (hrec.congr rfl rfl rfl) hv hmiss
    -- without the line the controller stays in the miss
    unfold inMiss fsm
    cases hst : c.state <;> simp [inMiss, hst] at hm hf ⊢
    · cases i.memReqReady <;> rfl
    · cases i.memWrAck <;> rfl
    · cases i.memReqReady <;> rfl
    · rw [hf]; rfl

/-- **One edge.** -/
theorem LruInv.next (h : LruInv c acc hits) (hheld : AddrHeld i c) :
    LruInv (c.next 2 i) (acc ++ if c.accepts 2 i then [i.req] else [])
      (hits ++ if c.responds 2 i then [(c.out 2 i.req.addr).respHit] else []) := by
  obtain ⟨hans, hphase⟩ := h
  cases hphase with
  | idle hst hlen hrec =>
    have haccepts : c.accepts 2 i = i.reqValid := by
      rw [accepts, out_of_idle hst, Bool.true_and]
    have hresponds : c.responds 2 i = false := by rw [responds, out_of_idle hst]
    rw [haccepts, hresponds]
    simp only [Bool.false_eq_true, if_false, List.append_nil]
    refine @lruInv_of_ready c (c.next 2 i) i _ _ hans hlen ?_ ?_ ?_
    · rw [next_of_idle hst]
      exact hrec.congr rfl rfl rfl
    · rw [next_of_idle hst]
    · rw [next_of_idle hst]
  | compare hst done hacc hlen hrec =>
    subst hacc
    exact LruInv.next_of_compare hans hst hlen hrec (hheld hst)
  | miss hm done hacc hlen hrec hv hmiss =>
    subst hacc
    exact LruInv.next_of_inMiss hans hm hlen hrec hv hmiss
  | readout hst done hacc hlen hrec hmiss =>
    subst hacc
    have hout := @out_of_readout 2 c i.req.addr hst
    have haccepts : c.accepts 2 i = i.reqValid := by rw [accepts, hout, Bool.true_and]
    have hresponds : c.responds 2 i = true := by rw [responds, hout]
    have hflag : (c.out 2 i.req.addr).respHit = false := by rw [hout]
    rw [haccepts, hresponds, hflag]
    -- the response of a miss says miss
    refine @lruInv_of_ready c (c.next 2 i) i _ _ (hans.respond hlen ?_) ?_ ?_ ?_ ?_
    · exact ⟨fun h => (by cases h), fun h => absurd h hmiss⟩
    · simp [hlen]
    · rw [next_of_readout hst]
      exact hrec.congr rfl rfl rfl
    · rw [next_of_readout hst]
    · rw [next_of_readout hst]

/-- Whole runs. -/
theorem lruInv_runFor {ins : Nat → L1In} {n : Nat}
    (hheld : ∀ k < n, AddrHeld (ins k) (runFor 2 ins c.asyncReset k)) :
    LruInv (runFor 2 ins c.asyncReset n) (accepted 2 ins c.asyncReset n)
      (respHits 2 ins c.asyncReset n) := by
  induction n with
  | zero => exact lruInv_asyncReset c
  | succ n ih =>
    exact (ih fun k hk => hheld k (Nat.lt_succ_of_lt hk)).next (hheld n (Nat.lt_succ_self n))

end Flags

end URiscV.Hdl.L1Cache

/-! ## The reference cache of the scoreboard -/

namespace URiscV.Tb.L1cScoreboard

open Hdl (Slot)
open Hdl.L1Cache (tagsOf LruHit recent_hit recent_fill)

/-- A set of the reference cache as a two-way structure. -/
def setOf (s : L1cScoreboard) (set : BitVec 4) : Lru.TwoWay (BitVec 24) where
  valid := fun w => (s.refCache (set, w.toNat)).valid
  tag := fun w => (s.refCache (set, w.toNat)).tag
  lru := s.refLru set

/-- Every set holds the two lines most recently asked of it. -/
def HoldsRecent (s : L1cScoreboard) (hist : List Hdl.L1Req) : Prop :=
  ∀ set, (s.setOf set).Holds (Lru.resident 2 (tagsOf set hist))

section Reference

variable {s : L1cScoreboard} {t : L1cTransaction} {hist : List Hdl.L1Req}

/-- The way of the reference model that hits, if any. -/
theorem hitWay_cases (s : L1cScoreboard) (t : L1cTransaction) :
    (s.hitWay t = none ∧ ∀ w : Bool, (s.refCache (getIndex t.addr, w.toNat)).valid = true →
      (s.refCache (getIndex t.addr, w.toNat)).tag ≠ getTag t.addr) ∨
    ∃ w : Bool, s.hitWay t = some w.toNat ∧
      (s.refCache (getIndex t.addr, w.toNat)).valid = true ∧
      (s.refCache (getIndex t.addr, w.toNat)).tag = getTag t.addr := by
  cases h : s.hitWay t with
  | none =>
    refine .inl ⟨rfl, fun w hv ht => ?_⟩
    have hw := List.find?_eq_none.mp h w.toNat (List.mem_range.mpr (Bool.toNat_lt w))
    simp [hv, ht] at hw
  | some w =>
    have hw := List.find?_some h
    have hlt := List.mem_range.mp (List.mem_of_find?_eq_some h)
    simp only [Bool.and_eq_true, beq_iff_eq] at hw
    -- the search goes over two ways
    obtain ⟨u, rfl⟩ : ∃ u : Bool, w = u.toNat := by
      obtain rfl | rfl : w = 0 ∨ w = 1 := by omega
      · exact ⟨false, rfl⟩
      · exact ⟨true, rfl⟩
    exact .inr ⟨u, rfl, hw⟩

/-- The predicted flag, when the sets hold what was recently requested. -/
theorem HoldsRecent.expHit_iff (h : HoldsRecent s hist) :
    s.expHit t = true ↔ LruHit hist t.req := by
  have hmem : LruHit hist t.req ↔ ∃ w : Bool,
      (s.refCache (getIndex t.addr, w.toNat)).valid = true ∧
        (s.refCache (getIndex t.addr, w.toNat)).tag = getTag t.addr :=
    (h (getIndex t.addr)).mem_iff
  rw [hmem, expHit]
  rcases hitWay_cases s t with ⟨hn, hmiss⟩ | ⟨w, hw, hhit⟩
  · rw [hn]
    constructor
    · intro h; cases h
    · rintro ⟨w, hv, ht⟩
      exact absurd ht (hmiss w hv)
  · rw [hw]
    exact ⟨fun _ => ⟨w, hhit⟩, fun _ => rfl⟩

/-- A hit of the reference model, in its set. -/
theorem setOf_writeHit (w : Bool) (set : BitVec 4) : (s.writeHit t w.toNat).setOf set =
    if set = getIndex t.addr then (s.setOf set).hit w else s.setOf set := by
  -- a write changes data and dirty bit of the way only
  have hcache (u : Bool) : ((s.writeHit t w.toNat).refCache (set, u.toNat)).valid =
        (s.refCache (set, u.toNat)).valid ∧
      ((s.writeHit t w.toNat).refCache (set, u.toNat)).tag = (s.refCache (set, u.toNat)).tag := by
    cases hwr : t.wr with
    | false => simp [writeHit, hwr]
    | true =>
      simp only [writeHit, hwr, if_true, Hdl.L1Cache.update_slot]
      split
      · next h => rw [h.1, h.2]; exact ⟨rfl, rfl⟩
      · exact ⟨rfl, rfl⟩
  have hbit : w.toNat.testBit 0 = w := by cases w <;> rfl
  simp only [setOf, hcache]
  by_cases hset : set = getIndex t.addr
  · subst hset
    simp only [if_true, writeHit, Function.update_self, hbit]
    rfl
  · simp only [if_neg hset, writeHit, Function.update_of_ne hset]

/-- A miss of the reference model, in its set. -/
theorem setOf_writeMiss (set : BitVec 4) : (s.writeMiss t).setOf set =
    if set = getIndex t.addr then (s.setOf set).fill (getTag t.addr) else s.setOf set := by
  simp only [setOf, writeMiss, victimSlot, Hdl.L1Cache.update_slot]
  by_cases hset : set = getIndex t.addr
  · subst hset
    simp only [true_and, if_true, Function.update_self]
    rw [Lru.TwoWay.fill, Lru.TwoWay.mk.injEq]
    refine ⟨?_, ?_, rfl⟩
    all_goals
      funext w
      by_cases hw : w = s.refLru (getIndex t.addr)
      · subst hw
        simp
      · simp [hw]
  · simp only [hset, false_and, if_false, Function.update_of_ne hset]

/-- One transaction. -/
theorem HoldsRecent.write (h : HoldsRecent s hist) : HoldsRecent (s.write t) (hist ++ [t.req]) := by
  -- the verdict only counts
  have hverdict (set : BitVec 4) : (s.write t).setOf set = (s.reference t).setOf set := by
    unfold L1cScoreboard.write
    split_ifs
    all_goals rfl
  have hmem := h.expHit_iff (t := t)
  rcases hitWay_cases s t with ⟨hn, hmiss⟩ | ⟨w, hw, hv, ht⟩
  · have hlru : ¬LruHit hist t.req := by
      rw [← hmem, expHit, hn]
      exact Bool.false_ne_true
    have hsets (set : BitVec 4) : (s.write t).setOf set =
        if set = getIndex t.addr then (s.setOf set).fill (getTag t.addr) else s.setOf set := by
      rw [hverdict, reference, hn]
      exact setOf_writeMiss set
    exact recent_fill h hsets hlru
  · have hsets (set : BitVec 4) : (s.write t).setOf set =
        if set = getIndex t.addr then (s.setOf set).hit w else s.setOf set := by
      rw [hverdict, reference, hw]
      exact setOf_writeHit w set
    exact recent_hit h hsets hv ht

/-- Behind any transactions the reference model holds the lines most recently asked for. -/
theorem HoldsRecent.foldl (h : HoldsRecent s hist) (ts : List L1cTransaction) :
    HoldsRecent (ts.foldl L1cScoreboard.write s) (hist ++ ts.map L1cTransaction.req) := by
  induction ts generalizing s hist with
  | nil => simpa using h
  | cons t ts ih =>
    have hts := ih (s := s.write t) h.write
    rw [List.append_assoc] at hts
    exact hts

end Reference

/-- At the start it holds none. -/
theorem holdsRecent_buildPhase : HoldsRecent buildPhase [] := fun _ => .empty fun _ => rfl

end URiscV.Tb.L1cScoreboard

/-! ## The cache and the scoreboard -/

namespace URiscV.Hdl.L1Cache

open Tb (L1cTransaction L1cScoreboard)

/-- **Exact LRU hits.** Take any run from reset in which the address of the request in
    service is held during `L1_COMPARE_TAG`: the hit flag of its `k`-th response is set
    exactly when the line of the `k`-th accepted request is one of the two that the
    requests accepted before it have most recently asked of its set. The scoreboard
    predicts the same of every sequence of transactions. -/
theorem respHit_iff_lruHit (c : L1Cache) (ins : Nat → L1In) (n : Nat)
    (hheld : ∀ k < n, AddrHeld (ins k) (runFor 2 ins c.asyncReset k)) :
    Answers.Answered (fun hist r hit => hit = true ↔ LruHit hist r)
      (accepted 2 ins c.asyncReset n) (respHits 2 ins c.asyncReset n) ∧
    ∀ (ts : List L1cTransaction) (t : L1cTransaction),
      (ts.foldl L1cScoreboard.write L1cScoreboard.buildPhase).expHit t = true ↔
        LruHit (ts.map L1cTransaction.req) t.req := by
  refine ⟨(lruInv_runFor hheld).answered, fun ts t => ?_⟩
  have hts := L1cScoreboard.holdsRecent_buildPhase.foldl ts
  exact hts.expHit_iff

/-- The second read of line 0 is a hit, since the first one asked for it. -/
theorem respHit_readZero :
    (respHits 2 (fun _ => readZero) blank.asyncReset 6)[1]? = some true ∧
    LruHit ((accepted 2 (fun _ => readZero) blank.asyncReset 6).take 1) readZero.req :=
  ⟨by decide, ((respHit_iff_lruHit blank (fun _ => readZero) 6
    (by simp only [AddrHeld]; decide)).1.2 1 readZero.req true (by decide) (by decide)).mp rfl⟩

end URiscV.Hdl.L1Cache
