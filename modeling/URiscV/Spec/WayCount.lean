import Mathlib.Data.Finset.Card
import URiscV.Spec.CacheLru
import URiscV.Spec.OneHot

/-!
# The ways in use

Tag comparison and `onehot2bin` scale with `NUM_WAYS`, but the victim is named by a single
bit whatever the number of ways. So only the first two ways of a set are ever filled, and
the cache with more ways is the two-way cache: a third line takes the place of one of two
while all other ways stay invalid.

## Key results

- `runFor_eq_two` / `answered_eq_two`: more ways change nothing
- `usesAllWays_iff`: when the ways are enough
-/

namespace URiscV.Hdl.L1Cache

/-! ## Ways that a bit can name -/

/-- Only the first two ways hold lines. -/
def TwoWays (c : L1Cache) : Prop := ∀ s, c.validRam s = true → s.2 < 2

section TwoWays

variable {numWays : Nat} {c : L1Cache} {i : L1In} {addr : BitVec 32}

/-- A cleared directory is one of two ways. -/
theorem twoWays_asyncReset (c : L1Cache) : TwoWays c.asyncReset := fun _ h => by cases h

/-- A fill validates the way that the victim bit names. -/
theorem TwoWays.next (h : TwoWays c) : TwoWays (c.next numWays i) := by
  by_cases hf : c.state = .fillWait ∧ i.memRespValid = true
  · rw [next_of_fillWait hf.1 hf.2]
    intro s hs
    by_cases hslot : s = c.fillSlot
    · rw [hslot]
      exact Bool.toNat_lt _
    -- any other slot was valid before
    · have hsame : (c.fillUpdate i).validRam s = c.validRam s := Function.update_of_ne hslot _ _
      exact h s (hsame.symm.trans hs)
  · intro s hs
    rw [(next_dir_of_not_fill hf).1] at hs
    exact h s hs

/-- No way from the third on hits. -/
theorem TwoWays.hitWay_of_ge (h : TwoWays c) {w : Nat} (hw : 2 ≤ w) : c.hitWay addr w = false := by
  have hv : c.validRam (index addr, w) = false := by
    rw [← Bool.not_eq_true]
    exact fun hv => absurd (h _ hv) (Nat.not_lt.mpr hw)
  rw [hitWay, hv, Bool.false_and]

/-- The highest way that hits is the one of `lookup`. -/
theorem TwoWays.highest (h : TwoWays c) (hn : 2 ≤ numWays) {w : Nat}
    (hw : c.lookup addr = some w) : Highest (c.hitWayOnehot numWays addr) numWays w where
  lt := Nat.lt_of_lt_of_le (lookup_lt hw) hn
  set := by
    rw [getLsbD_hitWayOnehot, hitWay_of_lookup hw]
    simpa using Nat.lt_of_lt_of_le (lookup_lt hw) hn
  above := by
    intro j hj _
    rw [getLsbD_hitWayOnehot]
    -- a way above is the other one of two, or never valid
    by_cases hj2 : 2 ≤ j
    · rw [h.hitWay_of_ge hj2, Bool.and_false]
    · -- way 1 is looked up before way 0
      obtain rfl : j = 1 := by omega
      obtain rfl : w = 0 := by omega
      unfold lookup at hw
      split at hw
      · cases hw
      · next h1 => simp [h1]

/-- Two ways decide whether there is a hit. -/
theorem TwoWays.cacheHit_eq (h : TwoWays c) (hn : 2 ≤ numWays) :
    c.cacheHit numWays addr = c.cacheHit 2 addr := by
  rw [L1Cache.cacheHit_eq]
  cases hw : c.lookup addr with
  | some w =>
    -- a hit: the bit of its way is set
    have hset := (h.highest hn hw).set
    rw [cacheHit, Option.isSome_some, bne_iff_ne]
    intro h0
    rw [h0] at hset
    simp at hset
  | none =>
    -- a miss: no bit is set, and those of the ways above never are
    have h0 : c.hitWayOnehot numWays addr = 0 := by
      apply BitVec.eq_of_getLsbD_eq
      intro j _
      have hj : c.hitWay addr j = false := by
        by_cases hj2 : 2 ≤ j
        · exact h.hitWay_of_ge hj2
        · exact hitWay_of_lookup_none hw (by omega)
      rw [getLsbD_hitWayOnehot, hj, Bool.and_false]
      exact BitVec.getLsbD_zero.symm
    rw [cacheHit, h0]
    rfl

/-- And which way it is in. -/
theorem TwoWays.toNat_hitWayVal (h : TwoWays c) (hn : 2 ≤ numWays)
    (hhit : c.cacheHit 2 addr = true) :
    (c.hitWayVal numWays addr).toNat = (c.hitWayVal 2 addr).toNat := by
  rw [L1Cache.cacheHit_eq] at hhit
  obtain ⟨w, hw⟩ := Option.isSome_iff_exists.mp hhit
  rw [hitWayVal, hitWayVal, onehot2bin_of_highest (h.highest hn hw),
    onehot2bin_of_highest (h.highest (Nat.le_refl 2) hw)]

/-- The ports show what the two-way cache shows. -/
theorem TwoWays.out_eq (h : TwoWays c) (hn : 2 ≤ numWays) : c.out numWays addr = c.out 2 addr := by
  simp only [out, h.cacheHit_eq hn]
  cases hhit : c.cacheHit 2 addr with
  | true => simp only [hitSlot, h.toNat_hitWayVal hn hhit]
  | false => rfl

/-- An edge does what it does in the two-way cache. -/
theorem TwoWays.next_eq (h : TwoWays c) (hn : 2 ≤ numWays) : c.next numWays i = c.next 2 i := by
  have hfsm : c.fsm numWays i = c.fsm 2 i := by simp only [fsm, h.cacheHit_eq hn]
  have hupd : c.compareUpdate numWays i = c.compareUpdate 2 i := by
    simp only [compareUpdate, h.cacheHit_eq hn]
    cases hhit : c.cacheHit 2 i.req.addr with
    | true =>
      have hval := h.toNat_hitWayVal hn hhit
      have hbit : (c.hitWayVal numWays i.req.addr).getLsbD 0 =
          (c.hitWayVal 2 i.req.addr).getLsbD 0 := by
        rw [← BitVec.testBit_toNat, ← BitVec.testBit_toNat, hval]
      simp only [hitSlot, hval, hbit]
    | false => rfl
  simp only [L1Cache.next, dataUpdate, hfsm, hupd, h.out_eq hn]

end TwoWays

/-! ## Runs -/

/-- The requests answered in the first `n` cycles. -/
def answered (numWays : Nat) (ins : Nat → L1In) (c : L1Cache) (n : Nat) : List L1Req :=
  (accepted numWays ins c n).take (respHits numWays ins c n).length

section Runs

variable {numWays : Nat} {c : L1Cache} {ins : Nat → L1In}

/-- A run from a reset fills the first two ways only. -/
theorem twoWays_runFor (n : Nat) : TwoWays (runFor numWays ins c.asyncReset n) :=
  Clocked.run_invariant (twoWays_asyncReset c) (fun _ _ h => h.next) n

/-- And is the run of a cache of two ways. -/
theorem runFor_eq_two (hn : 2 ≤ numWays) (n : Nat) :
    runFor numWays ins c.asyncReset n = runFor 2 ins c.asyncReset n := by
  induction n with
  | zero => rfl
  | succ n ih =>
    rw [runFor, Clocked.run_succ, (twoWays_runFor n).next_eq hn]
    exact congrArg _ ih

/-- With the same answers. -/
theorem answered_eq_two (hn : 2 ≤ numWays) (n : Nat) :
    answered numWays ins c.asyncReset n = answered 2 ins c.asyncReset n := by
  have hlogs : accepted numWays ins c.asyncReset n = accepted 2 ins c.asyncReset n ∧
      respHits numWays ins c.asyncReset n = respHits 2 ins c.asyncReset n := by
    -- both caches are in one state, and their outputs there agree
    induction n with
    | zero => exact ⟨rfl, rfl⟩
    | succ n ih =>
      have hout := @TwoWays.out_eq numWays (runFor 2 ins c.asyncReset n) (ins n).req.addr
        (twoWays_runFor n) hn
      have hrun := @runFor_eq_two numWays c ins hn n
      rw [accepted, accepted, respHits, respHits] at ih ⊢
      rw [Clocked.log_succ, Clocked.log_succ, Clocked.log_succ, Clocked.log_succ, ih.1, ih.2]
      rw [show Clocked.run _ ins c.asyncReset n = _ from hrun]
      simp only [accepts, responds, hout]
      exact ⟨rfl, rfl⟩
  rw [answered, answered, hlogs.1, hlogs.2]

end Runs

/-! ## Lines of a set -/

/-- The tags that have been asked of a set. -/
def askedTags (set : BitVec 4) (hist : List L1Req) : Finset (BitVec 24) :=
  (tagsOf set hist).toFinset

/-- The tags that the valid ways of a set hold. -/
def heldTags (numWays : Nat) (c : L1Cache) (set : BitVec 4) : Finset (BitVec 24) :=
  ((Finset.range numWays).filter fun w => c.validRam (set, w) = true).image
    fun w => c.tagRam (set, w)

/-- All ways of a set are put to use, when the requests `hist` have been answered: a fill
    takes a valid way only if no way is left, and no set holds fewer lines than were asked
    of it and fit in. -/
structure UsesAllWays (numWays : Nat) (i : L1In) (hist : List L1Req) (c : L1Cache) : Prop where
  fill : c.state = .fillWait → i.memRespValid = true → c.validRam c.fillSlot = true →
    ∀ w < numWays, c.validRam (c.latIndex, w) = true
  retains : ∀ set, min numWays (askedTags set hist).card ≤ (heldTags numWays c set).card

section Lines

variable {numWays : Nat} {c : L1Cache} {set : BitVec 4} {hist : List L1Req}

/-- The first two ways are all that a set holds. -/
theorem TwoWays.card_heldTags_le (h : TwoWays c) : (heldTags numWays c set).card ≤ 2 := by
  -- however many ways there are, the valid ones are the first two
  have hsub : ((Finset.range numWays).filter fun w => c.validRam (set, w) = true) ⊆
      Finset.range 2 := by
    intro w hw
    exact Finset.mem_range.mpr (h _ (Finset.mem_filter.mp hw).2)
  calc (heldTags numWays c set).card
      ≤ ((Finset.range numWays).filter fun w => c.validRam (set, w) = true).card :=
        Finset.card_image_le
    _ ≤ (Finset.range 2).card := Finset.card_le_card hsub
    _ = 2 := Finset.card_range 2

/-- The tags asked for are those in the order of recency. -/
theorem card_askedTags : (askedTags set hist).card = (Lru.order (tagsOf set hist)).length := by
  have heq : askedTags set hist = (Lru.order (tagsOf set hist)).toFinset := by
    ext t
    rw [askedTags, List.mem_toFinset, List.mem_toFinset, Lru.mem_order]
  rw [heq, List.toFinset_card_of_nodup (Lru.nodup_order _)]

/-- A set that holds what was recently asked of it holds two lines, if that many were
    asked for. -/
theorem HoldsRecent.le_card_heldTags (h : HoldsRecent c hist) (hn : 2 ≤ numWays) :
    min 2 (askedTags set hist).card ≤ (heldTags numWays c set).card := by
  have hsub : (Lru.resident 2 (tagsOf set hist)).toFinset ⊆ heldTags numWays c set := by
    intro t ht
    obtain ⟨w, hv, htag⟩ := (h set).mem_iff.mp (List.mem_toFinset.mp ht)
    have hw : w.toNat < numWays := Nat.lt_of_lt_of_le (Bool.toNat_lt w) hn
    exact Finset.mem_image.mpr
      ⟨w.toNat, Finset.mem_filter.mpr ⟨Finset.mem_range.mpr hw, hv⟩, htag⟩
  calc min 2 (askedTags set hist).card
      = (Lru.resident 2 (tagsOf set hist)).length := by
        rw [card_askedTags, Lru.resident, List.length_take]
    _ = (Lru.resident 2 (tagsOf set hist)).toFinset.card :=
        (List.toFinset_card_of_nodup (Lru.nodup_resident 2 _)).symm
    _ ≤ (heldTags numWays c set).card := Finset.card_le_card hsub

/-- A request of another set asks for nothing. -/
theorem askedTags_concat_of_ne {r : L1Req} (h : set ≠ index r.addr) :
    askedTags set (hist ++ [r]) = askedTags set hist := by
  rw [askedTags, tagsOf_concat, if_neg h, askedTags]

/-- A request of the set asks for its tag. -/
theorem askedTags_concat_self (hist : List L1Req) (r : L1Req) :
    askedTags (index r.addr) (hist ++ [r]) =
      insert (tag r.addr) (askedTags (index r.addr) hist) := by
  rw [askedTags, tagsOf_concat, if_pos rfl, List.toFinset_append, askedTags, Finset.union_comm]
  rfl

/-- What was asked for stays so. -/
theorem askedTags_subset_concat (hist : List L1Req) (r : L1Req) :
    askedTags set hist ⊆ askedTags set (hist ++ [r]) := by
  by_cases h : set = index r.addr
  · subst h
    rw [askedTags_concat_self]
    exact Finset.subset_insert _ _
  · rw [askedTags_concat_of_ne h]

/-- Where the victim is valid, both ways are, and two lines have been asked for. -/
theorem HoldsRecent.full_of_victim (h : HoldsRecent c hist)
    (hv : c.validRam (set, (c.lruRam set).toNat) = true) :
    (∀ w < 2, c.validRam (set, w) = true) ∧
      (Lru.resident 2 (tagsOf set hist)).length = 2 := by
  obtain ⟨hboth, hlen⟩ := Lru.TwoWay.Holds.full_of_victim (h set) hv
  refine ⟨fun w hw => ?_, hlen⟩
  obtain rfl | rfl : w = 0 ∨ w = 1 := by omega
  · exact hboth false
  · exact hboth true

/-- A line that is not one of the two most recent ones is a third line. -/
theorem card_askedTags_concat {r : L1Req} (hmiss : ¬LruHit hist r)
    (htwo : (Lru.resident 2 (tagsOf (index r.addr) hist)).length = 2) :
    2 < (askedTags (index r.addr) (hist ++ [r])).card := by
  have hnot : tag r.addr ∉ (Lru.resident 2 (tagsOf (index r.addr) hist)).toFinset :=
    fun h => hmiss (List.mem_toFinset.mp h)
  have hsub : (Lru.resident 2 (tagsOf (index r.addr) hist)).toFinset ⊆
      askedTags (index r.addr) hist := by
    intro t ht
    exact List.mem_toFinset.mpr (Lru.mem_of_mem_resident (List.mem_toFinset.mp ht))
  have hcard := Finset.card_le_card (Finset.insert_subset_insert (tag r.addr) hsub)
  rw [Finset.card_insert_of_notMem hnot, List.toFinset_card_of_nodup (Lru.nodup_resident 2 _),
    htwo] at hcard
  rw [askedTags_concat_self]
  omega

end Lines

/-! ## Fills and answers -/

section Answered

variable {c : L1Cache} {ins : Nat → L1In} {n : Nat} {set : BitVec 4}

/-- Each set holds two of the lines that answered requests have asked of it, if there are
    that many. -/
theorem min_card_askedTags_le {numWays : Nat} (hn : 2 ≤ numWays)
    (hheld : ∀ k < n, AddrHeld (ins k) (runFor 2 ins c.asyncReset k)) :
    min 2 (askedTags set (answered 2 ins c.asyncReset n)).card ≤
      (heldTags numWays (runFor 2 ins c.asyncReset n) set).card := by
  -- the answered requests are the accepted ones, or all of them but the one in service
  have hphase := (lruInv_runFor hheld).phase
  generalize hacc : accepted 2 ins c.asyncReset n = acc at hphase
  generalize hhits : respHits 2 ins c.asyncReset n = hits at hphase
  rw [answered, hacc, hhits]
  cases hphase with
  | idle hst hlen hrec =>
    rw [hlen, List.take_length]
    exact hrec.le_card_heldTags hn
  | compare hst done hdone hlen hrec =>
    rw [hdone, hlen, List.take_left']
    · exact hrec.le_card_heldTags hn
    · rfl
  | miss hm done hdone hlen hrec hv hmiss =>
    rw [hdone, hlen, List.take_left']
    · exact hrec.le_card_heldTags hn
    · rfl
  | readout hst done hdone hlen hrec hmiss =>
    -- the line that was read out is there before its request is answered
    have hmono := Finset.card_le_card
      (@askedTags_subset_concat set done (runFor 2 ins c.asyncReset n).lat)
    have hle : min 2 (askedTags set acc).card ≤
        (heldTags numWays (runFor 2 ins c.asyncReset n) set).card := hrec.le_card_heldTags hn
    rw [hdone] at hle ⊢
    rw [hlen, List.take_left']
    · omega
    · rfl

/-- The request of a fill is answered in the next cycle. -/
theorem answered_of_fill (hst : (runFor 2 ins c.asyncReset n).state = .fillWait)
    (hr : (ins n).memRespValid = true) {done : List L1Req} {r : L1Req}
    (hacc : accepted 2 ins c.asyncReset n = done ++ [r])
    (hlen : (respHits 2 ins c.asyncReset n).length = done.length) :
    answered 2 ins c.asyncReset (n + 2) = done ++ [r] := by
  have hst' : (runFor 2 ins c.asyncReset (n + 1)).state = .readout := by
    show ((runFor 2 ins c.asyncReset n).next 2 (ins n)).state = .readout
    rw [next_of_fillWait hst hr]
  -- nothing is accepted or answered in the cycle of the fill
  have hacc' : accepted 2 ins c.asyncReset (n + 1) = done ++ [r] := by
    rw [accepted] at hacc ⊢
    rw [Clocked.log_succ, hacc]
    simp [accepts, out_of_fillWait hst]
  have hlen' : (respHits 2 ins c.asyncReset (n + 1)).length = done.length := by
    rw [respHits] at hlen ⊢
    rw [Clocked.log_succ, List.length_append, hlen]
    simp [responds, out_of_fillWait hst]
  have hlen'' : (respHits 2 ins c.asyncReset (n + 2)).length = (done ++ [r]).length := by
    rw [respHits] at hlen' ⊢
    rw [Clocked.log_succ, List.length_append, hlen']
    simp [responds, out_of_readout hst']
  have hpre : accepted 2 ins c.asyncReset (n + 1) <+: accepted 2 ins c.asyncReset (n + 2) :=
    Clocked.log_prefix (Nat.le_succ (n + 1))
  obtain ⟨more, hmore⟩ := hpre
  have hacc'' : accepted 2 ins c.asyncReset (n + 2) = done ++ [r] ++ more := by
    rw [← hacc']
    exact hmore.symm
  rw [answered, hlen'', hacc'', List.take_left']
  rfl

/-- A fill that takes a valid way is for a third line of its set. -/
theorem third_line_of_fill (hheld : ∀ k < n, AddrHeld (ins k) (runFor 2 ins c.asyncReset k))
    (hst : (runFor 2 ins c.asyncReset n).state = .fillWait)
    (hr : (ins n).memRespValid = true)
    (hvalid :
      (runFor 2 ins c.asyncReset n).validRam (runFor 2 ins c.asyncReset n).fillSlot = true) :
    (∀ w < 2, (runFor 2 ins c.asyncReset n).validRam
      ((runFor 2 ins c.asyncReset n).latIndex, w) = true) ∧
    ∃ set, 2 < (askedTags set (answered 2 ins c.asyncReset (n + 2))).card := by
  -- only a request that missed gets to a fill
  have hphase := (lruInv_runFor hheld).phase
  cases hphase with
  | miss hm done hacc hlen hrec hv hmiss =>
    rw [fillSlot, hv] at hvalid
    obtain ⟨hways, htwo⟩ := hrec.full_of_victim hvalid
    refine ⟨hways, (runFor 2 ins c.asyncReset n).latIndex, ?_⟩
    rw [answered_of_fill hst hr hacc hlen]
    exact card_askedTags_concat hmiss htwo
  | idle hst' | compare hst' | readout hst' => rw [hst] at hst'; cases hst'

end Answered

/-- **Use of the ways.** Take a cache of `2 ^ k` ways, `k` at least 1, and any run from
    reset in which the address of the request in service is held during
    `L1_COMPARE_TAG`. In all its states a fill takes a valid way only if no way of the set
    is left, and each set holds all lines that answered requests have asked of it, or
    `2 ^ k` lines if these are more, if and only if there are two ways or no set is ever
    asked for more than two lines. -/
theorem usesAllWays_iff (k : Nat) (hk : 1 ≤ k) (c : L1Cache) (ins : Nat → L1In)
    (hheld : ∀ n, AddrHeld (ins n) (runFor (2 ^ k) ins c.asyncReset n)) :
    (∀ n, UsesAllWays (2 ^ k) (ins n) (answered (2 ^ k) ins c.asyncReset n)
      (runFor (2 ^ k) ins c.asyncReset n)) ↔
    k = 1 ∨ ∀ n set, (askedTags set (answered (2 ^ k) ins c.asyncReset n)).card ≤ 2 := by
  have hpow : 2 ≤ 2 ^ k := Nat.le_self_pow (by omega) 2
  simp only [answered_eq_two hpow, runFor_eq_two hpow] at hheld ⊢
  constructor
  · intro h
    by_cases hk1 : k = 1
    · exact .inl hk1
    · -- four ways or more, and two lines in them
      right
      intro n set
      have hfour : 2 ^ 2 ≤ 2 ^ k := Nat.pow_le_pow_right (by omega) (by omega)
      have hretains := (h n).retains set
      have htwo : (heldTags (2 ^ k) (runFor 2 ins c.asyncReset n) set).card ≤ 2 :=
        (twoWays_runFor n).card_heldTags_le
      omega
  · intro h n
    constructor
    -- a fill that takes a valid way asks for a third line
    · intro hst hr hvalid
      obtain ⟨hways, set, hset⟩ := third_line_of_fill (fun j _ => hheld j) hst hr hvalid
      rcases h with rfl | h
      · exact hways
      · exact absurd (h (n + 2) set) (Nat.not_le.mpr hset)
    · intro set
      have hle : min 2 (askedTags set (answered 2 ins c.asyncReset n)).card ≤
          (heldTags (2 ^ k) (runFor 2 ins c.asyncReset n) set).card :=
        min_card_askedTags_le hpow fun j _ => hheld j
      rcases h with rfl | h
      · exact hle
      · have hset := h n set
        omega

/-- Reads of three lines of set 0, the last one again and again, with a memory that
    answers at once. -/
def threeLines (n : Nat) : L1In :=
  { readZero with
    req := { addr := if n < 4 then 0 else if n < 8 then 0x100 else 0x200,
             wr := false, wdata := 0, wmask := 0 } }

/-- The address of the request in service is held. -/
theorem addrHeld_threeLines {numWays : Nat}
    (hstart : ∀ n ≤ 8, AddrHeld (threeLines n) (runFor numWays threeLines blank.asyncReset n))
    (hlat : (runFor numWays threeLines blank.asyncReset 9).lat.addr = 0x200) (n : Nat) :
    AddrHeld (threeLines n) (runFor numWays threeLines blank.asyncReset n) := by
  rcases Nat.lt_or_ge 8 n with hn | hn
  · have haddr {m : Nat} (hm : 8 ≤ m) : (threeLines m).req.addr = 0x200 := by
      rw [threeLines]
      show (if m < 4 then 0 else if m < 8 then 0x100 else 0x200 : BitVec 32) = 0x200
      rw [if_neg (by omega), if_neg (by omega)]
    -- from cycle 9 on the third line is all that is latched
    have hlat' : (runFor numWays threeLines blank.asyncReset n).lat.addr = 0x200 := by
      induction n, hn using Nat.le_induction with
      | base => exact hlat
      | succ n hn ih =>
        show (if (runFor numWays threeLines blank.asyncReset n).accepts numWays (threeLines n) then
          (threeLines n).req else (runFor numWays threeLines blank.asyncReset n).lat).addr = 0x200
        split
        · exact haddr (Nat.le_of_succ_le hn)
        · exact ih
    intro _
    rw [haddr (Nat.le_of_lt hn), hlat']
  · exact hstart n hn

/-- Two ways hold two of the three lines. -/
theorem usesAllWays_threeLines :
    2 ≤ (heldTags (2 ^ 1) (runFor (2 ^ 1) threeLines blank.asyncReset 13) 0).card := by
  have hheld := @addrHeld_threeLines (2 ^ 1) (by simp only [AddrHeld]; decide) (by decide)
  have h := ((usesAllWays_iff 1 (Nat.le_refl 1) blank threeLines hheld).mpr (.inl rfl) 13).retains 0
  exact Nat.le_trans (by decide) h

/-- Of four ways, the third line takes one of the two that are valid, and two are left. -/
theorem not_usesAllWays_threeLines :
    (∀ n, AddrHeld (threeLines n) (runFor (2 ^ 2) threeLines blank.asyncReset n)) ∧
    ¬∀ n, UsesAllWays (2 ^ 2) (threeLines n) (answered (2 ^ 2) threeLines blank.asyncReset n)
      (runFor (2 ^ 2) threeLines blank.asyncReset n) := by
  refine ⟨addrHeld_threeLines (by simp only [AddrHeld]; decide) (by decide), fun h => ?_⟩
  have hway := (h 11).fill (by decide) (by decide) (by decide) 2 (by decide)
  revert hway
  decide

end URiscV.Hdl.L1Cache
