import URiscV.Spec.CacheEdge
import URiscV.Spec.CacheLookup

/-!
# Reset hides the earlier contents of the cache

Two caches that have just been reset differ in whatever the reset leaves alone:
tags, data, LRU bits and `lat_victim_way`. The LRU bits are visible in a way: they
decide which way a fill goes to. So two runs on the same inputs place the same
line in different ways, and are alike up to a swap `p set` of the two ways of
each set, the exclusive or of the LRU bits they started with, which no edge
changes. Ways that are not valid are not compared.

## Key results

- `DirInv.next`: no line is in both ways of its set
- `Alike.next`: one edge keeps two runs alike
- `out_eq_of_reset`: same inputs, same outputs
-/

namespace URiscV.Hdl.L1Cache

/-! ## Slots of two-way sets -/

/-- A RAM after the write of one slot. -/
theorem update_slot {α : Type} (f : Slot → α) (s set : BitVec 4) (w u : Bool) (v : α) :
    Function.update f (s, w.toNat) v (set, u.toNat) =
      if set = s ∧ u = w then v else f (set, u.toNat) := by
  by_cases h : set = s ∧ u = w
  · obtain ⟨rfl, rfl⟩ := h
    simp
  · have hne : (set, u.toNat) ≠ (s, w.toNat) := by
      intro heq
      obtain ⟨hs, hw⟩ := Prod.mk.inj heq
      refine h ⟨hs, ?_⟩
      cases u <;> cases w <;> simp at hw ⊢
    rw [Function.update_of_ne hne, if_neg h]

/-- The same, as seen from a set. -/
theorem update_way {α : Type} (f : Slot → α) (s set : BitVec 4) (w : Bool) (v : α) :
    (fun u : Bool => Function.update f (s, w.toNat) v (set, u.toNat)) =
      if set = s then Function.update (fun u : Bool => f (set, u.toNat)) w v
      else fun u => f (set, u.toNat) := by
  funext u
  rw [update_slot]
  by_cases hset : set = s
  · by_cases hw : u = w
    · subst hw
      rw [if_pos ⟨hset, rfl⟩, if_pos hset, Function.update_self]
    · rw [if_neg fun h => hw h.2, if_pos hset, Function.update_of_ne hw]
  · rw [if_neg fun h => hset h.1, if_neg hset]

/-- Swapped ways correspond when the ways do. -/
theorem swap_eq_iff (p : BitVec 4 → Bool) (s set : BitVec 4) (w u : Bool) :
    (set = s ∧ (p set ^^ u) = (p s ^^ w)) ↔ set = s ∧ u = w := by
  constructor
  · rintro ⟨rfl, h⟩
    exact ⟨rfl, by simpa using h⟩
  · rintro ⟨rfl, rfl⟩
    exact ⟨rfl, rfl⟩

/-- Two swaps are none. -/
theorem swap_swap (a b : Bool) : (a ^^ (a ^^ b)) = b := by
  cases a <;> cases b <;> rfl

/-- A lookup finds a way, or none. -/
theorem lookup_cases (c : L1Cache) (addr : BitVec 32) :
    c.lookup addr = none ∨ ∃ w : Bool, c.lookup addr = some w.toNat := by
  unfold lookup
  split
  · exact .inr ⟨true, rfl⟩
  · split
    · exact .inr ⟨false, rfl⟩
    · exact .inl rfl

/-! ## One directory -/

/-- A line is in at most one way; from the miss to the fill, the latched line is
    in none; what is written back, and what is read out, is valid. -/
structure DirInv (c : L1Cache) : Prop where
  unique : ∀ set (w u : Bool), c.validRam (set, w.toNat) = true → c.validRam (set, u.toNat) = true →
    c.tagRam (set, w.toNat) = c.tagRam (set, u.toNat) → w = u
  miss : c.inMiss = true → ∀ w : Bool, c.hitWay c.lat.addr w.toNat = false
  victim : c.state = .writeback → c.validRam c.victimSlot = true
  filled : c.state = .readout → c.validRam c.fillSlot = true

/-- The address of the request in service is held on the inputs. -/
def AddrHeld (i : L1In) (c : L1Cache) : Prop := c.state = .compareTag → i.req.addr = c.lat.addr

/-- Behind a reset no way is valid. -/
theorem dirInv_asyncReset (c : L1Cache) : DirInv c.asyncReset where
  unique := fun _ _ _ h => by cases h
  miss := fun h => by cases h
  victim := fun h => by cases h
  filled := fun h => by cases h

section Dir

variable {c : L1Cache} {i : L1In}

/-- With one way at most, the lookup finds the way that hits. -/
theorem DirInv.lookup_iff (h : DirInv c) {addr : BitVec 32} {w : Bool} :
    c.lookup addr = some w.toNat ↔ c.hitWay addr w.toNat = true := by
  constructor
  · exact hitWay_of_lookup
  · intro hw
    rcases lookup_cases c addr with hn | ⟨u, hu⟩
    · rw [hitWay_of_lookup_none hn (Bool.toNat_lt w)] at hw
      cases hw
    · have hu' := hitWay_of_lookup hu
      simp only [hitWay, Bool.and_eq_true, beq_iff_eq] at hw hu'
      rw [hu, h.unique (index addr) w u hw.1 hu'.1 (hw.2.trans hu'.2.symm)]

/-- A directory whose controller owes nothing. -/
theorem dirInv_of_ready {c' : L1Cache} (h : DirInv c) (hv : c'.validRam = c.validRam)
    (ht : c'.tagRam = c.tagRam) (hst : c'.state = .idle ∨ c'.state = .compareTag) : DirInv c' where
  unique := by rw [hv, ht]; exact h.unique
  miss := by
    intro hm
    rcases hst with hs | hs <;> simp [inMiss, hs] at hm
  victim := by
    intro hs'
    rcases hst with hs | hs <;> rw [hs] at hs' <;> cases hs'
  filled := by
    intro hs'
    rcases hst with hs | hs <;> rw [hs] at hs' <;> cases hs'

/-- The line that comes is in no other way. -/
theorem DirInv.next_of_fill (h : DirInv c) (hst : c.state = .fillWait)
    (hr : i.memRespValid = true) : DirInv (c.next 2 i) := by
  rw [next_of_fillWait hst hr]
  have hm := h.miss (by simp [inMiss, hst])
  -- in the set that is filled, no valid way has the tag that is written
  have hne (v : Bool) (hv : c.validRam (c.latIndex, v.toNat) = true) :
      c.tagRam (c.latIndex, v.toNat) ≠ c.latTag := by
    intro heq
    have hhit : c.hitWay c.lat.addr v.toNat = true := by
      simp only [hitWay, Bool.and_eq_true, beq_iff_eq]
      exact ⟨hv, heq⟩
    rw [hm v] at hhit
    cases hhit
  refine ⟨?_, fun h' => (by cases h'), fun h' => (by cases h'), fun _ => Function.update_self _ _ _⟩
  intro set w u hw hu htag
  simp only [fillUpdate, fillSlot, update_slot] at hw hu htag
  by_cases hs : set = c.latIndex
  · subst hs
    by_cases hw' : w = c.latVictimWay
    · by_cases hu' : u = c.latVictimWay
      · rw [hw', hu']
      · simp only [hw', hu', and_self, and_false, if_true, if_false] at hu htag
        exact absurd htag.symm (hne u hu)
    · by_cases hu' : u = c.latVictimWay
      · simp only [hw', hu', and_self, and_false, if_true, if_false] at hw htag
        exact absurd htag (hne w hw)
      · simp only [hw', hu', and_false, if_false] at hw hu htag
        exact h.unique _ w u hw hu htag
  · simp only [hs, false_and, if_false] at hw hu htag
    exact h.unique set w u hw hu htag

/-- A miss is a miss of the latched line. -/
theorem DirInv.next_of_miss (h : DirInv c) (hst : c.state = .compareTag)
    (hlat : c.lookup c.lat.addr = none) (hhit : c.cacheHit 2 i.req.addr = false) :
    DirInv (c.next 2 i) := by
  rw [L1Cache.next_of_miss hst hhit]
  refine ⟨h.unique, fun _ w => hitWay_of_lookup_none hlat (Bool.toNat_lt w), fun hwb => ?_,
    fun hro => ?_⟩
  · cases hd : c.victimDirty with
    | true =>
      simp only [victimDirty, Bool.and_eq_true] at hd
      exact hd.1
    | false => simp [hd] at hwb
  · cases hd : c.victimDirty <;> simp [hd] at hro

/-- One edge of the directory. -/
theorem DirInv.next (h : DirInv c) (hheld : AddrHeld i c) : DirInv (c.next 2 i) := by
  by_cases hf : c.state = .fillWait ∧ i.memRespValid = true
  · exact h.next_of_fill hf.1 hf.2
  obtain ⟨hv, ht⟩ := next_dir_of_not_fill hf
  -- within a miss the directory does not change; outside, the controller owes nothing
  cases hm : c.inMiss with
  | true =>
    rw [next_of_inMiss hm hf]
    refine ⟨h.unique, fun _ => h.miss hm, fun hwb => ?_, fun hro => ?_⟩
    · -- only `L1_WRITEBACK` itself leads there
      refine h.victim ?_
      have hfsm : c.fsm 2 i = .writeback := hwb
      revert hfsm
      unfold fsm
      cases hst : c.state <;> simp [inMiss, hst] at hm ⊢
      · cases i.memWrAck <;> simp
      · cases i.memReqReady <;> simp
      · cases i.memRespValid <;> simp
    · exfalso
      have hfsm : c.fsm 2 i = .readout := hro
      revert hfsm
      unfold fsm
      cases hst : c.state <;> simp [inMiss, hst] at hm hf ⊢
      · cases i.memReqReady <;> simp
      · cases i.memWrAck <;> simp
      · cases i.memReqReady <;> simp
      · simp [hf]
  | false =>
    by_cases hst : c.state = .compareTag
    · have hreq : i.req.addr = c.lat.addr := hheld hst
      cases hhit : c.cacheHit 2 i.req.addr with
      | true =>
        refine dirInv_of_ready h hv ht ?_
        rw [L1Cache.next_of_hit hst hhit]
        cases i.reqValid
        · exact .inl rfl
        · exact .inr rfl
      | false =>
        refine h.next_of_miss hst ?_ hhit
        rw [cacheHit_eq, hreq] at hhit
        simpa using hhit
    · refine dirInv_of_ready h hv ht ?_
      show c.fsm 2 i = .idle ∨ c.fsm 2 i = .compareTag
      unfold fsm
      cases hs : c.state <;> simp [inMiss, hs] at hm hst ⊢

end Dir

/-! ## Two caches, alike up to a swap of ways -/

/-- The RAMs of `c` and `c'`, with the ways of each set swapped where `p` says so. -/
structure RamsAlike (p : BitVec 4 → Bool) (c c' : L1Cache) : Prop where
  lru : ∀ set, c.lruRam set = (p set ^^ c'.lruRam set)
  valid : ∀ set (w : Bool), c.validRam (set, w.toNat) = c'.validRam (set, (p set ^^ w).toNat)
  tag : ∀ set (w : Bool), c.validRam (set, w.toNat) = true →
    c.tagRam (set, w.toNat) = c'.tagRam (set, (p set ^^ w).toNat)
  data : ∀ set (w : Bool), c.validRam (set, w.toNat) = true →
    c.dataRam (set, w.toNat) = c'.dataRam (set, (p set ^^ w).toNat)
  dirty : ∀ set (w : Bool), c.validRam (set, w.toNat) = true →
    c.dirtyRam (set, w.toNat) = c'.dirtyRam (set, (p set ^^ w).toNat)

/-- The states of two runs on the same inputs. -/
structure Alike (p : BitVec 4 → Bool) (c c' : L1Cache) : Prop where
  state : c.state = c'.state
  lat : c.lat = c'.lat
  rams : RamsAlike p c c'
  victim : c.inMiss = true ∨ c.state = .readout →
    c.latVictimWay = (p c.latIndex ^^ c'.latVictimWay)

/-- Two caches that have just been reset. -/
theorem alike_asyncReset (c c' : L1Cache) :
    Alike (fun set => c.lruRam set ^^ c'.lruRam set) c.asyncReset c'.asyncReset where
  state := rfl
  lat := rfl
  rams :=
    { lru := fun set => by simp [asyncReset]
      valid := fun _ _ => rfl
      tag := fun _ _ h => by cases h
      data := fun _ _ h => by cases h
      dirty := fun _ _ h => by cases h }
  victim := fun h => by rcases h with h | h <;> cases h

section Rams

variable {p : BitVec 4 → Bool} {c c' : L1Cache} {i : L1In}

/-- Corresponding ways hit alike. -/
theorem RamsAlike.hitWay (h : RamsAlike p c c') (addr : BitVec 32) (w : Bool) :
    c.hitWay addr w.toNat = c'.hitWay addr (p (index addr) ^^ w).toNat := by
  unfold L1Cache.hitWay
  rw [← h.valid]
  cases hv : c.validRam (index addr, w.toNat) with
  | false => rfl
  | true => rw [h.tag _ _ hv]

/-- The lookups of two caches correspond. -/
theorem RamsAlike.lookup (h : RamsAlike p c c') (hd' : DirInv c') (addr : BitVec 32) :
    c.lookup addr = none ∧ c'.lookup addr = none ∨
      ∃ w : Bool, c.lookup addr = some w.toNat ∧
        c'.lookup addr = some (p (index addr) ^^ w).toNat := by
  rcases lookup_cases c addr with hn | ⟨w, hw⟩
  · refine .inl ⟨hn, ?_⟩
    rcases lookup_cases c' addr with hn' | ⟨u, hu⟩
    · exact hn'
    · have hu' := hitWay_of_lookup hu
      have hback := h.hitWay addr (p (index addr) ^^ u)
      rw [swap_swap, hu', hitWay_of_lookup_none hn (Bool.toNat_lt _)] at hback
      cases hback
  · refine .inr ⟨w, hw, ?_⟩
    rw [hd'.lookup_iff, ← h.hitWay]
    exact hitWay_of_lookup hw

/-- The victims correspond. -/
theorem victimWay_eq (h : RamsAlike p c c') (hlat : c.lat = c'.lat) :
    c'.victimWay = (p c.latIndex ^^ c.victimWay) := by
  have hi : c'.latIndex = c.latIndex := by rw [latIndex, latIndex, hlat]
  rw [victimWay, victimWay, hi, h.lru]
  cases p c.latIndex <;> simp

/-- And are dirty alike. -/
theorem victimDirty_eq (h : RamsAlike p c c') (hlat : c.lat = c'.lat) :
    c.victimDirty = c'.victimDirty := by
  have hi : c'.latIndex = c.latIndex := by rw [latIndex, latIndex, hlat]
  rw [victimDirty, victimDirty, victimSlot, victimSlot, hi, victimWay_eq h hlat, ← h.valid]
  cases hv : c.validRam (c.latIndex, c.victimWay.toNat) with
  | false => rfl
  | true => rw [h.dirty _ _ hv]

/-- A write hit. -/
theorem compareUpdate_of_write {w : Bool} (hw : c.lookup i.req.addr = some w.toNat)
    (hwr : c.lat.wr = true) : c.compareUpdate 2 i = { c with
      lruRam := Function.update c.lruRam c.latIndex (!w)
      dataRam := Function.update c.dataRam (c.latIndex, w.toNat)
        (lineWriteWord (c.dataRam (c.latIndex, w.toNat)) c.latWord c.lat.wdata c.lat.wmask)
      dirtyRam := Function.update c.dirtyRam (c.latIndex, w.toNat) true } := by
  have hhit : c.cacheHit 2 i.req.addr = true := by rw [cacheHit_eq, hw]; rfl
  have hbit : decide (w.toNat = 1) = w := by cases w <;> rfl
  simp only [compareUpdate, hhit, hwr, if_true, hitSlot_of_lookup hw, hitWayVal_bit_of_lookup hw,
    hbit]

/-- A read hit. -/
theorem compareUpdate_of_read {w : Bool} (hw : c.lookup i.req.addr = some w.toNat)
    (hwr : c.lat.wr = false) : c.compareUpdate 2 i = { c with
      lruRam := Function.update c.lruRam c.latIndex (!w)
      dirtyRam := Function.update c.dirtyRam (c.latIndex, c.victimWay.toNat) false } := by
  have hhit : c.cacheHit 2 i.req.addr = true := by rw [cacheHit_eq, hw]; rfl
  have hbit : decide (w.toNat = 1) = w := by cases w <;> rfl
  simp only [compareUpdate, hhit, hwr, if_true, Bool.false_eq_true, if_false,
    hitWayVal_bit_of_lookup hw, hbit, victimSlot]

/-- Designating the other way of corresponding ways keeps the LRU bits alike. -/
theorem RamsAlike.lru_update (h : RamsAlike p c c') (s : BitVec 4) (w : Bool) (set : BitVec 4) :
    Function.update c.lruRam s (!w) set =
      (p set ^^ Function.update c'.lruRam s (!(p s ^^ w)) set) := by
  by_cases hs : set = s
  · subst hs
    rw [Function.update_self, Function.update_self]
    cases p set <;> cases w <;> rfl
  · rw [Function.update_of_ne hs, Function.update_of_ne hs]
    exact h.lru set

/-- Corresponding hits keep the RAMs alike. -/
theorem RamsAlike.compareUpdate (h : RamsAlike p c c') (hlat : c.lat = c'.lat) {w : Bool}
    (hw : c.lookup i.req.addr = some w.toNat)
    (hw' : c'.lookup i.req.addr = some (p c.latIndex ^^ w).toNat)
    (hvalid : c.validRam (c.latIndex, w.toNat) = true) :
    RamsAlike p (c.compareUpdate 2 i) (c'.compareUpdate 2 i) := by
  have hi : c'.latIndex = c.latIndex := by rw [latIndex, latIndex, hlat]
  have hword : c'.latWord = c.latWord := by rw [latWord, latWord, hlat]
  -- the hit way, or the victim, corresponds; all other slots are as they were
  cases hwr : c.lat.wr with
  | true =>
    rw [compareUpdate_of_write hw hwr, compareUpdate_of_write hw' (hlat ▸ hwr), hi, hword,
      ← hlat, ← h.data _ _ hvalid]
    refine ⟨h.lru_update _ _, h.valid, h.tag, fun set u hu => ?_, fun set u hu => ?_⟩
    · simp only [update_slot, swap_eq_iff]
      split
      · rfl
      · exact h.data set u hu
    · simp only [update_slot, swap_eq_iff]
      split
      · rfl
      · exact h.dirty set u hu
  | false =>
    rw [compareUpdate_of_read hw hwr, compareUpdate_of_read hw' (hlat ▸ hwr), hi,
      victimWay_eq h hlat]
    refine ⟨h.lru_update _ _, h.valid, h.tag, h.data, fun set u hu => ?_⟩
    simp only [update_slot, swap_eq_iff]
    split
    · rfl
    · exact h.dirty set u hu

/-- Fills of corresponding ways keep the RAMs alike. -/
theorem RamsAlike.fillUpdate (h : RamsAlike p c c') (hlat : c.lat = c'.lat)
    (hv : c.latVictimWay = (p c.latIndex ^^ c'.latVictimWay)) :
    RamsAlike p (c.fillUpdate i) (c'.fillUpdate i) := by
  have hi : c'.latIndex = c.latIndex := by rw [latIndex, latIndex, hlat]
  have hword : c'.latWord = c.latWord := by rw [latWord, latWord, hlat]
  have htag : c'.latTag = c.latTag := by rw [latTag, latTag, hlat]
  have hv' : c'.latVictimWay = (p c.latIndex ^^ c.latVictimWay) := by rw [hv, swap_swap]
  simp only [L1Cache.fillUpdate, fillSlot, hi, hword, htag, ← hlat, hv']
  refine ⟨h.lru_update _ _, fun set u => ?_, fun set u hu => ?_, fun set u hu => ?_,
    fun set u hu => ?_⟩
  -- the filled slot has the same contents in both, the others are as they were
  · simp only [update_slot, swap_eq_iff]
    split
    · rfl
    · exact h.valid set u
  all_goals simp only [update_slot, swap_eq_iff] at hu ⊢
  all_goals split
  · rfl
  · next hne => exact h.tag set u (by rwa [if_neg hne] at hu)
  · rfl
  · next hne => exact h.data set u (by rwa [if_neg hne] at hu)
  · rfl
  · next hne => exact h.dirty set u (by rwa [if_neg hne] at hu)

end Rams

section Step

variable {p : BitVec 4 → Bool} {c c' : L1Cache} {i : L1In}

/-- The requests in service go to the same set. -/
theorem Alike.latIndex_eq (h : Alike p c c') : c'.latIndex = c.latIndex := by
  rw [latIndex, latIndex, h.lat]

/-- The lookups of the request in service correspond. -/
theorem Alike.lookup (h : Alike p c c') (hd' : DirInv c') (hheld : AddrHeld i c)
    (hst : c.state = .compareTag) :
    c.lookup i.req.addr = none ∧ c'.lookup i.req.addr = none ∨
      ∃ w : Bool, c.lookup i.req.addr = some w.toNat ∧
        c'.lookup i.req.addr = some (p c.latIndex ^^ w).toNat ∧
        c.validRam (c.latIndex, w.toNat) = true := by
  have hidx : index i.req.addr = c.latIndex := by rw [hheld hst]; rfl
  rcases h.rams.lookup hd' i.req.addr with hn | ⟨w, hw, hw'⟩
  · exact .inl hn
  · have hhit := hitWay_of_lookup hw
    simp only [hitWay, Bool.and_eq_true, hidx] at hhit
    exact .inr ⟨w, hw, hidx ▸ hw', hhit.1⟩

/-- They hit alike. -/
theorem Alike.cacheHit (h : Alike p c c') (hd' : DirInv c') (hheld : AddrHeld i c)
    (hst : c.state = .compareTag) : c.cacheHit 2 i.req.addr = c'.cacheHit 2 i.req.addr := by
  rw [cacheHit_eq, cacheHit_eq]
  rcases h.lookup hd' hheld hst with ⟨hn, hn'⟩ | ⟨w, hw, hw', -⟩
  · rw [hn, hn']
  · rw [hw, hw']
    rfl

/-- The outputs of alike caches are the same. -/
theorem Alike.out_eq (h : Alike p c c') (hd : DirInv c) (hd' : DirInv c') (hheld : AddrHeld i c) :
    c.out 2 i.req.addr = c'.out 2 i.req.addr := by
  have hi := h.latIndex_eq
  have hword : c'.latWord = c.latWord := by rw [latWord, latWord, h.lat]
  have hst' := h.state
  cases hst : c.state with
  | idle | writebackWait | fillWait =>
    rw [hst] at hst'
    simp only [out, hst, ← hst']
  | fill =>
    rw [hst] at hst'
    simp only [out, hst, ← hst', latLineAddr, h.lat]
  | compareTag =>
    have hhit := h.cacheHit hd' hheld hst
    rw [hst] at hst'
    simp only [out, hst, ← hst', hhit, hword]
    rcases h.lookup hd' hheld hst with ⟨-, hn'⟩ | ⟨w, hw, hw', hv⟩
    · have hmiss : c'.cacheHit 2 i.req.addr = false := by rw [cacheHit_eq, hn']; rfl
      simp only [hmiss, Bool.false_eq_true, if_false]
    -- the words of corresponding ways
    · rw [hitSlot_of_lookup hw, hitSlot_of_lookup hw', hi, h.rams.data _ _ hv]
  | writeback =>
    have hv : c.validRam (c.latIndex, c.victimWay.toNat) = true := hd.victim hst
    rw [hst] at hst'
    simp only [out, hst, ← hst', victimTag, victimData, victimSlot, hi,
      victimWay_eq h.rams h.lat, h.rams.tag _ _ hv, h.rams.data _ _ hv]
  | readout =>
    have hv : c.validRam (c.latIndex, c.latVictimWay.toNat) = true := hd.filled hst
    have hway : c'.latVictimWay = (p c.latIndex ^^ c.latVictimWay) := by
      rw [h.victim (.inr hst), swap_swap]
    rw [hst] at hst'
    simp only [out, hst, ← hst', fillSlot, hi, hword, hway, h.rams.data _ _ hv]

/-- The controllers go on alike. -/
theorem Alike.fsm_eq (h : Alike p c c') (hd' : DirInv c') (hheld : AddrHeld i c) :
    c.fsm 2 i = c'.fsm 2 i := by
  have hst' := h.state
  cases hst : c.state with
  | compareTag =>
    have hhit := h.cacheHit hd' hheld hst
    rw [hst] at hst'
    simp only [fsm, hst, ← hst', hhit, victimDirty_eq h.rams h.lat]
  | idle | writeback | writebackWait | fill | fillWait | readout =>
    rw [hst] at hst'
    simp only [fsm, hst, ← hst']

/-- One edge keeps the RAMs alike, and the way that will be filled. -/
theorem Alike.dataUpdate (h : Alike p c c') (hd' : DirInv c') (hheld : AddrHeld i c) :
    RamsAlike p (c.dataUpdate 2 i) (c'.dataUpdate 2 i) ∧
      ((c.state = .compareTag ∧ c.cacheHit 2 i.req.addr = false) ∨ c.inMiss = true →
        (c.dataUpdate 2 i).latVictimWay = (p c.latIndex ^^ (c'.dataUpdate 2 i).latVictimWay)) := by
  by_cases hst : c.state = .compareTag
  · have hst' : c'.state = .compareTag := h.state ▸ hst
    simp only [L1Cache.dataUpdate, hst, hst', if_true]
    rcases h.lookup hd' hheld hst with ⟨hn, hn'⟩ | ⟨w, hw, hw', hv⟩
    · have hhit : c.cacheHit 2 i.req.addr = false := by rw [cacheHit_eq, hn]; rfl
      have hhit' : c'.cacheHit 2 i.req.addr = false := by rw [cacheHit_eq, hn']; rfl
      simp only [L1Cache.compareUpdate, hhit, hhit', Bool.false_eq_true, if_false]
      refine ⟨⟨h.rams.lru, h.rams.valid, h.rams.tag, h.rams.data, h.rams.dirty⟩, fun _ => ?_⟩
      rw [victimWay_eq h.rams h.lat, swap_swap]
    · have hhit : c.cacheHit 2 i.req.addr = true := by rw [cacheHit_eq, hw]; rfl
      refine ⟨h.rams.compareUpdate h.lat hw hw' hv, fun hm => ?_⟩
      rcases hm with ⟨-, hm⟩ | hm
      · rw [hhit] at hm; cases hm
      · simp [inMiss, hst] at hm
  · simp only [L1Cache.dataUpdate, hst, if_false, ← h.state, false_and, false_or]
    split
    · next hf =>
      have hv := h.victim (.inl (by simp [inMiss, hf.1]))
      exact ⟨h.rams.fillUpdate h.lat hv, fun _ => hv⟩
    · exact ⟨h.rams, fun hm => h.victim (.inl hm)⟩

/-- **One edge.** The same inputs keep alike caches alike. -/
theorem Alike.next (h : Alike p c c') (hd : DirInv c) (hd' : DirInv c') (hheld : AddrHeld i c) :
    Alike p (c.next 2 i) (c'.next 2 i) := by
  have hout := h.out_eq hd hd' hheld
  obtain ⟨hrams, hway⟩ := h.dataUpdate hd' hheld
  have hlat : (c.next 2 i).lat = (c'.next 2 i).lat := by
    simp only [L1Cache.next, hout, h.lat]
  refine ⟨h.fsm_eq hd' hheld, hlat, ⟨hrams.lru, hrams.valid, hrams.tag, hrams.data, hrams.dirty⟩,
    fun hm => ?_⟩
  -- a state that has a victim follows a miss, or another such state
  have hbefore : (c.state = .compareTag ∧ c.cacheHit 2 i.req.addr = false) ∨ c.inMiss = true := by
    have hfsm : (c.next 2 i).state = c.fsm 2 i := rfl
    rw [inMiss, hfsm] at hm
    revert hm
    unfold fsm inMiss
    cases hst : c.state with
    | idle | readout => cases i.reqValid <;> simp
    | compareTag =>
      cases hhit : c.cacheHit 2 i.req.addr with
      | true => cases i.reqValid <;> simp
      | false => simp
    | writeback | writebackWait | fill | fillWait => simp
  have hready : (c.out 2 i.req.addr).reqReady = false := by
    unfold out
    rcases hbefore with ⟨hst, hhit⟩ | hm'
    · simp [hst, hhit]
    · cases hst : c.state <;> simp [inMiss, hst] at hm' ⊢
  have hidx : (c.next 2 i).latIndex = c.latIndex := by
    simp only [latIndex, L1Cache.next, hready, Bool.false_and, Bool.false_eq_true, if_false]
  rw [hidx]
  exact hway hbefore

end Step

/-- **Reset hides the earlier contents.** Take two caches in any state, reset them,
    and run them on the same inputs, with the address of the request in service
    held during `L1_COMPARE_TAG`. Their outputs are the same in every cycle. -/
theorem out_eq_of_reset (c c' : L1Cache) (ins : Nat → L1In) (n : Nat)
    (hheld : ∀ k ≤ n, AddrHeld (ins k)
      (Clocked.run (fun i c => c.next 2 i) ins c.asyncReset k)) :
    (Clocked.run (fun i c => c.next 2 i) ins c.asyncReset n).out 2 (ins n).req.addr =
      (Clocked.run (fun i c => c.next 2 i) ins c'.asyncReset n).out 2 (ins n).req.addr := by
  have hinv : Alike (fun set => c.lruRam set ^^ c'.lruRam set)
        (Clocked.run (fun i c => c.next 2 i) ins c.asyncReset n)
        (Clocked.run (fun i c => c.next 2 i) ins c'.asyncReset n) ∧
      DirInv (Clocked.run (fun i c => c.next 2 i) ins c.asyncReset n) ∧
      DirInv (Clocked.run (fun i c => c.next 2 i) ins c'.asyncReset n) := by
    refine Clocked.run_relation
      (R := fun d d' =>
        Alike (fun set => c.lruRam set ^^ c'.lruRam set) d d' ∧ DirInv d ∧ DirInv d')
      ⟨alike_asyncReset c c', dirInv_asyncReset c, dirInv_asyncReset c'⟩ fun k hk hk' => ?_
    obtain ⟨h, hd, hd'⟩ := hk'
    have hheld' := hheld k (Nat.le_of_lt hk)
    refine ⟨h.next hd hd' hheld', hd.next hheld', hd'.next ?_⟩
    -- both runs are in the same state with the same latched request
    rw [AddrHeld, ← h.state, ← h.lat]
    exact hheld'
  obtain ⟨h, hd, hd'⟩ := hinv
  exact h.out_eq hd hd' (hheld n (Nat.le_refl n))

/-- A cache whose reset leaves other tags, other data and another way to fill. -/
def used : L1Cache :=
  { blank with
    tagRam := fun _ => 1
    dataRam := fun _ => 7
    validRam := fun _ => true
    lruRam := fun _ => true }

/-- A cache that has been used answers like a new one. -/
theorem out_eq_used :
    (Clocked.run (fun i c => c.next 2 i) (fun _ => readZero) blank.asyncReset 5).out 2 0 =
      (Clocked.run (fun i c => c.next 2 i) (fun _ => readZero) used.asyncReset 5).out 2 0 :=
  out_eq_of_reset blank used (fun _ => readZero) 5 (by simp only [AddrHeld]; decide)

end URiscV.Hdl.L1Cache
