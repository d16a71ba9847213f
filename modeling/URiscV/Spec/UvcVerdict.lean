import URiscV.Spec.CacheLru
import URiscV.Spec.ScoreboardCorrect
import URiscV.Spec.UvcSim

/-!
# What a test of the cache says

The transactions of a test carry the answers of the sets of the cache. Their hit flags are
those of exact LRU, whatever the unreset RAMs hold, so the scoreboard predicts all of
them; and it expects the data of a flat memory, so it fails exactly the reads that got
other data.

## Key results

- `HoldsRecent.hit_iff`: the hit flags of the sets
- `hit_eq_expHit`: those that the scoreboard predicts
- `test_verdict`: what the scoreboard reports
-/

namespace URiscV

open Hdl (L1Cache L1Req CacheSet)
open Hdl.L1Cache (tag index word lineWord lineWriteWord tagsOf LruHit)

/-! ## Hit flags -/

namespace Hdl.CacheSet

/-- The directory of a set as a two-way structure. -/
def dir (x : CacheSet) : Lru.TwoWay (BitVec 24) where
  valid := x.valid
  tag := x.tag
  lru := x.lru

section Serve

variable {x : CacheSet} {r : L1Req} {t : BitVec 24}

/-- A tag is in no valid way, or in the way that the lookup finds. -/
theorem lookup_cases (x : CacheSet) (t : BitVec 24) :
    (x.lookup t = none ∧ ∀ w, x.valid w = true → x.tag w ≠ t) ∨
      ∃ w, x.lookup t = some w ∧ x.valid w = true ∧ x.tag w = t := by
  by_cases h1 : x.valid true = true ∧ x.tag true = t
  · exact .inr ⟨true, by simp [lookup, h1], h1⟩
  · by_cases h0 : x.valid false = true ∧ x.tag false = t
    · exact .inr ⟨false, by simpa [lookup, h0] using h1, h0⟩
    · refine .inl ⟨by simp [lookup, h1, h0], fun w hv ht => ?_⟩
      cases w with
      | true => exact h1 ⟨hv, ht⟩
      | false => exact h0 ⟨hv, ht⟩

/-- A hit of a set is one of its directory. -/
theorem dir_hit (w : Bool) : (x.hit r w).dir = x.dir.hit w := by
  unfold hit
  cases r.wr <;> rfl

/-- The write-back changes the next level only. -/
theorem evict_eq : x.evict = { x with mem := x.evict.mem } := by
  unfold evict
  cases x.victimDirty <;> rfl

/-- And so is a fill: the victim way is replaced. -/
theorem dir_fill : (x.evict.fill r).dir = x.dir.fill (L1Cache.tag r.addr) := by
  rw [evict_eq]
  rfl

end Serve

end Hdl.CacheSet

namespace Tb.L1cUvc

open Hdl.Sys (setIndex)

/-- Every set holds the two lines most recently asked of it. -/
def HoldsRecent (st : BitVec 4 → CacheSet) (hist : List L1Req) : Prop :=
  ∀ set, (st set).dir.Holds (Lru.resident 2 (tagsOf set hist))

section Recent

variable {st : BitVec 4 → CacheSet} {hist : List L1Req} {r : L1Req}

/-- An empty directory holds the recent tags of no requests. -/
theorem holdsRecent_resetSets (dut : L1Cache) : HoldsRecent (resetSets dut) [] :=
  fun _ => .empty fun _ => rfl

/-- A response is a hit exactly when its line was recently requested. -/
theorem HoldsRecent.hit_iff (h : HoldsRecent st hist) :
    ((st (setIndex r)).serve r).2.1 = true ↔ LruHit hist r := by
  have hmem : LruHit hist r ↔ ∃ w, (st (setIndex r)).valid w = true ∧
      (st (setIndex r)).tag w = tag r.addr := (h (setIndex r)).mem_iff
  rw [hmem]
  rcases (st (setIndex r)).lookup_cases (tag r.addr) with ⟨hn, hmiss⟩ | ⟨w, hw, hhit⟩
  · rw [CacheSet.serve_of_miss hn]
    simp only [Bool.false_eq_true, false_iff]
    rintro ⟨w, hv, ht⟩
    exact hmiss w hv ht
  · rw [CacheSet.serve_of_hit hw]
    simp only [true_iff]
    exact ⟨w, hhit⟩

/-- One request. -/
theorem HoldsRecent.apply (h : HoldsRecent st hist) :
    HoldsRecent (Shards.apply setIndex CacheSet.serve st r) (hist ++ [r]) := by
  have hsets (f : Lru.TwoWay (BitVec 24) → Lru.TwoWay (BitVec 24))
      (hf : ((st (setIndex r)).serve r).1.dir = f (st (setIndex r)).dir) (set : BitVec 4) :
      (Shards.apply setIndex CacheSet.serve st r set).dir =
        if set = index r.addr then f (st set).dir else (st set).dir := by
    by_cases hset : set = index r.addr
    · have hkey : set = setIndex r := hset
      rw [if_pos hset, hkey, Shards.apply_self, hf]
    · have hkey : setIndex r ≠ set := Ne.symm hset
      rw [if_neg hset, Shards.apply_of_ne hkey]
  have hiff := h.hit_iff (r := r)
  -- the lookup and the reference model hit or miss together
  rcases (st (setIndex r)).lookup_cases (tag r.addr) with ⟨hn, hmiss⟩ | ⟨w, hw, hv, ht⟩
  · have hdir : ((st (setIndex r)).serve r).1.dir = (st (setIndex r)).dir.fill (tag r.addr) := by
      rw [CacheSet.serve_of_miss hn]
      exact CacheSet.dir_fill
    rw [CacheSet.serve_of_miss hn] at hiff
    have hlru : ¬LruHit hist r := by simpa using hiff
    exact @L1Cache.recent_fill (fun set => (st set).dir) _ hist r h (hsets _ hdir) hlru
  · have hdir : ((st (setIndex r)).serve r).1.dir = (st (setIndex r)).dir.hit w := by
      rw [CacheSet.serve_of_hit hw]
      exact CacheSet.dir_hit w
    exact @L1Cache.recent_hit (fun set => (st set).dir) _ hist r w h (hsets _ hdir) hv ht

/-- The directory holds the recent tags behind any further requests. -/
theorem HoldsRecent.after (h : HoldsRecent st hist) (more : List L1Req) :
    HoldsRecent (setsAfter st more) (hist ++ more) := by
  induction more generalizing st hist with
  | nil =>
    rw [List.append_nil]
    exact h
  | cons r more ih =>
    have hrest := ih (h.apply (r := r))
    rw [List.append_assoc] at hrest
    exact hrest

end Recent

/-! ## The counters -/

/-- A read that got other data than the memory holds. -/
def wrongRead (m : FlatMemory.Memory) (t : L1cTransaction) : Bool :=
  !t.wr && t.rdata != FlatMemory.read m t.addr

/-- How many of the transactions are such reads, each one against the memory that the
    transactions before it leave. -/
def wrongReads (m : FlatMemory.Memory) : List L1cTransaction → Nat
  | [] => 0
  | t :: ts => (wrongRead m t).toNat + wrongReads (FlatMemory.apply m t.req) ts

/-- The wrong reads of one more transaction. -/
theorem wrongReads_concat {m : FlatMemory.Memory} {ts : List L1cTransaction}
    {t : L1cTransaction} : wrongReads m (ts ++ [t]) =
      wrongReads m ts + (wrongRead (FlatMemory.run m (ts.map L1cTransaction.req)) t).toNat := by
  induction ts generalizing m with
  | nil => exact Nat.add_comm _ _
  | cons q ts ih =>
    rw [List.cons_append, wrongReads, ih, wrongReads, Nat.add_assoc]
    rfl

/-- There are not more wrong reads than transactions. -/
theorem wrongReads_le {m : FlatMemory.Memory} {ts : List L1cTransaction} :
    wrongReads m ts ≤ ts.length := by
  induction ts generalizing m with
  | nil => exact Nat.le_refl 0
  | cons t ts ih =>
    have hone := Bool.toNat_le (wrongRead m t)
    have hrest := @ih (FlatMemory.apply m t.req)
    rw [wrongReads, List.length_cons]
    omega

/-- The scoreboard has counted `f` of `n` transactions as failed, and passed the others. -/
structure Counts (s : L1cScoreboard) (n f : Nat) : Prop where
  received : s.transactionsReceived = BitVec.ofNat 32 n
  passed : s.transactionsPassed = BitVec.ofNat 32 (n - f)
  failed : s.transactionsFailed = BitVec.ofNat 32 f

section Counts

variable {s : L1cScoreboard} {t : L1cTransaction} {n f : Nat}

/-- The reference cache is updated without counting. -/
theorem reference_counters (s : L1cScoreboard) (t : L1cTransaction) :
    (s.reference t).transactionsPassed = s.transactionsPassed ∧
      (s.reference t).transactionsFailed = s.transactionsFailed := by
  unfold L1cScoreboard.reference
  split
  · exact ⟨rfl, rfl⟩
  · unfold L1cScoreboard.writeMiss L1cScoreboard.writebackVictim
    split <;> exact ⟨rfl, rfl⟩

/-- A transaction with the predicted hit flag. -/
theorem Counts.write (h : Counts s n f) (hf : f ≤ n) (hhit : t.hit = s.expHit t)
    {m : FlatMemory.Memory} (hdata : t.wr = false → s.expRdata t = FlatMemory.read m t.addr) :
    Counts (s.write t) (n + 1) (f + (wrongRead m t).toNat) := by
  obtain ⟨hp, hfail⟩ := reference_counters s t
  have hadd (k : Nat) : BitVec.ofNat 32 (k + 1) = BitVec.ofNat 32 k + 1 := BitVec.ofNat_add k 1
  have hreceived : (s.write t).transactionsReceived = BitVec.ofNat 32 (n + 1) := by
    rw [hadd, ← h.received]
    unfold L1cScoreboard.write
    split_ifs
    all_goals rfl
  -- hits agree, so that only the data of a read can fail
  cases hw : wrongRead m t with
  | true =>
    obtain ⟨hwr, hne⟩ : t.wr = false ∧ t.rdata ≠ FlatMemory.read m t.addr := by
      simpa [wrongRead] using hw
    have hsub : n + 1 - (f + true.toNat) = n - f := by rw [Bool.toNat_true]; omega
    refine ⟨hreceived, ?_, ?_⟩
    · rw [hsub, ← h.passed]
      simp [L1cScoreboard.write, hhit, hwr, hdata hwr, hne, hp]
    · rw [Bool.toNat_true, hadd, ← h.failed]
      simp [L1cScoreboard.write, hhit, hwr, hdata hwr, hne]
  | false =>
    have hgood : t.wr = true ∨ t.rdata = s.expRdata t := by
      cases hwr : t.wr with
      | true => exact .inl rfl
      | false => exact .inr (by simpa [wrongRead, hwr, hdata hwr] using hw)
    have hsub : n + 1 - (f + false.toNat) = n - f + 1 := by rw [Bool.toNat_false]; omega
    refine ⟨hreceived, ?_, ?_⟩
    · rw [hsub, hadd, ← h.passed]
      rcases hgood with hwr | hdata
      · simp [L1cScoreboard.write, hhit, hwr]
      · simp [L1cScoreboard.write, hhit, hdata]
    · rw [Bool.toNat_false, Nat.add_zero, ← h.failed]
      rcases hgood with hwr | hdata
      · simp [L1cScoreboard.write, hhit, hwr, hfail]
      · simp [L1cScoreboard.write, hhit, hdata, hfail]

/-- The requests of the transactions are those driven. -/
theorem map_req_transactions {st : BitVec 4 → CacheSet} (hist : List L1Req) :
    (transactions st hist).map L1cTransaction.req = hist := by
  induction hist generalizing st with
  | nil => rfl
  | cons r hist ih => exact congrArg (r :: ·) ih

/-- The scoreboard predicts the hit flag of the next answer. -/
theorem hit_eq_expHit (dut : L1Cache) (hist : List L1Req) (r : L1Req) :
    (transaction r ((setsAfter (resetSets dut) hist (setIndex r)).serve r).2).hit =
      ((transactions (resetSets dut) hist).foldl .write .buildPhase : L1cScoreboard).expHit
        (transaction r ((setsAfter (resetSets dut) hist (setIndex r)).serve r).2) := by
  have hrecent := L1cScoreboard.holdsRecent_buildPhase.foldl (transactions (resetSets dut) hist)
  have hflag := ((holdsRecent_resetSets dut).after hist).hit_iff (r := r)
  rw [map_req_transactions] at hrecent
  generalize ((setsAfter (resetSets dut) hist (setIndex r)).serve r).2 = a at hflag ⊢
  have hreq : (transaction r a).req = r := rfl
  have hexp := hrecent.expHit_iff (t := transaction r a)
  rw [hreq] at hexp
  -- both flags are that of exact LRU
  exact Bool.eq_iff_iff.mpr (hflag.trans hexp.symm)

/-- And those of all answers. -/
theorem expHit_transactions (dut : L1Cache) (hist : List L1Req) (pre : List L1cTransaction)
    (t : L1cTransaction) (h : pre ++ [t] <+: transactions (resetSets dut) hist) :
    t.hit = (pre.foldl .write .buildPhase : L1cScoreboard).expHit t := by
  induction hist using List.reverseRecOn with
  | nil =>
    have hlen := h.length_le
    rw [List.length_append] at hlen
    exact absurd hlen (Nat.not_succ_le_zero _)
  | append_singleton hist r ih =>
    rw [transactions_concat, List.prefix_concat_iff] at h
    rcases h with heq | hpre
    · obtain ⟨rfl, hlast⟩ := List.append_inj' heq rfl
      obtain rfl := List.singleton_inj.mp hlast
      exact hit_eq_expHit dut hist r
    · exact ih hpre

/-- The answers of the sets, checked by the scoreboard. -/
theorem counts_transactions (dut : L1Cache) (hist : List L1Req) :
    Counts ((transactions (resetSets dut) hist).foldl .write .buildPhase) hist.length
      (wrongReads L1cScoreboard.addressMemory (transactions (resetSets dut) hist)) := by
  induction hist using List.reverseRecOn with
  | nil => exact ⟨rfl, rfl, rfl⟩
  | append_singleton hist r ih =>
    have hmodel := L1cScoreboard.modelInv_buildPhase.foldl (transactions (resetSets dut) hist)
    rw [transactions_concat, List.foldl_append, List.length_append, wrongReads_concat]
    refine ih.write ?_ (hit_eq_expHit dut hist r) fun hr => ?_
    · have hle := @wrongReads_le L1cScoreboard.addressMemory (transactions (resetSets dut) hist)
      rwa [length_transactions] at hle
    · rw [hmodel.expRdata_of_read hr, FlatMemory.bytes_foldl, L1cScoreboard.bytes_genLine]

end Counts

end Tb.L1cUvc

namespace Tb.L1cSim

open L1cUvc (Counts wrongReads)

/-- **The verdict on a test.** Whatever is in the unreset RAMs, and whenever one looks: the
    scoreboard has received the transactions published so far, and the hit flag of each of
    them is the one it predicts from those before it, so it reports no hit mismatch. It
    has failed the reads among them that got other data than the flat memory holds behind
    the requests before them, and passed all others. -/
theorem test_verdict (dut : L1Cache) (items : List L1Req) (n : Nat) :
    Counts (after dut items n).uvc.scoreboard (published dut items n).length
      (wrongReads L1cScoreboard.addressMemory (published dut items n)) ∧
    ∀ pre t, pre ++ [t] <+: published dut items n →
      t.hit = (pre.foldl .write .buildPhase : L1cScoreboard).expHit t := by
  obtain ⟨hafter, hpub⟩ := after_eq dut items n
  obtain ⟨done, left, -, hseen, -⟩ := L1cUvc.seen_after dut items (cyclesOf dut items n)
  rw [hafter, hpub, hseen.scoreboard, hseen.published, L1cUvc.length_transactions]
  exact ⟨L1cUvc.counts_transactions dut done, L1cUvc.expHit_transactions dut done⟩

end Tb.L1cSim

end URiscV
