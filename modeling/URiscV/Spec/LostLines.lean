import URiscV.Spec.UvcVerdict
import URiscV.Tb.L1cSequences

/-!
# Lost lines

Wrong data come from one kind of request only: a read hit that marks a victim clean whose
data the next level does not have. Without one the sets represent the flat memory, and a
test passes. One such request is enough for a test that fails: the line is abandoned, so
two other lines of its set push it out, and then the next level has only an old copy.

## Key results

- `Represents.serve`: one request to a set
- `test_passes`: a test that loses no line
- `losesLine_resetSets`: which requests lose one does not depend on what the RAMs held
- `lost_line_exposed`: a test that finds a lost one
-/

namespace URiscV

open Hdl (L1Cache L1Req CacheSet)
open Hdl.L1Cache (tag index word lineWord lineWriteWord)

/-! ## The data of a set -/

namespace Hdl.CacheSet

/-- The lines of the ways that are valid. -/
def line (x : CacheSet) : Bool → Option (BitVec 24) := fun w =>
  if x.valid w then some (x.tag w) else none

/-- The set represents the lines `view`. -/
abbrev Represents (x : CacheSet) (view : BitVec 24 → BitVec 128) : Prop :=
  WriteBack.Coherent x.line x.data x.dirty x.mem view

/-- A read hit that marks a victim clean whose data the next level does not have. -/
def loses (r : L1Req) (x : CacheSet) : Bool :=
  (x.lookup (L1Cache.tag r.addr)).isSome && !r.wr && x.victimDirty &&
    x.data x.lru != x.mem (x.tag x.lru)

/-- The lines of the set behind a request. -/
def viewAfter (r : L1Req) (view : BitVec 24 → BitVec 128) : BitVec 24 → BitVec 128 :=
  if r.wr then
    Function.update view (L1Cache.tag r.addr)
      (lineWriteWord (view (L1Cache.tag r.addr)) (word r.addr) r.wdata r.wmask)
  else view

section Represents

variable {x : CacheSet} {r : L1Req} {view : BitVec 24 → BitVec 128}

/-- The line of a valid way. -/
theorem line_eq_some {w : Bool} {t : BitVec 24} :
    x.line w = some t ↔ x.valid w = true ∧ x.tag w = t := by
  unfold line
  split
  · next h => simp [h]
  · next h => simp [h]

/-- A hit, unless it loses a line. -/
theorem Represents.hit (h : x.Represents view) {w : Bool}
    (hw : x.lookup (L1Cache.tag r.addr) = some w)
    (hline : x.line w = some (L1Cache.tag r.addr)) (hloses : x.loses r = false) :
    (x.hit r w).Represents (viewAfter r view) := by
  unfold CacheSet.hit viewAfter
  cases hwr : r.wr with
  | true =>
    rw [if_pos rfl, if_pos rfl, ← h.held w _ hline]
    exact h.write hline _
  | false =>
    rw [if_neg Bool.false_ne_true, if_neg Bool.false_ne_true]
    refine h.markClean fun t ht => ?_
    obtain ⟨hv, rfl⟩ := line_eq_some.mp ht
    -- a dirty victim holds the data of the next level
    cases hd : x.dirty x.lru with
    | true =>
      have hdata : x.data x.lru = x.mem (x.tag x.lru) := by
        simpa [loses, hw, hwr, victimDirty, hv, hd] using hloses
      rw [← hdata]
      exact h.held _ _ ht
    | false => exact h.clean _ _ ht hd

/-- The write-back. -/
theorem Represents.evict (h : x.Represents view) : x.evict.Represents view := by
  unfold CacheSet.evict
  cases hd : x.victimDirty with
  | true =>
    have hv : x.valid x.lru = true := (Bool.and_eq_true_iff.mp hd).1
    exact h.writeback (line_eq_some.mpr ⟨hv, rfl⟩)
  | false => exact h

/-- Behind it the next level has what the victim holds. -/
theorem Represents.mem_evict (h : x.Represents view) {t : BitVec 24}
    (ht : x.line x.lru = some t) : x.evict.mem t = view t := by
  obtain ⟨hv, rfl⟩ := line_eq_some.mp ht
  unfold CacheSet.evict
  cases hd : x.victimDirty with
  | true =>
    simp only [if_true, Function.update_self]
    exact h.held _ _ ht
  | false =>
    have hclean : x.dirty x.lru = false := by simpa [victimDirty, hv] using hd
    exact h.clean _ _ ht hclean

/-- What a miss puts in the way of the victim. -/
theorem Represents.filled (h : x.Represents view)
    (habs : ∀ w, x.line w ≠ some (L1Cache.tag r.addr)) :
    x.evict.filled r = viewAfter r view (L1Cache.tag r.addr) := by
  have hmem : x.evict.mem (L1Cache.tag r.addr) = view (L1Cache.tag r.addr) :=
    h.evict.absent _ (by rw [evict_eq]; exact habs)
  unfold CacheSet.filled viewAfter
  rw [hmem]
  cases r.wr with
  | true => simp only [if_true, Function.update_self]
  | false => rfl

/-- A miss. -/
theorem Represents.fill (h : x.Represents view)
    (habs : ∀ w, x.line w ≠ some (L1Cache.tag r.addr)) :
    (x.evict.fill r).Represents (viewAfter r view) := by
  have hfilled := h.filled habs
  have hevict := h.evict
  have hmem := fun t => h.mem_evict (t := t)
  rw [evict_eq] at hfilled hevict ⊢
  have hline : ({ x with mem := x.evict.mem }.fill r).line =
      Function.update x.line x.lru (some (L1Cache.tag r.addr)) := by
    funext w
    by_cases hw : w = x.lru
    · subst hw
      simp [line, CacheSet.fill]
    · simp [line, CacheSet.fill, hw]
  unfold Represents
  rw [hline]
  unfold CacheSet.fill
  -- a write is merged into the line on its way
  cases hwr : r.wr with
  | true =>
    have hput := hevict.replace_write habs hmem ({ x with mem := x.evict.mem }.filled r)
    have hview : viewAfter r view = Function.update view (L1Cache.tag r.addr)
        ({ x with mem := x.evict.mem }.filled r) := by
      rw [hfilled, viewAfter, hwr, if_pos rfl, Function.update_self]
    rw [hview]
    exact hput
  | false =>
    have hput := hevict.replace habs hmem false
    have hview : viewAfter r view = view := by rw [viewAfter, hwr, if_neg Bool.false_ne_true]
    have hdata : { x with mem := x.evict.mem }.filled r = x.evict.mem (L1Cache.tag r.addr) := by
      rw [CacheSet.filled, hwr, if_neg Bool.false_ne_true]
    rw [hview, hdata]
    exact hput

/-- **One request.** -/
theorem Represents.serve (h : x.Represents view) (hloses : x.loses r = false) :
    (x.serve r).1.Represents (viewAfter r view) ∧
      (r.wr = false → (x.serve r).2.2 = lineWord (view (L1Cache.tag r.addr)) (word r.addr)) := by
  rcases x.lookup_cases (L1Cache.tag r.addr) with ⟨hn, hmiss⟩ | ⟨w, hw, hhit⟩
  · have habs : ∀ w, x.line w ≠ some (L1Cache.tag r.addr) := by
      intro w hw
      obtain ⟨hv, ht⟩ := line_eq_some.mp hw
      exact hmiss w hv ht
    rw [serve_of_miss hn]
    refine ⟨h.fill habs, fun hwr => ?_⟩
    rw [h.filled habs, viewAfter, hwr, if_neg Bool.false_ne_true]
  · have hline : x.line w = some (L1Cache.tag r.addr) := line_eq_some.mpr hhit
    rw [serve_of_hit hw]
    refine ⟨h.hit hw hline hloses, fun _ => ?_⟩
    rw [h.held w _ hline]

end Represents

/-! ## What the reset leaves alone -/

/-- Two sets that hold the same lines, in the same way or, when `p` says so, in the other. -/
structure Alike (p : Bool) (x y : CacheSet) : Prop where
  lru : y.lru = (p ^^ x.lru)
  valid : ∀ w, y.valid (p ^^ w) = x.valid w
  tag : ∀ w, x.valid w = true → y.tag (p ^^ w) = x.tag w
  data : ∀ w, x.valid w = true → y.data (p ^^ w) = x.data w
  dirty : ∀ w, x.valid w = true → y.dirty (p ^^ w) = x.dirty w
  mem : y.mem = x.mem

section Alike

variable {p : Bool} {x y : CacheSet} {r : L1Req} {view : BitVec 24 → BitVec 128}

/-- A line that no valid way holds is not found. -/
theorem lookup_eq_none {b : BitVec 24} (h : ∀ w, x.valid w = true → x.tag w ≠ b) :
    x.lookup b = none := by
  rcases x.lookup_cases b with ⟨hn, -⟩ | ⟨w, -, hv, ht⟩
  · exact hn
  · exact absurd ht (h w hv)

/-- A way of one of them, as the other has it. -/
theorem Alike.held (h : Alike p x y) {u : Bool} (hv : y.valid u = true) :
    x.valid (p ^^ u) = true ∧ y.tag u = x.tag (p ^^ u) := by
  have hvalid := h.valid (p ^^ u)
  have htag := h.tag (p ^^ u)
  rw [L1Cache.swap_swap] at hvalid htag
  rw [← hvalid]
  exact ⟨hv, htag (hvalid ▸ hv)⟩

/-- They have a line in the ways that correspond. -/
theorem Alike.lookup (h : Alike p x y) (hrep : x.Represents view) (t : BitVec 24) :
    y.lookup t = (x.lookup t).map (p ^^ ·) := by
  rcases x.lookup_cases t with ⟨hn, hmiss⟩ | ⟨w, hw, hv, ht⟩
  · rw [hn]
    refine lookup_eq_none fun u hu => ?_
    obtain ⟨hv, htag⟩ := h.held hu
    rw [htag]
    exact hmiss _ hv
  · rw [hw]
    rcases y.lookup_cases t with ⟨-, hmiss⟩ | ⟨u, hu, hvu, htu⟩
    · exact absurd ((h.tag w hv).trans ht) (hmiss _ ((h.valid w).trans hv))
    · -- a line is in one way only
      obtain ⟨hv', ht'⟩ := h.held hvu
      have hsame : (p ^^ u) = w := hrep.unique _ _ t
        (line_eq_some.mpr ⟨hv', ht'.symm.trans htu⟩) (line_eq_some.mpr ⟨hv, ht⟩)
      rw [hu, ← hsame, Option.map_some, L1Cache.swap_swap]

/-- Their victims are dirty alike. -/
theorem Alike.victimDirty (h : Alike p x y) : y.victimDirty = x.victimDirty := by
  unfold CacheSet.victimDirty
  rw [h.lru, h.valid]
  cases hv : x.valid x.lru with
  | true => rw [h.dirty _ hv]
  | false => rfl

/-- They lose a line at the same requests. -/
theorem Alike.loses (h : Alike p x y) (hrep : x.Represents view) : y.loses r = x.loses r := by
  unfold CacheSet.loses
  rw [h.lookup hrep, Option.isSome_map, h.victimDirty]
  cases hd : x.victimDirty with
  | true =>
    obtain ⟨hv, -⟩ := Bool.and_eq_true_iff.mp hd
    rw [h.lru, h.data _ hv, h.tag _ hv, h.mem]
  | false => rw [Bool.and_false, Bool.false_and, Bool.false_and]

/-- Updates in the ways that correspond leave the same contents there. -/
theorem update_swap {α : Type} {f g : Bool → α} {w u : Bool} (hfg : u ≠ w → g (p ^^ u) = f u)
    (v : α) : Function.update g (p ^^ w) v (p ^^ u) = Function.update f w v u := by
  by_cases hu : u = w
  · rw [hu, Function.update_self, Function.update_self]
  · have hswap : (p ^^ u) ≠ (p ^^ w) := fun h => hu (by simpa using h)
    rw [Function.update_of_ne hu, Function.update_of_ne hswap, hfg hu]

/-- A hit, in the ways that correspond. -/
theorem Alike.hit (h : Alike p x y) {w : Bool} (hv : x.valid w = true) :
    Alike p (x.hit r w) (y.hit r (p ^^ w)) := by
  have hlru : (!(p ^^ w)) = (p ^^ !w) := (Bool.xor_not p w).symm
  unfold CacheSet.hit
  cases r.wr with
  | true =>
    rw [if_pos rfl, if_pos rfl, h.data w hv]
    exact ⟨hlru, h.valid, h.tag, fun u hu => update_swap (fun _ => h.data u hu) _,
      fun u hu => update_swap (fun _ => h.dirty u hu) _, h.mem⟩
  | false =>
    rw [if_neg Bool.false_ne_true, if_neg Bool.false_ne_true, h.lru]
    exact ⟨hlru, h.valid, h.tag, h.data, fun u hu => update_swap (fun _ => h.dirty u hu) _, h.mem⟩

/-- They write the same line back. -/
theorem Alike.evict_mem (h : Alike p x y) : y.evict.mem = x.evict.mem := by
  unfold CacheSet.evict
  rw [h.victimDirty]
  cases hd : x.victimDirty with
  | true =>
    obtain ⟨hv, -⟩ := Bool.and_eq_true_iff.mp hd
    simp only [if_true, h.lru, h.tag _ hv, h.data _ hv, h.mem]
  | false => exact h.mem

/-- A line that comes takes the place of the victims. -/
theorem Alike.fill (h : Alike p x y) : Alike p (x.evict.fill r) (y.evict.fill r) := by
  have hmem := h.evict_mem
  have hfilled : y.evict.filled r = x.evict.filled r := by
    unfold CacheSet.filled
    rw [hmem]
  rw [@evict_eq x, @evict_eq y] at *
  unfold CacheSet.fill
  rw [hfilled, h.lru]
  -- a way that was not valid is the victim
  have hold {u : Bool} (hu : Function.update x.valid x.lru true u = true) (hne : u ≠ x.lru) :
      x.valid u = true := by rwa [Function.update_of_ne hne] at hu
  exact ⟨(Bool.xor_not p x.lru).symm, fun u => update_swap (fun _ => h.valid u) _,
    fun u hu => update_swap (fun hne => h.tag u (hold hu hne)) _,
    fun u hu => update_swap (fun hne => h.data u (hold hu hne)) _,
    fun u hu => update_swap (fun hne => h.dirty u (hold hu hne)) _, hmem⟩

/-- One request. -/
theorem Alike.serve (h : Alike p x y) (hrep : x.Represents view) :
    Alike p (x.serve r).1 (y.serve r).1 := by
  have hlookup := h.lookup hrep (L1Cache.tag r.addr)
  rcases x.lookup_cases (L1Cache.tag r.addr) with ⟨hn, -⟩ | ⟨w, hw, hv, -⟩
  · rw [hn] at hlookup
    rw [serve_of_miss hn, serve_of_miss hlookup]
    exact h.fill
  · rw [hw] at hlookup
    rw [serve_of_hit hw, serve_of_hit hlookup]
    exact h.hit hv

end Alike

end Hdl.CacheSet

/-! ## Tests that pass -/

namespace Tb.L1cUvc

open Hdl.Sys (setIndex)
open FlatMemory (lineOf writeLine bytes)

/-- Whether one of the requests loses a line. -/
def losesLine (st : BitVec 4 → CacheSet) : List L1Req → Bool
  | [] => false
  | r :: hist =>
    (st (setIndex r)).loses r || losesLine (Shards.apply setIndex CacheSet.serve st r) hist

/-- The sets represent the memory of `lines`. -/
def Represent (st : BitVec 4 → CacheSet) (lines : BitVec 28 → BitVec 128) : Prop :=
  ∀ set, (st set).Represents fun t => lines (t ++ set)

section Represent

variable {st : BitVec 4 → CacheSet} {lines : BitVec 28 → BitVec 128} {r : L1Req}
  {hist more : List L1Req}

/-- Behind a reset the sets represent the backing memory. -/
theorem represent_resetSets (dut : L1Cache) :
    Represent (resetSets dut) fun l => genLine (l ++ 0#4) :=
  fun _ => WriteBack.Coherent.empty _ _ _

/-- A request writes a line of its set. -/
theorem viewAfter_eq : CacheSet.viewAfter r (fun t => lines (t ++ index r.addr)) =
    fun t => writeLine lines r (t ++ index r.addr) := by
  unfold CacheSet.viewAfter writeLine
  cases r.wr with
  | false => rfl
  | true =>
    simp only [if_true]
    rw [FlatMemory.tag_append_index]
    funext t
    by_cases ht : t = tag r.addr
    · rw [ht, FlatMemory.tag_append_index, Function.update_self, Function.update_self]
    · have hne : t ++ index r.addr ≠ lineOf r.addr := fun h =>
        ht (FlatMemory.append_eq_lineOf.mp h).1
      rw [Function.update_of_ne ht, Function.update_of_ne hne]

/-- And no line of the others. -/
theorem writeLine_of_ne {set : BitVec 4} (hset : set ≠ index r.addr) (t : BitVec 24) :
    writeLine lines r (t ++ set) = lines (t ++ set) := by
  have hne : t ++ set ≠ lineOf r.addr := fun h => hset (FlatMemory.append_eq_lineOf.mp h).2
  unfold writeLine
  split
  · exact Function.update_of_ne hne _ _
  · rfl

/-- One request that loses no line. -/
theorem Represent.apply (h : Represent st lines) (hloses : (st (setIndex r)).loses r = false) :
    Represent (Shards.apply setIndex CacheSet.serve st r) (writeLine lines r) ∧
      (r.wr = false → ((st (setIndex r)).serve r).2.2 = FlatMemory.read (bytes lines) r.addr) := by
  obtain ⟨hserve, hdata⟩ := (h (setIndex r)).serve hloses
  have hview : CacheSet.viewAfter r (fun t => lines (t ++ setIndex r)) =
    fun t => writeLine lines r (t ++ setIndex r) := viewAfter_eq
  refine ⟨fun set => ?_, fun hwr => ?_⟩
  · by_cases hset : set = setIndex r
    · rw [hset, Shards.apply_self, ← hview]
      exact hserve
    · simp only [writeLine_of_ne hset]
      rw [Shards.apply_of_ne (Ne.symm hset)]
      exact h set
  · rw [hdata hwr, FlatMemory.read_bytes, ← FlatMemory.tag_append_index]
    rfl

/-- Requests that lose no line write the memory represented. -/
theorem Represent.after (h : Represent st lines) (hloses : losesLine st hist = false) :
    Represent (setsAfter st hist) (hist.foldl writeLine lines) := by
  induction hist generalizing st lines with
  | nil => exact h
  | cons r hist ih =>
    obtain ⟨hone, hrest⟩ := Bool.or_eq_false_iff.mp hloses
    exact ih (h.apply hone).1 hrest

/-- So every read gets what the memory holds. -/
theorem Represent.wrongReads_eq_zero (h : Represent st lines) (hloses : losesLine st hist = false) :
    wrongReads (bytes lines) (transactions st hist) = 0 := by
  induction hist generalizing st lines with
  | nil => rfl
  | cons r hist ih =>
    obtain ⟨hone, hrest⟩ := Bool.or_eq_false_iff.mp hloses
    obtain ⟨happly, hdata⟩ := h.apply hone
    have htail := ih happly hrest
    rw [FlatMemory.bytes_writeLine] at htail
    have hfirst :
        wrongRead (bytes lines) (transaction r ((st (setIndex r)).serve r).2) = false := by
      cases hwr : r.wr with
      | true => simp [wrongRead, transaction, L1cTransaction.of, hwr]
      | false => simp [wrongRead, transaction, L1cTransaction.of, hdata hwr]
    show (wrongRead (bytes lines) (transaction r ((st (setIndex r)).serve r).2)).toNat +
      wrongReads (FlatMemory.apply (bytes lines) r) (transactions _ hist) = 0
    rw [hfirst, htail]
    rfl

/-- Whether a test loses a line depends on the lines that the sets hold only. -/
theorem losesLine_congr {st' : BitVec 4 → CacheSet}
    (halike : ∀ set, ∃ p, CacheSet.Alike p (st set) (st' set)) (h : Represent st lines) :
    losesLine st' hist = losesLine st hist := by
  induction hist generalizing st st' lines with
  | nil => rfl
  | cons r hist ih =>
    obtain ⟨p, hp⟩ := halike (setIndex r)
    rw [losesLine, losesLine, hp.loses (h _)]
    cases hloses : (st (setIndex r)).loses r with
    | true => rw [Bool.true_or, Bool.true_or]
    | false =>
      have hnext : ∀ set, ∃ p, CacheSet.Alike p (Shards.apply setIndex CacheSet.serve st r set)
          (Shards.apply setIndex CacheSet.serve st' r set) := by
        intro set
        by_cases hset : setIndex r = set
        · subst hset
          rw [Shards.apply_self, Shards.apply_self]
          exact ⟨p, hp.serve (h _)⟩
        · rw [Shards.apply_of_ne hset, Shards.apply_of_ne hset]
          exact halike set
      rw [ih hnext (h.apply hloses).1]

/-- So it does not depend on what the reset leaves alone. -/
theorem losesLine_resetSets (dut dut' : L1Cache) :
    losesLine (resetSets dut') hist = losesLine (resetSets dut) hist := by
  refine losesLine_congr (fun set => ?_) (represent_resetSets dut)
  refine ⟨(resetSets dut set).lru ^^ (resetSets dut' set).lru, ?_, fun w => rfl, fun w hw => ?_,
    fun w hw => ?_, fun w hw => ?_, rfl⟩
  · cases (resetSets dut set).lru <;> cases (resetSets dut' set).lru <;> rfl
  -- no way is valid
  all_goals cases hw

/-- Some requests, and then others. -/
theorem losesLine_append : losesLine st (hist ++ more) =
    (losesLine st hist || losesLine (setsAfter st hist) more) := by
  induction hist generalizing st with
  | nil => rfl
  | cons r hist ih =>
    rw [List.cons_append, losesLine, ih, losesLine, Bool.or_assoc]
    rfl

end Represent

/-- **A test that loses no line passes.** If no request of a test is a read hit that marks a
    victim clean whose data the next level does not have, the scoreboard has passed, after
    every cycle, all the transactions published so far. -/
theorem test_passes (dut : L1Cache) (items : List L1Req)
    (h : losesLine (resetSets dut) items = false) (n : Nat) :
    Counts (after dut items (n + 2)).scoreboard (published dut items (n + 2)).length 0 := by
  obtain ⟨done, left, k, hrun⟩ := run_after dut items n
  have hdone : losesLine (resetSets dut) done = false := by
    rw [hrun.items, losesLine_append] at h
    exact (Bool.or_eq_false_iff.mp h).1
  have hzero := (represent_resetSets dut).wrongReads_eq_zero hdone
  rw [L1cScoreboard.bytes_genLine] at hzero
  have hcounts := counts_transactions dut done
  rw [hzero] at hcounts
  rw [hrun.scoreboard, hrun.published, length_transactions]
  exact hcounts

/-- The directed sequences lose none, whatever is in the unreset RAMs. -/
theorem losesLine_fullSequence (dut : L1Cache) :
    losesLine (resetSets dut) L1cSequences.fullSequence = false := by
  rw [losesLine_resetSets L1Cache.blank]
  decide +kernel

/-- So all of their tests pass. -/
theorem test_passes_fullSequence :
    losesLine (resetSets L1Cache.blank) L1cSequences.fullSequence = false ∧
    ∀ dut n, Counts (after dut L1cSequences.fullSequence (n + 2)).scoreboard
      (published dut L1cSequences.fullSequence (n + 2)).length 0 :=
  ⟨losesLine_fullSequence L1Cache.blank, fun dut n =>
    test_passes dut L1cSequences.fullSequence (losesLine_fullSequence dut) n⟩

end Tb.L1cUvc

/-! ## Tests that fail -/

namespace Hdl.CacheSet

section Lost

variable {x : CacheSet} {r : L1Req} {view : BitVec 24 → BitVec 128} {a b c : BitVec 24}

/-- No way will write line `a` back. -/
def Abandoned (a : BitVec 24) (x : CacheSet) : Prop :=
  ∀ w, x.valid w = true → x.dirty w = true → x.tag w ≠ a

/-- A request that loses a line abandons it. -/
theorem abandoned_of_loses (h : x.Represents view) (hloses : x.loses r = true) :
    r.wr = false ∧ (x.serve r).1.tag = x.tag ∧ Abandoned (x.tag x.lru) (x.serve r).1 ∧
      (x.serve r).1.mem (x.tag x.lru) ≠ view (x.tag x.lru) := by
  obtain ⟨⟨⟨hhit, hwr⟩, hd⟩, hne⟩ :
      (((x.lookup (L1Cache.tag r.addr)).isSome = true ∧ r.wr = false) ∧ x.victimDirty = true) ∧
        x.data x.lru ≠ x.mem (x.tag x.lru) := by
    simpa [loses] using hloses
  obtain ⟨w, hw⟩ := Option.isSome_iff_exists.mp hhit
  have hv : x.valid x.lru = true := (Bool.and_eq_true_iff.mp hd).1
  have hline : x.line x.lru = some (x.tag x.lru) := line_eq_some.mpr ⟨hv, rfl⟩
  have hhit' : x.hit r w = { x with lru := !w, dirty := Function.update x.dirty x.lru false } := by
    rw [CacheSet.hit, hwr, if_neg Bool.false_ne_true]
  rw [serve_of_hit hw, hhit']
  refine ⟨hwr, rfl, fun u hvu hdu htag => ?_, ?_⟩
  · -- only the victim holds the line
    have hvu' : x.valid u = true := hvu
    have hu : u = x.lru := h.unique u x.lru _ (line_eq_some.mpr ⟨hvu', htag⟩) hline
    rw [hu] at hdu
    simp at hdu
  · rw [← h.held _ _ hline]
    exact Ne.symm hne

/-- The next level keeps its copy of an abandoned line when other lines are written
    back. -/
theorem Abandoned.evict_mem (h : Abandoned a x) : x.evict.mem a = x.mem a := by
  unfold CacheSet.evict
  cases hd : x.victimDirty with
  | true =>
    obtain ⟨hv, hdirty⟩ := Bool.and_eq_true_iff.mp hd
    simp only [if_true]
    exact Function.update_of_ne (h _ hv hdirty).symm _ _
  | false => rfl

/-- The read of a line that is in no way. -/
theorem serve_read_of_miss (hwr : r.wr = false) (hmiss : x.lookup (L1Cache.tag r.addr) = none) :
    x.serve r = ({ x with
      valid := Function.update x.valid x.lru true
      tag := Function.update x.tag x.lru (L1Cache.tag r.addr)
      data := Function.update x.data x.lru (x.evict.mem (L1Cache.tag r.addr))
      dirty := Function.update x.dirty x.lru false
      lru := !x.lru
      mem := x.evict.mem }, false, lineWord (x.evict.mem (L1Cache.tag r.addr)) (word r.addr)) := by
  have hfilled : x.evict.filled r = x.evict.mem (L1Cache.tag r.addr) := by
    rw [filled, hwr, if_neg Bool.false_ne_true]
  rw [serve_of_miss hmiss, CacheSet.fill, hfilled, hwr, evict_eq]

/-- It leaves other lines abandoned. -/
theorem Abandoned.serve_read (h : Abandoned a x) (hwr : r.wr = false)
    (hmiss : x.lookup (L1Cache.tag r.addr) = none) :
    Abandoned a (x.serve r).1 ∧ (x.serve r).1.mem a = x.mem a := by
  rw [serve_read_of_miss hwr hmiss]
  refine ⟨fun w hv hd => ?_, h.evict_mem⟩
  by_cases hw : w = x.lru
  · subst hw
    simp at hd
  · simp only [Function.update_of_ne hw] at hv hd ⊢
    exact h w hv hd

/-- Two lines that are in no way. -/
theorem exists_fresh (x : CacheSet) : ∃ b c : BitVec 24,
    (∀ w, x.tag w ≠ b) ∧ (∀ w, x.tag w ≠ c) ∧ b ≠ c := by
  by_contra h
  simp only [not_exists, Bool.forall_bool] at h
  -- two tags cannot meet all pairs of four lines
  have h1 := h 0 1
  have h2 := h 0 2
  have h3 := h 0 3
  have h4 := h 1 2
  have h5 := h 1 3
  have h6 := h 2 3
  grind

/-- The reads of two other lines take the place of an abandoned one, so that it is read
    from the next level. -/
theorem Abandoned.serve_three (h : Abandoned a x) (q q' q'' : L1Req) (hq : q.wr = false)
    (hq' : q'.wr = false) (hq'' : q''.wr = false) (hb : ∀ w, x.tag w ≠ L1Cache.tag q.addr)
    (hc : ∀ w, x.tag w ≠ L1Cache.tag q'.addr) (hbc : L1Cache.tag q.addr ≠ L1Cache.tag q'.addr)
    (hba : L1Cache.tag q.addr ≠ L1Cache.tag q''.addr)
    (hca : L1Cache.tag q'.addr ≠ L1Cache.tag q''.addr) (ha : L1Cache.tag q''.addr = a) :
    ((((x.serve q).1.serve q').1).serve q'').2.2 = lineWord (x.mem a) (word q''.addr) := by
  have hmiss := lookup_eq_none fun w _ => hb w
  obtain ⟨h1, hmem1⟩ := h.serve_read hq hmiss
  have hx1 := congrArg Prod.fst (serve_read_of_miss hq hmiss)
  generalize (x.serve q).1 = x1 at *
  -- the first read has put another line in the way of the victim
  have hmiss' : x1.lookup (L1Cache.tag q'.addr) = none := by
    refine lookup_eq_none fun w _ => ?_
    rw [hx1]
    by_cases hw : w = x.lru
    · simpa [hw] using hbc
    · simpa [hw] using hc w
  obtain ⟨h2, hmem2⟩ := h1.serve_read hq' hmiss'
  have hx2 := congrArg Prod.fst (serve_read_of_miss hq' hmiss')
  generalize (x1.serve q').1 = x2 at *
  -- now both ways have other lines
  have hmiss'' : x2.lookup (L1Cache.tag q''.addr) = none := by
    refine lookup_eq_none fun w _ => ?_
    rw [hx2, hx1]
    by_cases hw : w = x.lru
    · subst hw
      simpa using hba
    · have hw' : w = !x.lru := Bool.eq_not_of_ne hw
      subst hw'
      simpa using hca
  have hans := congrArg (fun p => p.2.2) (serve_read_of_miss hq'' hmiss'')
  rw [hans]
  show lineWord (x2.evict.mem (L1Cache.tag q''.addr)) (word q''.addr) = _
  rw [ha, h2.evict_mem, hmem2, hmem1]

end Lost

end Hdl.CacheSet

namespace Tb.L1cUvc

open Hdl.Sys (setIndex)
open FlatMemory (lineOf writeLine bytes)
open L1cSequences (doRead doWrite makeAddr)

section Exposed

variable {t : BitVec 24} {idx : BitVec 4} {sel : BitVec 2}

/-- A read of word `sel` of line `t` of a set. -/
abbrev readWord (idx : BitVec 4) (t : BitVec 24) (sel : BitVec 2) : L1Req :=
  doRead (makeAddr t idx sel)

/-- Such a read is for line `t`. -/
theorem tag_readWord : tag (readWord idx t sel).addr = t := by
  show tag (makeAddr t idx sel) = t
  rw [tag, makeAddr, BitVec.extractLsb'_append_eq_of_le (by omega),
    BitVec.extractLsb'_append_eq_of_le (by omega)]
  exact BitVec.extractLsb'_append_eq_left

/-- In its set. -/
theorem setIndex_readWord : setIndex (readWord idx t sel) = idx := by
  show index (makeAddr t idx sel) = idx
  rw [index, makeAddr, BitVec.extractLsb'_append_eq_of_le (by omega),
    BitVec.extractLsb'_append_eq_of_le (by omega)]
  exact BitVec.extractLsb'_append_eq_right

/-- And for word `sel`. -/
theorem word_readWord : word (readWord idx t sel).addr = sel := by
  show word (makeAddr t idx sel) = sel
  rw [word, makeAddr, BitVec.extractLsb'_append_eq_of_le (by omega)]
  exact BitVec.extractLsb'_append_eq_right

/-- Two lines differ in some word. -/
theorem exists_lineWord_ne {l l' : BitVec 128} (h : l ≠ l') :
    ∃ sel, lineWord l sel ≠ lineWord l' sel := by
  by_contra hall
  push Not at hall
  apply h
  apply BitVec.eq_of_getLsbD_eq
  intro i hi
  have hword := congrArg (fun x => x.getLsbD (i % 32)) (hall (BitVec.ofNat 2 (i / 32)))
  have hi' : i / 32 % 4 * 32 + i % 32 = i := by omega
  simpa [lineWord, BitVec.getLsbD_extractLsb', hi', Nat.mod_lt] using hword

/-- A read leaves the memory alone. -/
theorem run_concat_read {m : FlatMemory.Memory} {hist : List L1Req} {r : L1Req}
    (hwr : r.wr = false) : FlatMemory.run m (hist ++ [r]) = FlatMemory.run m hist := by
  rw [FlatMemory.run_concat, FlatMemory.apply_read _ hwr]

/-- The reads that expose the loss of a line. -/
theorem exists_wrong_read {dut : L1Cache} {hist : List L1Req} {r : L1Req}
    (h : losesLine (resetSets dut) hist = false)
    (hr : (setsAfter (resetSets dut) hist (setIndex r)).loses r = true) :
    ∃ q q' q'' : L1Req, q.wr = false ∧ q'.wr = false ∧ q''.wr = false ∧
      wrongRead (FlatMemory.run L1cScoreboard.addressMemory (hist ++ [r] ++ [q] ++ [q']))
        (transaction q''
          ((setsAfter (resetSets dut) (hist ++ [r] ++ [q] ++ [q']) (setIndex q'')).serve q'').2) =
        true := by
  have hrep := (represent_resetSets dut).after h
  generalize hx : setsAfter (resetSets dut) hist (setIndex r) = x at *
  obtain ⟨hwr, htag, hab, hne⟩ := CacheSet.abandoned_of_loses (hx ▸ hrep (setIndex r)) hr
  obtain ⟨sel, hsel⟩ := exists_lineWord_ne hne
  obtain ⟨b, c, hb, hc, hbc⟩ := CacheSet.exists_fresh x
  have hset (hist : List L1Req) (q : L1Req) (hq : setIndex q = setIndex r) :
      setsAfter (resetSets dut) (hist ++ [q]) (setIndex r) =
        ((setsAfter (resetSets dut) hist (setIndex r)).serve q).1 := by
    rw [setsAfter, Shards.after_concat, ← hq, Shards.apply_self]
  refine ⟨readWord (setIndex r) b 0, readWord (setIndex r) c 0,
    readWord (setIndex r) (x.tag x.lru) sel, rfl, rfl, rfl, ?_⟩
  -- the cache has the copy of the next level, the memory that of the lost way
  have hdata := hab.serve_three (readWord (setIndex r) b 0) (readWord (setIndex r) c 0)
    (readWord (setIndex r) (x.tag x.lru) sel) rfl rfl rfl
  rw [tag_readWord, tag_readWord, tag_readWord, word_readWord, htag] at hdata
  rw [setIndex_readWord, hset _ _ setIndex_readWord, hset _ _ setIndex_readWord, hset _ _ rfl, hx]
  have hmem : FlatMemory.read (FlatMemory.run L1cScoreboard.addressMemory
      (hist ++ [r] ++ [readWord (setIndex r) b 0] ++ [readWord (setIndex r) c 0]))
      (readWord (setIndex r) (x.tag x.lru) sel).addr = lineWord
        (hist.foldl writeLine (fun l => genLine (l ++ 0#4)) (x.tag x.lru ++ setIndex r)) sel := by
    have hidx : index (readWord (setIndex r) (x.tag x.lru) sel).addr = setIndex r :=
      setIndex_readWord
    rw [run_concat_read rfl, run_concat_read rfl, run_concat_read hwr,
      ← L1cScoreboard.bytes_genLine, ← FlatMemory.bytes_foldl, FlatMemory.read_bytes,
      ← FlatMemory.tag_append_index, tag_readWord, hidx, word_readWord]
  show (!false && _ != FlatMemory.read _ (readWord (setIndex r) (x.tag x.lru) sel).addr) = true
  rw [hmem]
  show (!false && (((((x.serve r).1.serve (readWord (setIndex r) b 0)).1.serve
    (readWord (setIndex r) c 0)).1).serve
      (readWord (setIndex r) (x.tag x.lru) sel)).2.2 != _) = true
  rw [hdata hb hc hbc (hb x.lru).symm (hc x.lru).symm rfl]
  simpa using hsel

/-- A test in which the scoreboard counts at most four failures, and one. -/
theorem wrongReads_of_exposed {dut : L1Cache} {hist : List L1Req} {r q q' q'' : L1Req}
    (h : losesLine (resetSets dut) hist = false)
    (hwrong : wrongRead (FlatMemory.run L1cScoreboard.addressMemory (hist ++ [r] ++ [q] ++ [q']))
        (transaction q''
          ((setsAfter (resetSets dut) (hist ++ [r] ++ [q] ++ [q']) (setIndex q'')).serve q'').2) =
        true) :
    1 ≤ wrongReads L1cScoreboard.addressMemory
        (transactions (resetSets dut) (hist ++ [r] ++ [q] ++ [q'] ++ [q''])) ∧
      wrongReads L1cScoreboard.addressMemory
        (transactions (resetSets dut) (hist ++ [r] ++ [q] ++ [q'] ++ [q''])) ≤ 4 := by
  have hzero := (represent_resetSets dut).wrongReads_eq_zero h
  rw [L1cScoreboard.bytes_genLine] at hzero
  rw [transactions_concat, wrongReads_concat, map_req_transactions, hwrong, transactions_concat,
    wrongReads_concat, transactions_concat, wrongReads_concat, transactions_concat,
    wrongReads_concat, hzero, Bool.toNat_true]
  have hle := Bool.toNat_le
  constructor
  · omega
  · grind

end Exposed

end Tb.L1cUvc

namespace Tb.L1cSim

open Hdl.Sys (setIndex)
open L1cSequences (doRead doWrite makeAddr)
open L1cUvc (losesLine resetSets setsAfter readWord)

/-- **Every lost line can be found.** Behind requests that lose no line, let `r` be a read hit
    that marks a victim clean whose data the next level does not have. Then three reads
    more make a test that fails: when it is through, the scoreboard has counted a failed
    transaction; and it gets through when the watchdog leaves fourteen cycles to each of
    its requests. -/
theorem lost_line_exposed (dut : L1Cache) (items : List L1Req) (r : L1Req)
    (h : losesLine (resetSets dut) items = false)
    (hr : (setsAfter (resetSets dut) items (setIndex r)).loses r = true) :
    ∃ more : List L1Req, more.length = 3 ∧ (∀ q ∈ more, q.wr = false) ∧ ∀ n,
      ((after dut (items ++ r :: more) n).status = .finished →
        (after dut (items ++ r :: more) n).uvc.scoreboard.transactionsFailed ≠ 0) ∧
      (14 * (items.length + 4) + 2 ≤ min n watchdogCycles →
        (after dut (items ++ r :: more) n).status = .finished) := by
  obtain ⟨q, q', q'', hq, hq', hq'', hwrong⟩ := L1cUvc.exists_wrong_read h hr
  refine ⟨[q, q', q''], rfl, by simp [hq, hq', hq''], fun n => ⟨fun hover => ?_, fun hn => ?_⟩⟩
  · have hitems : items ++ r :: [q, q', q''] = items ++ [r] ++ [q] ++ [q'] ++ [q''] := by simp
    rw [hitems] at hover ⊢
    rw [(seen_of_finished _ _ hover).scoreboard, (L1cUvc.counts_transactions dut _).failed]
    obtain ⟨hone, hfour⟩ := L1cUvc.wrongReads_of_exposed h hwrong
    -- four failures cannot wrap the counter
    intro hzero
    have hnat := congrArg BitVec.toNat hzero
    rw [BitVec.toNat_ofNat, Nat.mod_eq_of_lt (by omega)] at hnat
    rw [hnat] at hone
    exact Nat.not_succ_le_zero 0 hone
  · have hend := (@endCycle_bounds dut (items ++ r :: [q, q', q'']) (by simp)).2
    have hlen : (items ++ r :: [q, q', q'']).length = items.length + 4 := List.length_append
    rw [hlen] at hend
    rw [(after_eq dut _ n).1]
    exact if_pos (Nat.le_trans hend hn)

/-- A write, and two reads of another line of its set. -/
theorem lost_line_exposed_writeFirst :
    (setsAfter (resetSets L1Cache.blank) [doWrite (makeAddr 0 0 0) 5, readWord 0 1 0] 0).loses
      (readWord 0 1 0) = true ∧
    ∃ more : List L1Req, more.length = 3 ∧ (∀ q ∈ more, q.wr = false) ∧ ∀ n,
      ((after L1Cache.blank ([doWrite (makeAddr 0 0 0) 5, readWord 0 1 0] ++
          readWord 0 1 0 :: more) n).status = .finished →
        (after L1Cache.blank ([doWrite (makeAddr 0 0 0) 5, readWord 0 1 0] ++
          readWord 0 1 0 :: more) n).uvc.scoreboard.transactionsFailed ≠ 0) ∧
      (14 * (2 + 4) + 2 ≤ min n watchdogCycles →
        (after L1Cache.blank ([doWrite (makeAddr 0 0 0) 5, readWord 0 1 0] ++
          readWord 0 1 0 :: more) n).status = .finished) :=
  ⟨by decide +kernel, lost_line_exposed L1Cache.blank [doWrite (makeAddr 0 0 0) 5, readWord 0 1 0]
    (readWord 0 1 0) (by decide +kernel) (by decide +kernel)⟩

end Tb.L1cSim

end URiscV
