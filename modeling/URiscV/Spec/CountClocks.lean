import Mathlib.Algebra.Group.Nat.Defs
import URiscV.ForStd.DeltaQueue
import URiscV.Tb.ClkRstDriver

/-!
# Delay requests are answered when they are due

Driver and countdown are a `DeltaQueue.Timer` whose front delta is kept in the
countdown of the interface (`ClkRstDriver.pending`), as long as the driver finds the
place of every request it queues and the countdown counts.

It does not find the place of a request that is due together with an outstanding one,
except behind all of them, or right before the last one when the delta of that one is
the larger (`RequestOk`); and the countdown, which is signed, does not count down from
`2^31` on (`EdgeOk`).

## Key results

- `deltas_walk`: the loop over the queue is the insertion of a delta queue
- `Refines.step`: one event
- `answers_perm_due`: the runs whose events all meet the condition
-/

namespace URiscV.Tb

open DeltaQueue (deadlines Timer Ledger)

variable {α : Type*}

/-! ## What the driver gets right -/

/-- At most one of the requests `rs` is due after time `t`, and that one more than `n`
    later. -/
def LaterOk (rs : List (α × Nat)) (t n : Nat) : Prop :=
  rs.countP (t < ·.2) ≤ 1 ∧ ∀ r ∈ rs, t < r.2 → t + n < r.2

/-- The driver queues rightly a request of `n` edges that is due at `t`, when the
    requests `rs` are outstanding. -/
def RequestOk (rs : List (α × Nat)) (t n : Nat) : Prop :=
  (∃ r ∈ rs, r.2 = t) → (∃ r ∈ rs, r.2 < t) ∧ LaterOk rs t n

/-- The countdown counts at the edge after time `t`, when `rs` are outstanding. -/
def EdgeOk (rs : List (α × Nat)) (t : Nat) : Prop := rs = [] ∨ ∃ r ∈ rs, r.2 < t + 2 ^ 31

instance (rs : List (α × Nat)) (t n : Nat) : Decidable (LaterOk rs t n) :=
  inferInstanceAs (Decidable (_ ∧ _))

instance (rs : List (α × Nat)) (t n : Nat) : Decidable (RequestOk rs t n) :=
  inferInstanceAs (Decidable (_ → _))

instance (rs : List (α × Nat)) (t : Nat) : Decidable (EdgeOk rs t) :=
  decidable_of_iff (rs.isEmpty = true ∨ ∃ r ∈ rs, r.2 < t + 2 ^ 31) (by
    rw [List.isEmpty_iff, EdgeOk])

namespace ClkRstEvent

/-- The event as one of a timer. -/
def toEvent : ClkRstEvent α → DeltaQueue.Event α
  | .request req => .request req.idInfo req.clockCyclesToCount.toNat
  | .posedge => .tick

/-- The event meets the condition, after what was asked before it. -/
def Ok (l : Ledger α) : ClkRstEvent α → Prop
  | .request req => RequestOk l.outstanding (l.elapsed + req.clockCyclesToCount.toNat)
      req.clockCyclesToCount.toNat
  | .posedge => EdgeOk l.outstanding l.elapsed

/-- Every event meets the condition. -/
def AllOk (l : Ledger α) : List (ClkRstEvent α) → Prop
  | [] => True
  | e :: es => e.Ok l ∧ AllOk (l.step e.toEvent) es

instance (l : Ledger α) : (e : ClkRstEvent α) → Decidable (e.Ok l)
  | .request req => inferInstanceAs (Decidable (RequestOk _ _ req.clockCyclesToCount.toNat))
  | .posedge => inferInstanceAs (Decidable (EdgeOk _ _))

instance AllOk.decidable (l : Ledger α) : (es : List (ClkRstEvent α)) → Decidable (AllOk l es)
  | [] => inferInstanceAs (Decidable True)
  | e :: es =>
    have := AllOk.decidable (l.step e.toEvent) es
    inferInstanceAs (Decidable (e.Ok l ∧ AllOk (l.step e.toEvent) es))

end ClkRstEvent

section Conditions

variable {rs rs' : List (α × Nat)} {t n : Nat}

/-- What holds of all requests holds of the others. -/
theorem LaterOk.of_cons {p : α × Nat} (h : LaterOk (p :: rs) t n) : LaterOk rs t n := by
  obtain ⟨hcount, hlater⟩ := h
  rw [List.countP_cons] at hcount
  exact ⟨by omega, fun r hr => hlater r (List.mem_cons_of_mem p hr)⟩

/-- An entry that is not due later does not matter. -/
theorem laterOk_cons_of_le {p : α × Nat} (h : p.2 ≤ t) :
    LaterOk (p :: rs) t n ↔ LaterOk rs t n := by
  refine ⟨LaterOk.of_cons, fun ⟨hcount, hlater⟩ => ⟨?_, fun r hr => ?_⟩⟩
  · rwa [List.countP_cons_of_neg (by simpa using h)]
  · cases List.mem_cons.mp hr with
    | inl heq => rw [heq]; intro hlt; omega
    | inr hmem => exact hlater r hmem

/-- The condition on one request. -/
theorem laterOk_singleton {p : α × Nat} : LaterOk [p] t n ↔ (t < p.2 → t + n < p.2) := by
  refine ⟨fun h => h.2 p (List.mem_singleton_self p), fun h => ⟨List.countP_le_length, ?_⟩⟩
  intro r hr
  rwa [List.mem_singleton.mp hr]

/-- The first of two entries is not due later. -/
theorem LaterOk.le_of_cons_cons {p p' : α × Nat} (h : LaterOk (p :: p' :: rs) t n)
    (hle : p.2 ≤ p'.2) : p.2 ≤ t := by
  have hcount := h.1
  by_cases hp : t < p.2
  · have hp' : t < p'.2 := by omega
    rw [List.countP_cons_of_pos (by simpa using hp), List.countP_cons_of_pos (by simpa using hp')]
      at hcount
    omega
  · omega

/-- The order of the requests does not matter. -/
theorem RequestOk.perm (h : RequestOk rs t n) (hp : rs.Perm rs') : RequestOk rs' t n := by
  rintro ⟨r, hr, ht⟩
  obtain ⟨⟨r', hr', ht'⟩, hcount, hlater⟩ := h ⟨r, hp.mem_iff.mpr hr, ht⟩
  refine ⟨⟨r', hp.mem_iff.mp hr', ht'⟩, ?_, fun r hr => hlater r (hp.mem_iff.mpr hr)⟩
  rw [← hp.countP_eq]
  exact hcount

/-- Nor does it here. -/
theorem EdgeOk.perm (h : EdgeOk rs t) (hp : rs.Perm rs') : EdgeOk rs' t := by
  cases h with
  | inl hnil => subst hnil; exact .inl hp.nil_eq.symm
  | inr hex =>
    obtain ⟨r, hr, ht⟩ := hex
    exact .inr ⟨r, hp.mem_iff.mp hr, ht⟩

end Conditions

namespace ClkRstDriver

/-- The deltas of queued items. -/
def deltas (q : List (ClkRstSeqItem α)) : List (α × Nat) :=
  q.map fun item => (item.idInfo, item.clockCyclesToCount.toNat)

/-- The delta queue that queue and countdown make up. -/
def pending (d : ClkRstDriver α) : List (α × Nat) :=
  match d.countClocksRequestQueue with
  | [] => []
  | front :: rest => (front.idInfo, d.vif.cycleCountdown.toNat) :: deltas rest

/-- The delta of an entry. -/
@[simp] theorem deltas_cons (item : ClkRstSeqItem α) (q : List (ClkRstSeqItem α)) :
    deltas (item :: q) = (item.idInfo, item.clockCyclesToCount.toNat) :: deltas q := rfl

/-- No entries, no deltas. -/
@[simp] theorem deltas_nil : deltas ([] : List (ClkRstSeqItem α)) = [] := rfl

/-! ## Queueing -/

/-- The request in front of an entry that is due after it. -/
theorem deltas_before {req item : ClkRstSeqItem α} {total : BitVec 32}
    (rest : List (ClkRstSeqItem α)) (hle : total.toNat ≤ req.clockCyclesToCount.toNat)
    (hlt : req.clockCyclesToCount.toNat - total.toNat < item.clockCyclesToCount.toNat) :
    deltas ({ req with clockCyclesToCount := req.clockCyclesToCount - total } ::
        { item with clockCyclesToCount :=
            item.clockCyclesToCount - (req.clockCyclesToCount - total) } :: rest) =
      DeltaQueue.insert req.idInfo (req.clockCyclesToCount.toNat - total.toNat)
        (deltas (item :: rest)) := by
  have hsub : (req.clockCyclesToCount - total).toNat =
      req.clockCyclesToCount.toNat - total.toNat := BitVec.toNat_sub_of_le hle
  have hdelayed : (item.clockCyclesToCount - (req.clockCyclesToCount - total)).toNat =
      item.clockCyclesToCount.toNat - (req.clockCyclesToCount.toNat - total.toNat) := by
    rw [BitVec.toNat_sub_of_le (by rw [BitVec.le_def, hsub]; omega), hsub]
  simp only [deltas_cons, hsub, hdelayed]
  rw [DeltaQueue.insert_of_lt _ hlt]

/-- The request behind the last entry. -/
theorem deltas_behind {req item : ClkRstSeqItem α} {total : BitVec 32}
    (hsum : (total + item.clockCyclesToCount).toNat =
      total.toNat + item.clockCyclesToCount.toNat)
    (hge : total.toNat + item.clockCyclesToCount.toNat ≤ req.clockCyclesToCount.toNat) :
    deltas [item, { req with
        clockCyclesToCount := req.clockCyclesToCount - (total + item.clockCyclesToCount) }] =
      DeltaQueue.insert req.idInfo (req.clockCyclesToCount.toNat - total.toNat)
        (deltas [item]) := by
  have hback : (req.clockCyclesToCount - (total + item.clockCyclesToCount)).toNat =
      req.clockCyclesToCount.toNat - total.toNat - item.clockCyclesToCount.toNat := by
    rw [BitVec.toNat_sub_of_le (by rw [BitVec.le_def, hsum]; omega), hsum]
    omega
  have hnlt : item.clockCyclesToCount.toNat ≤ req.clockCyclesToCount.toNat - total.toNat := by
    omega
  simp only [deltas_cons, deltas_nil, hback]
  rw [DeltaQueue.insert_of_le _ hnlt]
  rfl

/-- The loop at the last entry. -/
theorem deltas_walk_last (e : Nat) {req item : ClkRstSeqItem α} {total : BitVec 32}
    (hle : total.toNat ≤ req.clockCyclesToCount.toNat)
    (hsum : (total + item.clockCyclesToCount).toNat =
      total.toNat + item.clockCyclesToCount.toNat)
    (hin : ¬(total < req.clockCyclesToCount ∧
      req.clockCyclesToCount < total + item.clockCyclesToCount))
    (hok : req.clockCyclesToCount.toNat = total.toNat →
      LaterOk (deadlines (e + total.toNat) (deltas [item])) (e + req.clockCyclesToCount.toNat)
        req.clockCyclesToCount.toNat) :
    deltas (walk req total [item]) =
      DeltaQueue.insert req.idInfo (req.clockCyclesToCount.toNat - total.toNat)
        (deltas [item]) := by
  have hout : req.clockCyclesToCount.toNat = total.toNat ∨
      total.toNat + item.clockCyclesToCount.toNat ≤ req.clockCyclesToCount.toNat := by
    rw [BitVec.lt_def, BitVec.lt_def, hsum] at hin
    omega
  by_cases hlast : req.clockCyclesToCount < item.clockCyclesToCount
  · -- due with the entry before
    have hlt : req.clockCyclesToCount.toNat - total.toNat < item.clockCyclesToCount.toNat := by
      have hlast' := hlast
      rw [BitVec.lt_def] at hlast'
      omega
    rw [← deltas_before [] hle hlt]
    simp only [walk, if_neg hin, if_pos hlast]
  · have hge : total.toNat + item.clockCyclesToCount.toNat ≤ req.clockCyclesToCount.toNat := by
      cases hout with
      | inr hge => exact hge
      | inl heq =>
        -- otherwise the last entry would be due more than `total` edges later
        have hlater := (hok heq).2 _ (List.mem_cons_self ..)
        rw [BitVec.lt_def] at hlast
        simp only [heq] at hlater hlast ⊢
        omega
    rw [← deltas_behind hsum hge]
    simp only [walk, if_neg hin, if_neg hlast]

/-- A tie with an entry behind the first, or with the first, is one with these entries. -/
theorem tie_of_tie_tail {e : Nat} {req item : ClkRstSeqItem α} {total : BitVec 32}
    {rest : List (ClkRstSeqItem α)}
    (hsum : (total + item.clockCyclesToCount).toNat =
      total.toNat + item.clockCyclesToCount.toNat)
    (htie : req.clockCyclesToCount.toNat = (total + item.clockCyclesToCount).toNat ∨
      ∃ p ∈ deadlines (e + (total + item.clockCyclesToCount).toNat) (deltas rest),
        p.2 = e + req.clockCyclesToCount.toNat) :
    ∃ p ∈ deadlines (e + total.toNat) (deltas (item :: rest)),
      p.2 = e + req.clockCyclesToCount.toNat := by
  rw [deltas_cons, DeltaQueue.exists_deadline_cons, Nat.add_assoc, ← hsum]
  cases htie with
  | inl heq => exact .inl (by rw [heq])
  | inr hex => exact .inr hex

/-- The loop over the queue inserts the request, when `total` edges of those asked for
    are behind it and no deadline is `2^32` edges away. -/
theorem deltas_walk (e : Nat) (req : ClkRstSeqItem α) {total : BitVec 32}
    {q : List (ClkRstSeqItem α)} (hq : q ≠ []) (hle : total.toNat ≤ req.clockCyclesToCount.toNat)
    (hfit : ∀ p ∈ deadlines (e + total.toNat) (deltas q), p.2 < e + 2 ^ 32)
    (hok : (req.clockCyclesToCount.toNat = total.toNat ∨
        ∃ p ∈ deadlines (e + total.toNat) (deltas q), p.2 = e + req.clockCyclesToCount.toNat) →
      LaterOk (deadlines (e + total.toNat) (deltas q)) (e + req.clockCyclesToCount.toNat)
        req.clockCyclesToCount.toNat) :
    deltas (walk req total q) =
      DeltaQueue.insert req.idInfo (req.clockCyclesToCount.toNat - total.toNat) (deltas q) := by
  induction q generalizing total with
  | nil => exact absurd rfl hq
  | cons item rest ih =>
    have hsum : (total + item.clockCyclesToCount).toNat =
        total.toNat + item.clockCyclesToCount.toNat := by
      have := hfit _ (List.mem_cons_self ..)
      rw [BitVec.toNat_add, Nat.mod_eq_of_lt (by omega)]
    by_cases hin : total < req.clockCyclesToCount ∧
        req.clockCyclesToCount < total + item.clockCyclesToCount
    · -- between the entry before and this one
      have hlt : req.clockCyclesToCount.toNat - total.toNat < item.clockCyclesToCount.toNat := by
        have hin' := hin
        rw [BitVec.lt_def, BitVec.lt_def, hsum] at hin'
        omega
      rw [← deltas_before rest hle hlt, walk.eq_def]
      simp only [if_pos hin]
    · cases rest with
      | nil => exact deltas_walk_last e hle hsum hin fun heq => hok (.inl heq)
      | cons item' rest' =>
        have hge : total.toNat + item.clockCyclesToCount.toNat ≤ req.clockCyclesToCount.toNat := by
          by_contra hlt
          have heq : req.clockCyclesToCount.toNat = total.toNat := by
            rw [BitVec.lt_def, BitVec.lt_def, hsum] at hin
            omega
          -- two entries are due later
          have hle' := (hok (.inl heq)).le_of_cons_cons (Nat.le_add_right _ _)
          simp only at hle'
          omega
        have hnlt : item.clockCyclesToCount.toNat ≤
            req.clockCyclesToCount.toNat - total.toNat := by omega
        have hadd : deadlines (e + total.toNat) (deltas (item :: item' :: rest')) =
            (item.idInfo, e + total.toNat + item.clockCyclesToCount.toNat) ::
              deadlines (e + (total + item.clockCyclesToCount).toNat)
                (deltas (item' :: rest')) := by
          rw [deltas_cons, DeltaQueue.deadlines_cons, hsum, Nat.add_assoc]
        have hrest : deltas (walk req (total + item.clockCyclesToCount) (item' :: rest')) = _ :=
          ih (List.cons_ne_nil item' rest') (by omega)
            (fun p hp => hfit p (by rw [hadd]; exact List.mem_cons_of_mem _ hp)) fun htie => by
              have hlater := hok (.inr (tie_of_tie_tail hsum htie))
              rw [hadd] at hlater
              exact hlater.of_cons
        have hsub : req.clockCyclesToCount.toNat - (total + item.clockCyclesToCount).toNat =
            req.clockCyclesToCount.toNat - total.toNat - item.clockCyclesToCount.toNat := by omega
        rw [hsub] at hrest
        rw [walk.eq_def]
        simp only [if_neg hin]
        rw [deltas_cons, hrest, deltas_cons item, DeltaQueue.insert_of_le _ hnlt]

/-- The first entry stays in front of a request that is due after it. -/
theorem walk_front {req item : ClkRstSeqItem α} (rest : List (ClkRstSeqItem α))
    (h : item.clockCyclesToCount < req.clockCyclesToCount) :
    ∃ tail, walk req 0 (item :: rest) = item :: tail := by
  have hge : ¬req.clockCyclesToCount < item.clockCyclesToCount := by
    rw [BitVec.lt_def] at h ⊢
    omega
  have hout : ¬(0 < req.clockCyclesToCount ∧
      req.clockCyclesToCount < 0 + item.clockCyclesToCount) := by
    have hzero : 0 + item.clockCyclesToCount = item.clockCyclesToCount := BitVec.zero_add _
    rw [hzero]
    exact fun hin => hge hin.2
  -- the walk goes past the front, which stays as it is
  cases rest with
  | nil =>
    simp only [walk, if_neg hout, if_neg hge]
    exact ⟨_, rfl⟩
  | cons item' rest' =>
    rw [walk.eq_def]
    simp only [if_neg hout]
    exact ⟨_, rfl⟩

/-- Queue and countdown when the front has the delta that the countdown has. -/
theorem pending_eq_deltas {item : ClkRstSeqItem α} {rest : List (ClkRstSeqItem α)}
    {vif : ClkRstIf} (h : item.clockCyclesToCount = vif.cycleCountdown) :
    pending ⟨item :: rest, vif⟩ = deltas (item :: rest) := by
  rw [deltas_cons, h]
  rfl

/-- A request goes where it belongs, when the condition holds and no deadline is `2^32`
    edges away. -/
theorem pending_queueCountClockRequest {d : ClkRstDriver α} {req : ClkRstSeqItem α} {e : Nat}
    (hfit : ∀ p ∈ deadlines e d.pending, p.2 < e + 2 ^ 32)
    (hok : RequestOk (deadlines e d.pending) (e + req.clockCyclesToCount.toNat)
      req.clockCyclesToCount.toNat) :
    (d.queueCountClockRequest req).pending =
      DeltaQueue.insert req.idInfo req.clockCyclesToCount.toNat d.pending := by
  obtain ⟨queue, vif⟩ := d
  cases queue with
  | nil => rfl
  | cons front rest =>
    have hpending : pending ⟨front :: rest, vif⟩ =
        (front.idInfo, vif.cycleCountdown.toNat) :: deltas rest := rfl
    rw [hpending] at hfit hok ⊢
    by_cases hlt : req.clockCyclesToCount < vif.cycleCountdown
    · -- in front of all others
      have hlt' := hlt
      rw [BitVec.lt_def] at hlt'
      have hsub : (vif.cycleCountdown - req.clockCyclesToCount).toNat =
          vif.cycleCountdown.toNat - req.clockCyclesToCount.toNat :=
        BitVec.toNat_sub_of_le (BitVec.le_of_lt hlt)
      rw [DeltaQueue.insert_of_lt _ hlt']
      simp only [queueCountClockRequest, if_pos hlt, pending, ClkRstIf.countClocks, deltas_cons,
        hsub]
    · have hne : req.clockCyclesToCount ≠ vif.cycleCountdown := by
        -- nothing is due before the front
        intro heq
        obtain ⟨⟨p, hp, hlt⟩, -⟩ := hok ⟨_, List.mem_cons_self .., by rw [heq]⟩
        rw [heq] at hlt
        rw [DeltaQueue.deadlines_cons, List.mem_cons] at hp
        cases hp with
        | inl hfront =>
          have hdue : p.2 = e + vif.cycleCountdown.toNat := congrArg Prod.snd hfront
          omega
        | inr hrest => have := DeltaQueue.le_of_mem_deadlines hrest; omega
      have hgt : vif.cycleCountdown.toNat < req.clockCyclesToCount.toNat := by
        have hne' : req.clockCyclesToCount.toNat ≠ vif.cycleCountdown.toNat :=
          fun h => hne (BitVec.eq_of_toNat_eq h)
        rw [BitVec.lt_def] at hlt
        omega
      have hwalk := @deltas_walk α e req 0
        ({ front with clockCyclesToCount := vif.cycleCountdown } :: rest)
        (List.cons_ne_nil _ rest) (Nat.zero_le _) hfit (by
          intro htie
          cases htie with
          | inl hzero => have : req.clockCyclesToCount.toNat = 0 := hzero; omega
          | inr hex => exact (hok hex).2)
      obtain ⟨tail, htail⟩ := @walk_front α req
        { front with clockCyclesToCount := vif.cycleCountdown } rest hgt
      simp only [queueCountClockRequest, if_neg hlt, if_neg hne]
      rw [htail] at hwalk ⊢
      rw [pending_eq_deltas rfl, hwalk]
      rfl

/-! ## Expiry -/

/-- The loop over the expired entries puts a response for each of them, and loads the
    delta of the next one. -/
theorem drain_spec (vif : ClkRstIf) (q : List (ClkRstSeqItem α)) :
    (drain vif q).1.map ClkRstSeqItem.idInfo = (DeltaQueue.expired (deltas q)).map Prod.fst ∧
      (drain vif q).2.pending = DeltaQueue.live (deltas q) ∧
      ((drain vif q).2.countClocksRequestQueue = [] → (drain vif q).2.vif = vif) := by
  induction q with
  | nil => exact ⟨rfl, rfl, fun _ => rfl⟩
  | cons item rest ih =>
    -- an entry with delta 0 is answered at once; the first other one is loaded
    by_cases hz : item.clockCyclesToCount = 0
    · have hz' : item.clockCyclesToCount.toNat = 0 := by rw [hz]; rfl
      have hdrain : drain vif (item :: rest) =
          (item :: (drain vif rest).1, (drain vif rest).2) := by
        rw [drain, if_neg (not_not_intro hz)]
      obtain ⟨hrsp, hpending, hvif⟩ := ih
      rw [hdrain]
      refine ⟨?_, ?_, hvif⟩
      · simp only [List.map_cons, hrsp]
        simp [DeltaQueue.expired, hz']
      · simp only [hpending]
        simp [DeltaQueue.live, hz']
    · have hz' : item.clockCyclesToCount.toNat ≠ 0 := fun h => hz (BitVec.eq_of_toNat_eq h)
      have hdrain : drain vif (item :: rest) =
          ([], ⟨item :: rest, ClkRstIf.countClocks item.clockCyclesToCount⟩) := by
        rw [drain, if_pos hz]
      rw [hdrain]
      refine ⟨?_, ?_, fun h => by cases h⟩
      · simp [DeltaQueue.expired, hz']
      · rw [pending_eq_deltas rfl]
        simp [DeltaQueue.live, hz']

/-- The countdown counts when it is a positive `int`. -/
theorem slt_iff (x : BitVec 32) : (0#32).slt x = true ↔ 0 < x.toNat ∧ x.toNat < 2 ^ 31 := by
  have hx := x.isLt
  simp only [BitVec.slt, BitVec.toInt_eq_toNat_cond, decide_eq_true_eq]
  simp
  split <;> omega

/-- A clock edge is a tick. -/
theorem posedge_spec {d : ClkRstDriver α}
    (hstop : d.countClocksRequestQueue = [] → d.vif.cycleCountdown = 0)
    (hcount : d.countClocksRequestQueue ≠ [] → (0#32).slt d.vif.cycleCountdown = true) :
    d.posedge.1.map ClkRstSeqItem.idInfo =
        (DeltaQueue.expired (DeltaQueue.tick d.pending)).map Prod.fst ∧
      d.posedge.2.pending = DeltaQueue.live (DeltaQueue.tick d.pending) ∧
      (d.posedge.2.countClocksRequestQueue = [] → d.posedge.2.vif.cycleCountdown = 0) := by
  obtain ⟨queue, vif⟩ := d
  -- the counter runs only while there is a request
  cases queue with
  | nil =>
    have hzero : vif.cycleCountdown = 0 := hstop rfl
    have hidle : posedge (⟨[], vif⟩ : ClkRstDriver α) = ([], ⟨[], vif⟩) := by
      simp [posedge, ClkRstIf.posedge, hzero]
    rw [hidle]
    exact ⟨rfl, rfl, hstop⟩
  | cons front rest =>
    have hslt := hcount (List.cons_ne_nil front rest)
    have hpos := ((slt_iff _).mp hslt).1
    have hdec : (vif.cycleCountdown - 1).toNat = vif.cycleCountdown.toNat - 1 :=
      BitVec.toNat_sub_of_le (by rw [BitVec.le_def]; exact hpos)
    have hvif : vif.posedge = (⟨vif.cycleCountdown - 1⟩, vif.cycleCountdown - 1 == 0) := by
      rw [ClkRstIf.posedge, if_pos hslt]
    have htick : DeltaQueue.tick (pending ⟨front :: rest, vif⟩) =
        (front.idInfo, (vif.cycleCountdown - 1).toNat) :: deltas rest := by
      rw [hdec]
      rfl
    by_cases hlast : vif.cycleCountdown - 1 = 0
    · -- the front expires, with all that are due with it
      have hposedge : posedge ⟨front :: rest, vif⟩ =
          (front :: (drain ⟨vif.cycleCountdown - 1⟩ rest).1,
            (drain ⟨vif.cycleCountdown - 1⟩ rest).2) := by
        simp only [posedge, hvif, hlast]
        rfl
      obtain ⟨hrsp, hpending, hstop'⟩ := drain_spec ⟨vif.cycleCountdown - 1⟩ rest
      rw [hposedge, htick, hlast]
      rw [hlast] at hrsp hpending hstop'
      refine ⟨?_, hpending, fun h => by rw [hstop' h]⟩
      rw [List.map_cons, hrsp]
      rfl
    · have hlast' : (vif.cycleCountdown - 1).toNat ≠ 0 := fun h => hlast (BitVec.eq_of_toNat_eq h)
      have hposedge : posedge ⟨front :: rest, vif⟩ =
          ([], ⟨front :: rest, ⟨vif.cycleCountdown - 1⟩⟩) := by
        have hreach : (vif.cycleCountdown - 1 == 0) = false := beq_eq_false_iff_ne.mpr hlast
        simp only [posedge, hvif, hreach]
        rfl
      rw [hposedge, htick]
      refine ⟨?_, ?_, fun h => by cases h⟩
      · rw [DeltaQueue.expired, List.takeWhile_cons_of_neg (by simpa using hlast')]
        rfl
      · rw [DeltaQueue.live, List.dropWhile_cons_of_neg (by simpa using hlast')]
        rfl

/-- An empty queue has nothing pending. -/
theorem pending_eq_nil {d : ClkRstDriver α} (h : d.countClocksRequestQueue = []) :
    d.pending = [] := by
  rw [pending, h]

/-- The countdown counts for the first request that is due. -/
theorem slt_of_edgeOk {d : ClkRstDriver α} {e : Nat} (hpos : DeltaQueue.HeadPos d.pending)
    (hok : EdgeOk (deadlines e d.pending) e) (hne : d.countClocksRequestQueue ≠ []) :
    (0#32).slt d.vif.cycleCountdown = true := by
  obtain ⟨queue, vif⟩ := d
  cases queue with
  | nil => exact absurd rfl hne
  | cons front rest =>
    have hmin : 0 < vif.cycleCountdown.toNat :=
      hpos (front.idInfo, vif.cycleCountdown.toNat) rfl
    cases hok with
    | inl hnil => cases hnil
    | inr hex =>
      obtain ⟨p, hp, hlt⟩ := hex
      -- the front is the first one due
      have hle : e + vif.cycleCountdown.toNat ≤ p.2 := by
        cases List.mem_cons.mp hp with
        | inl hfront =>
          have hdue : p.2 = e + vif.cycleCountdown.toNat := congrArg Prod.snd hfront
          omega
        | inr hrest => exact DeltaQueue.le_of_mem_deadlines hrest
      have hmax : vif.cycleCountdown.toNat < 2 ^ 31 := by omega
      exact (slt_iff _).mpr ⟨hmin, hmax⟩

end ClkRstDriver

/-! ## Runs -/

/-- The driver does what the timer does. -/
structure Refines (r : ClkRstRun α) (s : Timer α) : Prop where
  elapsed : r.elapsed = s.elapsed
  pending : r.driver.pending = s.queue
  answers : r.answers = s.answers
  /-- the countdown rests when nothing is queued -/
  stopped : r.driver.countClocksRequestQueue = [] → r.driver.vif.cycleCountdown = 0

/-- The counts of the requests fit the 32 bits of their type. -/
def Fits (l : Ledger α) : Prop := ∀ p ∈ l.requests, p.2 < l.elapsed + 2 ^ 32

/-- The bound on the clocks to count is kept. -/
theorem Fits.step {l : Ledger α} (h : Fits l) (e : ClkRstEvent α) : Fits (l.step e.toEvent) := by
  intro p hp
  cases e with
  | posedge =>
    have := h p hp
    show p.2 < l.elapsed + 1 + 2 ^ 32
    omega
  | request req =>
    have hlt := req.clockCyclesToCount.isLt
    show p.2 < l.elapsed + 2 ^ 32
    cases List.mem_append.mp hp with
    | inl hold => exact h p hold
    | inr hnew =>
      rw [List.mem_singleton.mp hnew]
      show l.elapsed + req.clockCyclesToCount.toNat < l.elapsed + 2 ^ 32
      omega

/-- One event that meets the condition. -/
theorem Refines.step {r : ClkRstRun α} {s : Timer α} {l : Ledger α} (h : Refines r s)
    (hs : s.Inv l) (hfit : Fits l) {e : ClkRstEvent α} (hok : e.Ok l) :
    Refines (r.step e) (s.step e.toEvent) := by
  have hwaiting : (deadlines l.elapsed r.driver.pending).Perm l.outstanding := by
    rw [h.pending, ← hs.elapsed]
    exact hs.waiting
  -- the request goes through the queue, the edge through the counter
  cases e with
  | request req =>
    have hfit' : ∀ p ∈ deadlines l.elapsed r.driver.pending, p.2 < l.elapsed + 2 ^ 32 := by
      intro p hp
      exact hfit p (List.mem_of_mem_filter (hwaiting.mem_iff.mp hp))
    have hqueue := ClkRstDriver.pending_queueCountClockRequest hfit'
      (RequestOk.perm hok hwaiting.symm)
    have hstop : (r.driver.queueCountClockRequest req).countClocksRequestQueue ≠ [] := by
      intro hnil
      rw [ClkRstDriver.pending_eq_nil hnil] at hqueue
      exact DeltaQueue.insert_ne_nil _ _ _ hqueue.symm
    rw [h.pending] at hqueue
    exact {
      elapsed := h.elapsed
      pending := hqueue
      answers := h.answers
      stopped := fun hnil => absurd hnil hstop }
  | posedge =>
    have hpos : DeltaQueue.HeadPos r.driver.pending := by
      rw [h.pending]
      exact hs.headPos
    obtain ⟨hrsp, hpending, hstop⟩ := ClkRstDriver.posedge_spec h.stopped
      (ClkRstDriver.slt_of_edgeOk hpos (EdgeOk.perm hok hwaiting.symm))
    rw [h.pending] at hrsp hpending
    have hanswers : r.driver.posedge.1.map (fun rsp => (rsp.idInfo, r.elapsed + 1)) =
        (DeltaQueue.expired (DeltaQueue.tick s.queue)).map fun p => (p.1, s.elapsed + 1) := by
      have hstamp := congrArg (List.map fun a => (a, s.elapsed + 1)) hrsp
      rw [List.map_map, List.map_map] at hstamp
      rw [h.elapsed]
      exact hstamp
    exact {
      elapsed := congrArg (· + 1) h.elapsed
      pending := hpending
      answers := by
        show r.answers ++ _ = s.answers ++ _
        rw [h.answers, hanswers]
      stopped := hstop }

/-- A run whose events all meet the condition is a run of the timer, which answers
    every request when it is due. -/
theorem refines_foldl {r : ClkRstRun α} {s : Timer α} {l : Ledger α} (h : Refines r s)
    (hs : s.Inv l) (hfit : Fits l) {es : List (ClkRstEvent α)}
    (hpos : ∀ e ∈ es, e.toEvent.Pos) (hok : ClkRstEvent.AllOk l es) :
    ∃ s', Refines (es.foldl ClkRstRun.step r) s' ∧
      s'.Inv (es.foldl (fun l e => l.step e.toEvent) l) := by
  induction es generalizing r s l with
  | nil => exact ⟨s, h, hs⟩
  | cons e es ih =>
    have he := hpos e (List.mem_cons_self ..)
    exact ih (h.step hs hfit hok.1) (hs.step he) (hfit.step e)
      (fun e' he' => hpos e' (List.mem_cons_of_mem e he')) hok.2

/-- At the start the driver has no requests, and the timer none. -/
theorem refines_init : Refines (ClkRstRun.init : ClkRstRun α) Timer.init where
  elapsed := rfl
  pending := rfl
  answers := rfl
  stopped := fun _ => rfl

/-- What the events ask for. -/
def ledger (es : List (ClkRstEvent α)) : Ledger α :=
  es.foldl (fun l e => l.step e.toEvent) Ledger.init

/-- In a run whose events all meet the condition, the requests that have been answered
    are those that are due, each answered once and at the edge it was due at. -/
theorem answers_perm_due (es : List (ClkRstEvent α)) (hpos : ∀ e ∈ es, e.toEvent.Pos)
    (hok : ClkRstEvent.AllOk Ledger.init es) :
    (es.foldl ClkRstRun.step ClkRstRun.init).answers.Perm (ledger es).due := by
  have hfit : Fits (Ledger.init : Ledger α) := fun p hp => by cases hp
  obtain ⟨s, hr, hs⟩ := refines_foldl refines_init Timer.Inv.init hfit hpos hok
  rw [hr.answers]
  exact hs.answered

/-- Three requests with an edge in between, and a fourth due with the last of them. -/
def nestedRequests : List (ClkRstEvent Nat) :=
  [.request ⟨0, 4⟩, .posedge, .request ⟨1, 1⟩, .request ⟨2, 5⟩, .posedge, .request ⟨3, 4⟩,
    .posedge, .posedge, .posedge, .posedge]

/-- Nested requests are answered when they are due. -/
theorem answers_perm_nestedRequests :
    (nestedRequests.foldl ClkRstRun.step ClkRstRun.init).answers.Perm
      [(0, 4), (1, 2), (2, 6), (3, 6)] :=
  answers_perm_due nestedRequests
    (by simp [nestedRequests, ClkRstEvent.toEvent, DeltaQueue.Event.Pos]) (by decide)

/-- Two requests that are due at the same edge. -/
def tiedRequests : List (ClkRstEvent Nat) := [.request ⟨0, 1⟩, .request ⟨1, 1⟩, .posedge]

/-- Tied ones are not. -/
theorem not_answers_perm_tiedRequests :
    (∀ e ∈ tiedRequests, e.toEvent.Pos) ∧
      ¬(tiedRequests.foldl ClkRstRun.step ClkRstRun.init).answers.Perm (ledger tiedRequests).due :=
  ⟨by simp [tiedRequests, ClkRstEvent.toEvent, DeltaQueue.Event.Pos], by decide⟩

end URiscV.Tb
