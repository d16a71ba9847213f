import URiscV.Spec.CountClocks

/-!
# The subtractions on the delta queue

The deltas are `int unsigned`, so a subtraction that should give a negative number wraps
and leaves a sequence waiting. `queueCountClockRequestTr` is `queueCountClockRequest` with
a trace of its subtractions, minuend and subtrahend.

None of them wraps unless the request is due together with an outstanding one: the loop
over the queue then runs past the place of the request, and subtracts what it has run past
(`TieOk`).

## Key results

- `noUnderflow_walkTr_iff`: the loop over the queue
- `queueCountClockRequestTr_iff`: a whole call
-/

namespace URiscV.Tb.ClkRstDriver

open DeltaQueue (deadlines total)

variable {α : Type*}

/-! ## Traces -/

/-- A subtraction of 32-bit numbers: minuend and subtrahend. -/
abbrev Subtraction := BitVec 32 × BitVec 32

/-- No subtraction wraps. -/
def NoUnderflow (tr : List Subtraction) : Prop := ∀ p ∈ tr, p.2 ≤ p.1

/-- No subtraction, no underflow. -/
@[simp] theorem noUnderflow_nil : NoUnderflow [] := fun _ hp => by cases hp

/-- One subtraction more. -/
theorem noUnderflow_cons (a b : BitVec 32) (tr : List Subtraction) :
    NoUnderflow ((a, b) :: tr) ↔ b.toNat ≤ a.toNat ∧ NoUnderflow tr :=
  List.forall_mem_cons

/-- `walk` with its subtractions. -/
def walkTr (req : ClkRstSeqItem α) (total : BitVec 32) :
    List (ClkRstSeqItem α) → List (ClkRstSeqItem α) × List Subtraction
  | [] => ([], [])
  | item :: rest =>
    let before := { req with clockCyclesToCount := req.clockCyclesToCount - total }
    let delayed := { item with
      clockCyclesToCount := item.clockCyclesToCount - before.clockCyclesToCount }
    let subs := [(req.clockCyclesToCount, total),
      (item.clockCyclesToCount, before.clockCyclesToCount)]
    if total < req.clockCyclesToCount ∧
        req.clockCyclesToCount < total + item.clockCyclesToCount then
      (before :: delayed :: rest, subs)
    else
      match rest with
      | [] =>
        if req.clockCyclesToCount < item.clockCyclesToCount then ([before, delayed], subs)
        else
          ([item, { req with
            clockCyclesToCount := req.clockCyclesToCount - (total + item.clockCyclesToCount) }],
            [(req.clockCyclesToCount, total + item.clockCyclesToCount)])
      | _ :: _ =>
        let tr := walkTr req (total + item.clockCyclesToCount) rest
        (item :: tr.1, tr.2)

/-- `queueCountClockRequest` with its subtractions. -/
def queueCountClockRequestTr (d : ClkRstDriver α) (req : ClkRstSeqItem α) :
    ClkRstDriver α × List Subtraction :=
  match d.countClocksRequestQueue with
  | [] =>
    ({ countClocksRequestQueue := [req], vif := ClkRstIf.countClocks req.clockCyclesToCount }, [])
  | front :: rest =>
    let currentCycleCount := d.vif.cycleCountdown
    let front := { front with clockCyclesToCount := currentCycleCount }
    if req.clockCyclesToCount < currentCycleCount then
      ({ countClocksRequestQueue :=
          req :: { front with
            clockCyclesToCount := currentCycleCount - req.clockCyclesToCount } :: rest
         vif := ClkRstIf.countClocks req.clockCyclesToCount },
        [(currentCycleCount, req.clockCyclesToCount)])
    else if req.clockCyclesToCount = currentCycleCount then
      ({ d with countClocksRequestQueue := { req with clockCyclesToCount := 0 } :: front :: rest },
        [])
    else
      let tr := walkTr req 0 (front :: rest)
      ({ d with countClocksRequestQueue := tr.1 }, tr.2)

/-- The trace does not change the walk. -/
theorem walkTr_fst (req : ClkRstSeqItem α) (total : BitVec 32) (q : List (ClkRstSeqItem α)) :
    (walkTr req total q).1 = walk req total q := by
  induction q generalizing total with
  | nil => rfl
  | cons item rest ih =>
    rw [walkTr.eq_def, walk.eq_def]
    simp only
    split
    · rfl
    · cases rest with
      | nil => simp only; split <;> rfl
      | cons item' rest' => simp only [ih]

/-- The trace is one of the call. -/
theorem queueCountClockRequestTr_fst (d : ClkRstDriver α) (req : ClkRstSeqItem α) :
    (d.queueCountClockRequestTr req).1 = d.queueCountClockRequest req := by
  obtain ⟨queue, vif⟩ := d
  cases queue with
  | nil => rfl
  | cons front rest =>
    simp only [queueCountClockRequestTr, queueCountClockRequest, walkTr_fst]
    split
    · rfl
    · split <;> rfl

/-! ## The loop over the queue -/

section Walk

variable {req item : ClkRstSeqItem α} {total : BitVec 32} {q rest : List (ClkRstSeqItem α)}

/-- The two subtractions of a request that goes in front of an entry. -/
theorem noUnderflow_before (h : total.toNat ≤ req.clockCyclesToCount.toNat)
    (h' : req.clockCyclesToCount.toNat - total.toNat ≤ item.clockCyclesToCount.toNat) :
    NoUnderflow [(req.clockCyclesToCount, total),
      (item.clockCyclesToCount, req.clockCyclesToCount - total)] := by
  have hsub : (req.clockCyclesToCount - total).toNat =
      req.clockCyclesToCount.toNat - total.toNat := BitVec.toNat_sub_of_le h
  rw [noUnderflow_cons, noUnderflow_cons, hsub]
  exact ⟨h, h', noUnderflow_nil⟩

/-- The sums the loop forms are those of numbers. -/
theorem toNat_add_of_fits
    (hfit : total.toNat + DeltaQueue.total (deltas (item :: rest)) < 2 ^ 32) :
    (total + item.clockCyclesToCount).toNat = total.toNat + item.clockCyclesToCount.toNat := by
  rw [deltas_cons, DeltaQueue.total_cons] at hfit
  rw [BitVec.toNat_add, Nat.mod_eq_of_lt (by omega)]

/-- Once the loop has run past the place of the request, it subtracts too much. -/
theorem not_noUnderflow_walkTr (hq : q ≠ [])
    (hfit : total.toNat + DeltaQueue.total (deltas q) < 2 ^ 32)
    (hlt : req.clockCyclesToCount.toNat < total.toNat) :
    ¬NoUnderflow (walkTr req total q).2 := by
  induction q generalizing total with
  | nil => exact absurd rfl hq
  | cons item rest ih =>
    have hsum := toNat_add_of_fits hfit
    have hout : ¬(total < req.clockCyclesToCount ∧
        req.clockCyclesToCount < total + item.clockCyclesToCount) := by
      rw [BitVec.lt_def]
      omega
    cases rest with
    | nil =>
      intro hno
      -- both branches for the last entry subtract too much
      by_cases hlast : req.clockCyclesToCount < item.clockCyclesToCount
      · simp only [walkTr, if_neg hout, if_pos hlast, noUnderflow_cons] at hno
        omega
      · simp only [walkTr, if_neg hout, if_neg hlast, noUnderflow_cons, hsum] at hno
        omega
    | cons item' rest' =>
      rw [walkTr.eq_def]
      simp only [if_neg hout]
      apply ih (List.cons_ne_nil item' rest')
      · rw [deltas_cons, DeltaQueue.total_cons] at hfit
        omega
      · omega

/-- A request that is due after the entry before and before this one is due with none. -/
theorem not_tie_of_between (h : total.toNat < req.clockCyclesToCount.toNat)
    (h' : req.clockCyclesToCount.toNat < total.toNat + item.clockCyclesToCount.toNat) :
    ¬(req.clockCyclesToCount.toNat = total.toNat ∨
      ∃ p ∈ deadlines total.toNat (deltas (item :: rest)), p.2 = req.clockCyclesToCount.toNat) := by
  rw [deltas_cons, DeltaQueue.exists_deadline_cons]
  rintro (heq | heq | ⟨p, hp, heq⟩)
  · omega
  · omega
  · have := DeltaQueue.le_of_mem_deadlines hp
    omega

/-- An entry that is not due later than the request does not matter. -/
theorem tie_cons_iff
    (hge : total.toNat + item.clockCyclesToCount.toNat ≤ req.clockCyclesToCount.toNat) :
    (req.clockCyclesToCount.toNat = total.toNat ∨
      ∃ p ∈ deadlines total.toNat (deltas (item :: rest)), p.2 = req.clockCyclesToCount.toNat) ↔
    (req.clockCyclesToCount.toNat = total.toNat + item.clockCyclesToCount.toNat ∨
      ∃ p ∈ deadlines (total.toNat + item.clockCyclesToCount.toNat) (deltas rest),
        p.2 = req.clockCyclesToCount.toNat) := by
  rw [deltas_cons, DeltaQueue.exists_deadline_cons]
  constructor
  · rintro (heq | heq | hex)
    · left
      omega
    · exact .inl heq.symm
    · exact .inr hex
  · rintro (heq | hex)
    · exact .inr (.inl heq.symm)
    · exact .inr (.inr hex)

/-- The loop at the last entry, with the request due no earlier than the one before. -/
theorem noUnderflow_walkTr_last_iff
    (hfit : total.toNat + DeltaQueue.total (deltas [item]) < 2 ^ 32)
    (hle : total.toNat ≤ req.clockCyclesToCount.toNat)
    (hin : ¬(total < req.clockCyclesToCount ∧
      req.clockCyclesToCount < total + item.clockCyclesToCount)) :
    NoUnderflow (walkTr req total [item]).2 ↔
      ((req.clockCyclesToCount.toNat = total.toNat ∨
        ∃ p ∈ deadlines total.toNat (deltas [item]), p.2 = req.clockCyclesToCount.toNat) →
      LaterOk (deadlines total.toNat (deltas [item])) req.clockCyclesToCount.toNat
        req.clockCyclesToCount.toNat) := by
  have hsum := toNat_add_of_fits hfit
  -- the request ties with the entry before, or is not due before this one
  have hout : req.clockCyclesToCount.toNat = total.toNat ∨
      total.toNat + item.clockCyclesToCount.toNat ≤ req.clockCyclesToCount.toNat := by
    rw [BitVec.lt_def, BitVec.lt_def, hsum] at hin
    omega
  rw [deltas_cons, deltas_nil, DeltaQueue.deadlines_cons, DeltaQueue.deadlines_nil,
    laterOk_singleton]
  by_cases hlast : req.clockCyclesToCount < item.clockCyclesToCount
  · -- due with the entry before, and the last one due later
    have hlast' := hlast
    rw [BitVec.lt_def] at hlast'
    have hno := @noUnderflow_before α req item total hle (by omega)
    simp only [walkTr, if_neg hin, if_pos hlast]
    exact ⟨fun _ _ _ => by omega, fun _ => hno⟩
  · -- behind the last entry, if it is not due before it
    simp only [walkTr, if_neg hin, if_neg hlast, noUnderflow_cons, hsum]
    rw [BitVec.lt_def] at hlast
    constructor
    · intro h _ hlt
      omega
    · intro h
      have hge : total.toNat + item.clockCyclesToCount.toNat ≤ req.clockCyclesToCount.toNat := by
        cases hout with
        | inr hge => exact hge
        | inl heq =>
          by_contra hlt
          have := h (.inl heq) (by omega)
          omega
      exact ⟨hge, noUnderflow_nil⟩

/-- The loop subtracts rightly when the request is due with no entry, neither the one
    before nor one of these, or only the last entry is due later, and that one more than
    the whole request later. -/
theorem noUnderflow_walkTr_iff (hq : q ≠ [])
    (hfit : total.toNat + DeltaQueue.total (deltas q) < 2 ^ 32)
    (hle : total.toNat ≤ req.clockCyclesToCount.toNat) :
    NoUnderflow (walkTr req total q).2 ↔
      ((req.clockCyclesToCount.toNat = total.toNat ∨
        ∃ p ∈ deadlines total.toNat (deltas q), p.2 = req.clockCyclesToCount.toNat) →
      LaterOk (deadlines total.toNat (deltas q)) req.clockCyclesToCount.toNat
        req.clockCyclesToCount.toNat) := by
  induction q generalizing total with
  | nil => exact absurd rfl hq
  | cons item rest ih =>
    have hsum := toNat_add_of_fits hfit
    by_cases hin : total < req.clockCyclesToCount ∧
        req.clockCyclesToCount < total + item.clockCyclesToCount
    · -- between the entry before and this one
      have hin' := hin
      rw [BitVec.lt_def, BitVec.lt_def, hsum] at hin'
      have hno := @noUnderflow_before α req item total hle (by omega)
      have hnotie := @not_tie_of_between α req item total rest hin'.1 hin'.2
      rw [walkTr.eq_def]
      simp only [if_pos hin]
      exact ⟨fun _ htie => absurd htie hnotie, fun _ => hno⟩
    · cases rest with
      | nil => exact noUnderflow_walkTr_last_iff hfit hle hin
      | cons item' rest' =>
        have hfit' : (total + item.clockCyclesToCount).toNat +
            DeltaQueue.total (deltas (item' :: rest')) < 2 ^ 32 := by
          rw [deltas_cons, DeltaQueue.total_cons] at hfit
          omega
        have hstep : (walkTr req total (item :: item' :: rest')).2 =
            (walkTr req (total + item.clockCyclesToCount) (item' :: rest')).2 := by
          rw [walkTr.eq_def]
          simp only [if_neg hin]
        rw [hstep]
        by_cases hge : total.toNat + item.clockCyclesToCount.toNat ≤ req.clockCyclesToCount.toNat
        · -- the entry is not due later than the request
          rw [ih (List.cons_ne_nil item' rest') hfit' (by omega), hsum, tie_cons_iff hge,
            deltas_cons item, DeltaQueue.deadlines_cons, laterOk_cons_of_le hge]
        · -- the request is due with the entry before, and two entries are due later
          have heq : req.clockCyclesToCount.toNat = total.toNat := by
            rw [BitVec.lt_def, BitVec.lt_def, hsum] at hin
            omega
          have hover := @not_noUnderflow_walkTr α req (total + item.clockCyclesToCount)
            (item' :: rest') (List.cons_ne_nil item' rest') hfit' (by omega)
          refine ⟨fun h => absurd h hover, fun h => ?_⟩
          have hle' := (h (.inl heq)).le_of_cons_cons (Nat.le_add_right _ _)
          exact absurd hle' hge

/-- The loop from the front on: what it subtracts, and the deltas it leaves. -/
theorem walkTr_total_iff (hq : q ≠ []) (hsum : DeltaQueue.total (deltas q) < 2 ^ 32)
    (hpos : 0 < req.clockCyclesToCount.toNat) :
    (NoUnderflow (walkTr req 0 q).2 ∧ DeltaQueue.total (deltas (walk req 0 q)) =
        max req.clockCyclesToCount.toNat (DeltaQueue.total (deltas q))) ↔
      ((∃ p ∈ deadlines 0 (deltas q), p.2 = req.clockCyclesToCount.toNat) →
        LaterOk (deadlines 0 (deltas q)) req.clockCyclesToCount.toNat
          req.clockCyclesToCount.toNat) := by
  have hzero : (0 : BitVec 32).toNat = 0 := rfl
  have hno := @noUnderflow_walkTr_iff α req 0 q hq (by rw [hzero]; omega) (Nat.zero_le _)
  have hwalk := @deltas_walk α 0 req 0 q hq (Nat.zero_le _)
  rw [hzero] at hno hwalk
  simp only [Nat.add_zero, Nat.zero_add, Nat.sub_zero] at hno hwalk
  have hne : req.clockCyclesToCount.toNat ≠ 0 := by omega
  simp only [hne, false_or] at hno hwalk
  rw [hno]
  refine ⟨fun h => h.1, fun h => ⟨h, ?_⟩⟩
  have hfit : ∀ p ∈ deadlines 0 (deltas q), p.2 < 2 ^ 32 := by
    intro p hp
    have := DeltaQueue.le_total_of_mem_deadlines hp
    omega
  rw [hwalk hfit h, DeltaQueue.total_insert]

end Walk

/-! ## A request -/

/-- A request of `n` edges, with a countdown of `c` and the deadlines `rs` of what is
    outstanding, is due together with none of these, or with the front, or at most one of
    them is due later, and that one more than `n` later. -/
def TieOk (rs : List (α × Nat)) (c n : Nat) : Prop :=
  (∃ r ∈ rs, r.2 = n) → n = c ∨ LaterOk rs n n

instance (rs : List (α × Nat)) (c n : Nat) : Decidable (TieOk rs c n) :=
  inferInstanceAs (Decidable (_ → _))

section Request

variable {front : ClkRstSeqItem α} {rest : List (ClkRstSeqItem α)} {vif : ClkRstIf}
  {req : ClkRstSeqItem α}

/-- What is pending with a request at the front. -/
theorem pending_cons : pending ⟨front :: rest, vif⟩ =
    (front.idInfo, vif.cycleCountdown.toNat) :: deltas rest := rfl

/-- The front is the first to be due. -/
theorem tieOk_of_le {n : Nat} (hle : n ≤ vif.cycleCountdown.toNat) :
    TieOk (deadlines 0 (pending ⟨front :: rest, vif⟩)) vif.cycleCountdown.toNat n := by
  rintro ⟨r, hr, heq⟩
  left
  have hge : vif.cycleCountdown.toNat ≤ r.2 := by
    rw [pending_cons, DeltaQueue.deadlines_cons, Nat.zero_add] at hr
    cases List.mem_cons.mp hr with
    | inl hfirst => exact Nat.le_of_eq (congrArg Prod.snd hfirst).symm
    | inr hlater => exact DeltaQueue.le_of_mem_deadlines hlater
  omega

/-- A request in front of all others. -/
theorem queueTr_of_lt (hlt : req.clockCyclesToCount < vif.cycleCountdown) :
    NoUnderflow (queueCountClockRequestTr ⟨front :: rest, vif⟩ req).2 ∧
      total (deltas (queueCountClockRequest ⟨front :: rest, vif⟩ req).countClocksRequestQueue) =
        max req.clockCyclesToCount.toNat (total (pending ⟨front :: rest, vif⟩)) := by
  have hlt' := hlt
  rw [BitVec.lt_def] at hlt'
  have hsub : (vif.cycleCountdown - req.clockCyclesToCount).toNat =
      vif.cycleCountdown.toNat - req.clockCyclesToCount.toNat :=
    BitVec.toNat_sub_of_le (BitVec.le_of_lt hlt)
  constructor
  · simp only [queueCountClockRequestTr, if_pos hlt, noUnderflow_cons]
    exact ⟨Nat.le_of_lt hlt', noUnderflow_nil⟩
  · simp only [queueCountClockRequest, if_pos hlt, pending_cons, deltas_cons,
      DeltaQueue.total_cons, hsub]
    omega

/-- A request that is due with the front. -/
theorem queueTr_of_eq (heq : req.clockCyclesToCount = vif.cycleCountdown) :
    NoUnderflow (queueCountClockRequestTr ⟨front :: rest, vif⟩ req).2 ∧
      total (deltas (queueCountClockRequest ⟨front :: rest, vif⟩ req).countClocksRequestQueue) =
        max req.clockCyclesToCount.toNat (total (pending ⟨front :: rest, vif⟩)) := by
  have hlt : ¬req.clockCyclesToCount < vif.cycleCountdown := by
    rw [heq]
    exact BitVec.lt_irrefl _
  have hzero : (0 : BitVec 32).toNat = 0 := rfl
  constructor
  · simp only [queueCountClockRequestTr, if_neg hlt, if_pos heq, noUnderflow_nil]
  · simp only [queueCountClockRequest, if_neg hlt, if_pos heq, pending_cons, deltas_cons,
      DeltaQueue.total_cons, hzero]
    rw [heq]
    omega

/-- A request behind the front goes through the loop. -/
theorem queueTr_of_gt (hsum : total (pending ⟨front :: rest, vif⟩) < 2 ^ 32)
    (hgt : vif.cycleCountdown.toNat < req.clockCyclesToCount.toNat) :
    (NoUnderflow (queueCountClockRequestTr ⟨front :: rest, vif⟩ req).2 ∧
      total (deltas (queueCountClockRequest ⟨front :: rest, vif⟩ req).countClocksRequestQueue) =
        max req.clockCyclesToCount.toNat (total (pending ⟨front :: rest, vif⟩))) ↔
    TieOk (deadlines 0 (pending ⟨front :: rest, vif⟩)) vif.cycleCountdown.toNat
      req.clockCyclesToCount.toNat := by
  have hlt : ¬req.clockCyclesToCount < vif.cycleCountdown := by
    rw [BitVec.lt_def]
    omega
  have hne : req.clockCyclesToCount ≠ vif.cycleCountdown := fun h => by
    rw [h] at hgt
    omega
  -- the queue with the countdown as its first delta
  have hsnap : pending ⟨front :: rest, vif⟩ =
      deltas ({ front with clockCyclesToCount := vif.cycleCountdown } :: rest) := rfl
  simp only [queueCountClockRequestTr, queueCountClockRequest, if_neg hlt, if_neg hne]
  rw [hsnap] at hsum ⊢
  rw [walkTr_total_iff (List.cons_ne_nil _ rest) hsum (by omega), TieOk]
  have hne' : req.clockCyclesToCount.toNat ≠ vif.cycleCountdown.toNat := by omega
  exact ⟨fun h htie => .inr (h htie), fun h htie => (h htie).resolve_left hne'⟩

end Request

/-- **Delta arithmetic.** Take any queue and countdown with a total below `2^32`, and any
    request. No subtraction of the call wraps, and the stored deltas add up to the larger
    of the old total and the request, exactly when the request is due together with no
    outstanding one, or with the front, or at most one is due after it, and that one more
    than the whole request later. -/
theorem queueCountClockRequestTr_iff (d : ClkRstDriver α) (req : ClkRstSeqItem α)
    (hsum : total d.pending < 2 ^ 32) :
    (NoUnderflow (d.queueCountClockRequestTr req).2 ∧
      total (deltas (d.queueCountClockRequest req).countClocksRequestQueue) =
        max req.clockCyclesToCount.toNat (total d.pending)) ↔
    TieOk (deadlines 0 d.pending) d.vif.cycleCountdown.toNat req.clockCyclesToCount.toNat := by
  obtain ⟨queue, vif⟩ := d
  cases queue with
  | nil =>
    -- nothing to subtract from
    have htotal : total (deltas [req]) = max req.clockCyclesToCount.toNat 0 := by
      rw [deltas_cons, DeltaQueue.total_cons, deltas_nil, DeltaQueue.total_nil]
      omega
    constructor
    · rintro - ⟨r, hr, -⟩
      cases hr
    · intro _
      exact ⟨noUnderflow_nil, htotal⟩
  | cons front rest =>
    by_cases hlt : req.clockCyclesToCount < vif.cycleCountdown
    · have hle := BitVec.le_of_lt hlt
      exact ⟨fun _ => tieOk_of_le hle, fun _ => queueTr_of_lt hlt⟩
    · by_cases heq : req.clockCyclesToCount = vif.cycleCountdown
      · exact ⟨fun _ => tieOk_of_le (Nat.le_of_eq (by rw [heq])), fun _ => queueTr_of_eq heq⟩
      · have hne : req.clockCyclesToCount.toNat ≠ vif.cycleCountdown.toNat :=
          fun h => heq (BitVec.eq_of_toNat_eq h)
        rw [BitVec.lt_def] at hlt
        exact queueTr_of_gt hsum (by omega)

/-- Deltas 4, 2 and 9, and a request that is due with the second of them. -/
theorem queueCountClockRequestTr_lateTie :
    let d : ClkRstDriver Nat := ⟨[⟨0, 4⟩, ⟨1, 2⟩, ⟨2, 9⟩], ⟨4⟩⟩
    NoUnderflow (d.queueCountClockRequestTr ⟨3, 6⟩).2 ∧
      total (deltas (d.queueCountClockRequest ⟨3, 6⟩).countClocksRequestQueue) = 15 :=
  (queueCountClockRequestTr_iff ⟨[⟨0, 4⟩, ⟨1, 2⟩, ⟨2, 9⟩], ⟨4⟩⟩ ⟨3, 6⟩ (by decide)).mpr (by decide)

/-- Deltas 1, 1 and 1, and a request that is due with the second of them: 2 minus 3. -/
theorem not_noUnderflow_middleTie :
    let d : ClkRstDriver Nat := ⟨[⟨0, 1⟩, ⟨1, 1⟩, ⟨2, 1⟩], ⟨1⟩⟩
    total d.pending < 2 ^ 31 ∧ ¬NoUnderflow (d.queueCountClockRequestTr ⟨3, 2⟩).2 := by
  refine ⟨by decide, fun h => ?_⟩
  exact absurd (h (2, 3) (by decide)) (by decide)

end URiscV.Tb.ClkRstDriver
