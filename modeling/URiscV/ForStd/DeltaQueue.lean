import Mathlib.Data.List.Basic

/-!
# Delta queues

A delta queue holds timers in the order they expire, each with the number of ticks
from the expiry of the one before it to its own. `deadlines t q` are the times at
which the entries of `q` expire when the first delta counts from time `t`; the
operations of a delta queue are correct when they do the right thing to these.

`Timer` is the machine that serves requests with a delta queue, `Ledger` records
what was asked of it.

## Key results

- `deadlines_insert`, `deadlines_tick`, `deadlines_expired_live`: the operations
- `Timer.Inv.step`: every request is answered when it is due
-/

namespace DeltaQueue

variable {α : Type*}

/-- When each entry expires, the first delta counting from time `t`. -/
def deadlines (t : Nat) : List (α × Nat) → List (α × Nat)
  | [] => []
  | (a, d) :: q => (a, t + d) :: deadlines (t + d) q

/-- The queue with an entry that expires after `n` ticks, behind those that expire by
    then. -/
def insert (a : α) (n : Nat) : List (α × Nat) → List (α × Nat)
  | [] => [(a, n)]
  | (b, d) :: q => if n < d then (a, n) :: (b, d - n) :: q else (b, d) :: insert a (n - d) q

/-- One tick: only the first delta counts down. -/
def tick : List (α × Nat) → List (α × Nat)
  | [] => []
  | (a, d) :: q => (a, d - 1) :: q

/-- The entries that have expired. -/
def expired (q : List (α × Nat)) : List (α × Nat) := q.takeWhile (·.2 == 0)

/-- The entries that have not. -/
def live (q : List (α × Nat)) : List (α × Nat) := q.dropWhile (·.2 == 0)

/-! ## Deadlines -/

/-- An empty queue has no deadlines. -/
@[simp] theorem deadlines_nil (t : Nat) : deadlines t ([] : List (α × Nat)) = [] := rfl

/-- The deadline of the front is the base of the others. -/
@[simp] theorem deadlines_cons (t : Nat) (a : α) (d : Nat) (q : List (α × Nat)) :
    deadlines t ((a, d) :: q) = (a, t + d) :: deadlines (t + d) q := rfl

/-- Something expires at `n`: the first entry, or one behind it. -/
theorem exists_deadline_cons {a : α} {d t n : Nat} {q : List (α × Nat)} :
    (∃ p ∈ deadlines t ((a, d) :: q), p.2 = n) ↔
      t + d = n ∨ ∃ p ∈ deadlines (t + d) q, p.2 = n := by
  rw [deadlines_cons]
  constructor
  · rintro ⟨p, hp, hn⟩
    cases List.mem_cons.mp hp with
    | inl hfirst => exact .inl ((congrArg Prod.snd hfirst).symm.trans hn)
    | inr hlater => exact .inr ⟨p, hlater, hn⟩
  · rintro (hn | ⟨p, hp, hn⟩)
    · exact ⟨_, List.mem_cons_self .., hn⟩
    · exact ⟨p, List.mem_cons_of_mem _ hp, hn⟩

/-- No entry expires before the first delta starts to count. -/
theorem le_of_mem_deadlines {t : Nat} {q : List (α × Nat)} {p : α × Nat}
    (h : p ∈ deadlines t q) : t ≤ p.2 := by
  induction q generalizing t with
  | nil => simp at h
  | cons e q ih =>
    rw [deadlines_cons, List.mem_cons] at h
    cases h with
    | inl heq =>
      have hdue : p.2 = t + e.2 := congrArg Prod.snd heq
      omega
    | inr hmem => have := ih hmem; omega

/-- An entry that expires before the head goes in front of it. -/
theorem insert_of_lt {a b : α} {n d : Nat} (q : List (α × Nat)) (h : n < d) :
    insert a n ((b, d) :: q) = (a, n) :: (b, d - n) :: q := if_pos h

/-- A request that is not due before the front goes behind it. -/
theorem insert_of_le {a b : α} {n d : Nat} (q : List (α × Nat)) (h : d ≤ n) :
    insert a n ((b, d) :: q) = (b, d) :: insert a (n - d) q := if_neg (Nat.not_lt.mpr h)

/-- An inserted request is there. -/
theorem insert_ne_nil (a : α) (n : Nat) (q : List (α × Nat)) : insert a n q ≠ [] := by
  cases q with
  | nil => exact List.cons_ne_nil _ _
  | cons e q =>
    unfold insert
    split
    · exact List.cons_ne_nil _ _
    · exact List.cons_ne_nil _ _

/-- Inserting adds the deadline that was asked for and moves no other. -/
theorem deadlines_insert (a : α) (n t : Nat) (q : List (α × Nat)) :
    (deadlines t (insert a n q)).Perm ((a, t + n) :: deadlines t q) := by
  induction q generalizing n t with
  | nil => exact List.Perm.refl _
  | cons e q ih =>
    obtain ⟨b, d⟩ := e
    by_cases hn : n < d
    · have ht : t + n + (d - n) = t + d := by omega
      rw [insert_of_lt q hn, deadlines_cons, deadlines_cons, deadlines_cons, ht]
    · have ht : t + d + (n - d) = t + n := by omega
      have hq := ih (n - d) (t + d)
      rw [ht] at hq
      rw [insert_of_le q (by omega), deadlines_cons, deadlines_cons]
      exact (hq.cons _).trans (List.Perm.swap _ _ _)

/-- The head of the queue has not expired. -/
def HeadPos (q : List (α × Nat)) : Prop := ∀ p ∈ q.head?, 0 < p.2

/-- A tick moves no deadline. -/
theorem deadlines_tick {t : Nat} {q : List (α × Nat)} (h : HeadPos q) :
    deadlines (t + 1) (tick q) = deadlines t q := by
  cases q with
  | nil => rfl
  | cons e q =>
    have hd : 0 < e.2 := h e rfl
    have ht : t + 1 + (e.2 - 1) = t + e.2 := by omega
    show (e.1, t + 1 + (e.2 - 1)) :: deadlines (t + 1 + (e.2 - 1)) q = _
    rw [ht]
    rfl

/-- What is left behind the expired entries has a positive front. -/
theorem headPos_live (q : List (α × Nat)) : HeadPos (live q) := by
  induction q with
  | nil => intro p hp; cases hp
  | cons e q ih =>
    by_cases hd : e.2 = 0
    · simpa [live, hd] using ih
    · intro p hp
      simp only [live, List.dropWhile_cons, beq_iff_eq, hd, if_false, List.head?_cons,
        Option.mem_some_iff] at hp
      subst hp
      omega

/-- A positive count keeps the front positive. -/
theorem headPos_insert {a : α} {n : Nat} {q : List (α × Nat)} (hn : 0 < n) (hq : HeadPos q) :
    HeadPos (insert a n q) := by
  cases q with
  | nil =>
    intro p hp
    obtain rfl : (a, n) = p := Option.some.inj hp
    exact hn
  | cons e q =>
    intro p hp
    unfold insert at hp
    split at hp
    · obtain rfl : (a, n) = p := Option.some.inj hp
      exact hn
    · exact hq p hp

/-- When the head has not expired, no entry has. -/
theorem lt_of_mem_deadlines {t : Nat} {q : List (α × Nat)} (hq : HeadPos q) {p : α × Nat}
    (h : p ∈ deadlines t q) : t < p.2 := by
  cases q with
  | nil => simp at h
  | cons e q =>
    have hd : 0 < e.2 := hq e rfl
    have hle : t + e.2 ≤ p.2 := by
      rw [deadlines_cons, List.mem_cons] at h
      cases h with
      | inl heq =>
        have hdue : p.2 = t + e.2 := congrArg Prod.snd heq
        omega
      | inr hmem => exact le_of_mem_deadlines hmem
    omega

/-- What has expired is due now, and only that. -/
theorem deadlines_expired_live (t : Nat) (q : List (α × Nat)) :
    deadlines t q = (expired q).map (fun p => (p.1, t)) ++ deadlines t (live q) := by
  induction q with
  | nil => rfl
  | cons e q ih =>
    obtain ⟨b, d⟩ := e
    by_cases hd : d = 0
    · subst hd
      simp only [expired, live, deadlines_cons, Nat.add_zero] at ih ⊢
      rw [ih]
      rfl
    · simp [expired, live, hd]

/-- The entries that have not expired are those with a later deadline. -/
theorem filter_lt_deadlines (t : Nat) (q : List (α × Nat)) :
    (deadlines t q).filter (t < ·.2) = deadlines t (live q) := by
  have hexp : ∀ p ∈ (expired q).map fun p => (p.1, t), ¬decide (t < p.2) = true := by
    intro p hp
    obtain ⟨e, -, rfl⟩ := List.mem_map.mp hp
    simp
  have hlive : ∀ p ∈ deadlines t (live q), decide (t < p.2) = true := by
    intro p hp
    exact decide_eq_true (lt_of_mem_deadlines (headPos_live q) hp)
  rw [deadlines_expired_live, List.filter_append, List.filter_eq_nil_iff.mpr hexp,
    List.filter_eq_self.mpr hlive, List.nil_append]

/-- The deadlines met so far are those of the expired entries. -/
theorem filter_le_deadlines (t : Nat) (q : List (α × Nat)) :
    (deadlines t q).filter (·.2 ≤ t) = (expired q).map fun p => (p.1, t) := by
  have hexp : ∀ p ∈ (expired q).map fun p => (p.1, t), decide (p.2 ≤ t) = true := by
    intro p hp
    obtain ⟨e, -, rfl⟩ := List.mem_map.mp hp
    simp
  have hlive : ∀ p ∈ deadlines t (live q), ¬decide (p.2 ≤ t) = true := by
    intro p hp
    have := lt_of_mem_deadlines (headPos_live q) hp
    rw [decide_eq_true_eq]
    omega
  rw [deadlines_expired_live, List.filter_append, List.filter_eq_self.mpr hexp,
    List.filter_eq_nil_iff.mpr hlive, List.append_nil]

/-! ## Totals -/

/-- When the last entry expires, the first delta counting from now. -/
def total : List (α × Nat) → Nat
  | [] => 0
  | (_, d) :: q => d + total q

/-- The total count of no entries. -/
@[simp] theorem total_nil : total ([] : List (α × Nat)) = 0 := rfl

/-- The total count, with one entry more. -/
@[simp] theorem total_cons (a : α) (d : Nat) (q : List (α × Nat)) :
    total ((a, d) :: q) = d + total q := rfl

/-- Inserting makes the queue last as long as the new entry, if it did not already. -/
theorem total_insert (a : α) (n : Nat) (q : List (α × Nat)) :
    total (insert a n q) = max n (total q) := by
  induction q generalizing n with
  | nil => rw [insert, total_cons, total_nil, Nat.add_zero, Nat.max_eq_left (Nat.zero_le n)]
  | cons e q ih =>
    obtain ⟨b, d⟩ := e
    by_cases hn : n < d
    · rw [insert_of_lt q hn, total_cons, total_cons, total_cons]
      omega
    · rw [insert_of_le q (by omega), total_cons, total_cons, ih]
      omega

/-- No entry expires after the last one. -/
theorem le_total_of_mem_deadlines {t : Nat} {q : List (α × Nat)} {p : α × Nat}
    (h : p ∈ deadlines t q) : p.2 ≤ t + total q := by
  induction q generalizing t with
  | nil => simp at h
  | cons e q ih =>
    obtain ⟨b, d⟩ := e
    rw [total_cons]
    rw [deadlines_cons, List.mem_cons] at h
    cases h with
    | inl heq =>
      have hdue : p.2 = t + d := congrArg Prod.snd heq
      omega
    | inr hmem => have := ih hmem; omega

/-! ## Deadlines before and after a tick -/

/-- What is due later than the next tick is due later than now. -/
theorem filter_lt_succ (t : Nat) (rs : List (α × Nat)) :
    rs.filter (t + 1 < ·.2) = (rs.filter (t < ·.2)).filter (t + 1 < ·.2) := by
  rw [List.filter_filter]
  apply List.filter_congr
  intro r _
  rw [Bool.eq_iff_iff, Bool.and_eq_true, decide_eq_true_eq, decide_eq_true_eq]
  omega

/-- What is due by the next tick was due before, or becomes due with it. -/
theorem filter_le_succ (t : Nat) (rs : List (α × Nat)) :
    (rs.filter (·.2 ≤ t + 1)).Perm
      (rs.filter (·.2 ≤ t) ++ (rs.filter (t < ·.2)).filter (·.2 ≤ t + 1)) := by
  have hsplit := List.filter_append_perm (fun r : α × Nat => decide (r.2 ≤ t))
    (rs.filter (·.2 ≤ t + 1))
  have hold : (rs.filter (·.2 ≤ t + 1)).filter (·.2 ≤ t) = rs.filter (·.2 ≤ t) := by
    rw [List.filter_filter]
    apply List.filter_congr
    intro r _
    rw [Bool.eq_iff_iff, Bool.and_eq_true, decide_eq_true_eq, decide_eq_true_eq]
    omega
  have hnew : (rs.filter (·.2 ≤ t + 1)).filter (fun r => !decide (r.2 ≤ t)) =
      (rs.filter (t < ·.2)).filter (·.2 ≤ t + 1) := by
    rw [List.filter_filter, List.filter_filter]
    apply List.filter_congr
    intro r _
    rw [Bool.eq_iff_iff, Bool.and_eq_true, Bool.and_eq_true, Bool.not_eq_true',
      decide_eq_true_eq, decide_eq_true_eq, decide_eq_false_iff_not]
    omega
  -- both parts of the split, in terms of the earlier ones
  rw [hold, hnew] at hsplit
  exact hsplit.symm

/-! ## The timer -/

/-- A request to be answered after `n` ticks, or a tick. -/
inductive Event (α : Type*)
  | request (a : α) (n : Nat)
  | tick

/-- A request is for at least one tick. -/
def Event.Pos : Event α → Prop
  | .request _ n => 0 < n
  | .tick => True

/-- The ticks so far, the queue, and each answer with the tick it was given at. -/
structure Timer (α : Type*) where
  elapsed : Nat
  queue : List (α × Nat)
  answers : List (α × Nat)

/-- The ticks so far, and each request with the tick at which it is due. -/
structure Ledger (α : Type*) where
  elapsed : Nat
  requests : List (α × Nat)

namespace Timer

/-- At the start the queue is empty, and so is the ledger. -/
def init : Timer α := { elapsed := 0, queue := [], answers := [] }

def step (s : Timer α) : Event α → Timer α
  | .request a n => { s with queue := insert a n s.queue }
  | .tick =>
    { elapsed := s.elapsed + 1
      queue := live (tick s.queue)
      answers := s.answers ++ (expired (tick s.queue)).map fun p => (p.1, s.elapsed + 1) }

end Timer

namespace Ledger

def init : Ledger α := { elapsed := 0, requests := [] }

def step (l : Ledger α) : Event α → Ledger α
  | .request a n => { l with requests := l.requests ++ [(a, l.elapsed + n)] }
  | .tick => { l with elapsed := l.elapsed + 1 }

/-- The requests that are due by now. -/
def due (l : Ledger α) : List (α × Nat) := l.requests.filter (·.2 ≤ l.elapsed)

/-- The requests that are not. -/
def outstanding (l : Ledger α) : List (α × Nat) := l.requests.filter (l.elapsed < ·.2)

section Step

variable (l : Ledger α) (a : α) {n : Nat}

/-- A request of a positive count is not due at once. -/
theorem due_request (hn : 0 < n) : (l.step (.request a n)).due = l.due := by
  have hlt : ¬l.elapsed + n ≤ l.elapsed := by omega
  show (l.requests ++ [(a, l.elapsed + n)]).filter (·.2 ≤ l.elapsed) = _
  have hnew : [(a, l.elapsed + n)].filter (fun r => decide (r.2 ≤ l.elapsed)) = [] :=
    List.filter_cons_of_neg fun h => hlt (of_decide_eq_true h)
  rw [List.filter_append, hnew, List.append_nil]
  rfl

/-- It is outstanding. -/
theorem outstanding_request (hn : 0 < n) :
    (l.step (.request a n)).outstanding = l.outstanding ++ [(a, l.elapsed + n)] := by
  have hlt : l.elapsed < l.elapsed + n := by omega
  show (l.requests ++ [(a, l.elapsed + n)]).filter (l.elapsed < ·.2) = _
  have hnew : [(a, l.elapsed + n)].filter (fun r => decide (l.elapsed < r.2)) =
      [(a, l.elapsed + n)] := List.filter_cons_of_pos (decide_eq_true hlt)
  rw [List.filter_append, hnew]
  rfl

/-- A tick makes due what was outstanding up to it. -/
theorem due_tick :
    (l.step .tick).due.Perm (l.due ++ l.outstanding.filter (·.2 ≤ l.elapsed + 1)) :=
  filter_le_succ l.elapsed l.requests

/-- A tick takes out what is due with it. -/
theorem outstanding_tick :
    (l.step .tick).outstanding = l.outstanding.filter (l.elapsed + 1 < ·.2) :=
  filter_lt_succ l.elapsed l.requests

end Step

end Ledger

/-- The queue holds what is outstanding, and what is due has been answered. -/
structure Timer.Inv (s : Timer α) (l : Ledger α) : Prop where
  elapsed : s.elapsed = l.elapsed
  headPos : HeadPos s.queue
  waiting : (deadlines s.elapsed s.queue).Perm l.outstanding
  answered : s.answers.Perm l.due

namespace Timer.Inv

variable {s : Timer α} {l : Ledger α}

theorem init : Inv (Timer.init : Timer α) Ledger.init where
  elapsed := rfl
  headPos := fun p hp => by cases hp
  waiting := List.Perm.refl _
  answered := List.Perm.refl _

/-- A request keeps them together. -/
theorem request (h : Inv s l) (a : α) {n : Nat} (hn : 0 < n) :
    Inv (s.step (.request a n)) (l.step (.request a n)) where
  elapsed := h.elapsed
  headPos := headPos_insert hn h.headPos
  waiting := by
    rw [Ledger.outstanding_request l a hn, ← h.elapsed]
    have hins := deadlines_insert a n s.elapsed s.queue
    exact hins.trans ((h.waiting.cons _).trans (List.perm_append_singleton _ _).symm)
  answered := by
    rw [Ledger.due_request l a hn]
    exact h.answered

/-- At a tick exactly the entries that are due leave the queue. -/
theorem tick (h : Inv s l) : Inv (s.step .tick) (l.step .tick) := by
  have hwaiting : (deadlines (l.elapsed + 1) (DeltaQueue.tick s.queue)).Perm l.outstanding := by
    rw [deadlines_tick h.headPos, ← h.elapsed]
    exact h.waiting
  constructor
  -- the clock, the front, what is outstanding and what has been answered
  · exact congrArg (· + 1) h.elapsed
  · exact headPos_live _
  · have hlater := hwaiting.filter fun r => decide (l.elapsed + 1 < r.2)
    rw [filter_lt_deadlines, ← Ledger.outstanding_tick, ← h.elapsed] at hlater
    exact hlater
  · have hnow := hwaiting.filter fun r => decide (r.2 ≤ l.elapsed + 1)
    rw [filter_le_deadlines, ← h.elapsed] at hnow
    have hdue := l.due_tick
    rw [← h.elapsed] at hdue
    exact (h.answered.append hnow).trans hdue.symm

/-- One event keeps the books right. -/
theorem step (h : Inv s l) {e : Event α} (he : e.Pos) : Inv (s.step e) (l.step e) := by
  cases e with
  | request a n => exact h.request a he
  | tick => exact h.tick

end Timer.Inv

end DeltaQueue
