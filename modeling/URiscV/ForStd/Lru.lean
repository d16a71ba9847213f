import Mathlib.Data.List.Induction
import Mathlib.Data.List.Nodup
import Mathlib.Logic.Function.Basic

/-!
# Least recently used

`order hist` lists the distinct elements of a history of requests, the most recently
requested first, and `resident k hist` are the first `k` of them: what a set of `k`
ways with least-recently-used replacement holds. A request changes the residents
according to whether it is one of them (`resident_of_mem`, `resident_of_not_mem`), so
the history can be forgotten.

A set of two ways needs one bit to do so. `TwoWay.Holds` relates valid bits, tags and
that bit to a list of residents; `hit` and `fill` are the two updates.

## Key results

- `order_concat`: a request moves to the front
- `TwoWay.Holds.hit_resident` / `TwoWay.Holds.fill_resident`: one bit is enough for
  two ways
-/

namespace Lru

section Histories

variable {α : Type*} [DecidableEq α]

/-! ## Histories -/

/-- The distinct elements of a history, most recent first. -/
def order (hist : List α) : List α := hist.reverse.eraseDups

/-- The `k` most recent distinct elements of a history. -/
def resident (k : Nat) (hist : List α) : List α := (order hist).take k

/-- Filters and the removal of duplicates commute. -/
theorem filter_eraseDups (p : α → Bool) (l : List α) :
    (l.filter p).eraseDups = l.eraseDups.filter p := by
  -- `eraseDups` recurses on the tail with all copies of the head taken out
  induction hn : l.length using Nat.strongRecOn generalizing l with
  | ind n ih =>
    cases l with
    | nil => rfl
    | cons b l =>
      have hlt : (l.filter fun x => !x == b).length < n := by
        have := List.length_filter_le (fun x => !x == b) l
        rw [List.length_cons] at hn
        omega
      have htail := ih _ hlt _ rfl
      rw [List.eraseDups_cons]
      by_cases hb : p b = true
      · rw [List.filter_cons_of_pos hb, List.filter_cons_of_pos hb, List.eraseDups_cons, ← htail,
          List.filter_filter, List.filter_filter]
        simp only [Bool.and_comm]
      · rw [List.filter_cons_of_neg hb, List.filter_cons_of_neg hb, ← htail, List.filter_filter]
        congr 1
        apply List.filter_congr
        intro x _
        by_cases hx : x = b
        · subst hx; simp [hb]
        · simp [hx]

/-- A request moves to the front. -/
theorem order_concat (hist : List α) (a : α) :
    order (hist ++ [a]) = a :: (order hist).filter fun x => !x == a := by
  rw [order, List.reverse_append, List.reverse_singleton, List.singleton_append,
    List.eraseDups_cons, filter_eraseDups]
  rfl

/-- The order has no duplicates. -/
theorem nodup_order (hist : List α) : (order hist).Nodup := by
  induction hist using List.reverseRecOn with
  | nil => exact List.nodup_nil
  | append_singleton hist a ih =>
    rw [order_concat, List.nodup_cons]
    exact ⟨by simp, ih.filter _⟩

/-- It has what was requested. -/
theorem mem_order {hist : List α} {a : α} : a ∈ order hist ↔ a ∈ hist := by
  rw [order, List.mem_eraseDups, List.mem_reverse]

/-! ## Residents -/

/-- The residents are different. -/
theorem nodup_resident (k : Nat) (hist : List α) : (resident k hist).Nodup :=
  (nodup_order hist).sublist (List.take_sublist k _)

/-- A resident was requested. -/
theorem mem_of_mem_resident {k : Nat} {hist : List α} {a : α} (h : a ∈ resident k hist) :
    a ∈ hist :=
  mem_order.mp (List.mem_of_mem_take h)

/-- Taking out a resident leaves the others. -/
theorem take_filter_ne_of_mem {l : List α} (hl : l.Nodup) {a : α} {k : Nat}
    (h : a ∈ l.take (k + 1)) :
    (l.filter fun x => !x == a).take k = (l.take (k + 1)).filter fun x => !x == a := by
  induction l generalizing k with
  | nil => cases h
  | cons b l ih =>
    obtain ⟨hb, hl'⟩ := List.nodup_cons.mp hl
    rw [List.take_succ_cons] at h ⊢
    by_cases hab : a = b
    · -- behind the element itself nothing is taken out
      subst hab
      have hself (m : List α) (hm : a ∉ m) : m.filter (fun x => !x == a) = m := by
        rw [List.filter_eq_self]
        intro x hx
        have hne : x ≠ a := fun heq => hm (heq ▸ hx)
        simp [hne]
      rw [List.filter_cons_of_neg (by simp), List.filter_cons_of_neg (by simp), hself l hb,
        hself _ fun hm => hb (List.mem_of_mem_take hm)]
    · have hba : b ≠ a := fun heq => hab heq.symm
      have hmem : a ∈ l.take k := by
        rcases List.mem_cons.mp h with h | h
        · exact absurd h hab
        · exact h
      cases k with
      | zero => cases hmem
      | succ k =>
        rw [List.filter_cons_of_pos (by simp [hba]), List.filter_cons_of_pos (by simp [hba]),
          List.take_succ_cons, ih hl' hmem]

/-- Taking out another one leaves all residents but the last. -/
theorem take_filter_ne_of_not_mem {l : List α} {a : α} {k : Nat} (h : a ∉ l.take (k + 1)) :
    (l.filter fun x => !x == a).take k = l.take k := by
  induction l generalizing k with
  | nil => rfl
  | cons b l ih =>
    rw [List.take_succ_cons, List.mem_cons, not_or] at h
    have hba : b ≠ a := fun heq => h.1 heq.symm
    rw [List.filter_cons_of_pos (by simp [hba])]
    cases k with
    | zero => rfl
    | succ k => rw [List.take_succ_cons, List.take_succ_cons, ih h.2]

/-- A resident moves to the front. -/
theorem resident_of_mem {k : Nat} {hist : List α} {a : α} (h : a ∈ resident (k + 1) hist) :
    resident (k + 1) (hist ++ [a]) = a :: (resident (k + 1) hist).filter fun x => !x == a := by
  rw [resident, order_concat, List.take_succ_cons, take_filter_ne_of_mem (nodup_order hist) h]
  rfl

/-- Any other request takes the place of the last resident. -/
theorem resident_of_not_mem {k : Nat} {hist : List α} {a : α} (h : a ∉ resident (k + 1) hist) :
    resident (k + 1) (hist ++ [a]) = a :: (resident (k + 1) hist).take k := by
  rw [resident, order_concat, List.take_succ_cons, take_filter_ne_of_not_mem h, resident,
    List.take_take, Nat.min_eq_left (Nat.le_succ k)]

end Histories

/-! ## Two ways -/

/-- Valid bits, tags and the bit that names the next victim. -/
structure TwoWay (α : Type*) where
  valid : Bool → Bool
  tag : Bool → α
  lru : Bool

namespace TwoWay

variable {α : Type*}

/-- The ways hold the residents, and the victim is the one that is not the first. -/
inductive Holds (s : TwoWay α) : List α → Prop
  | empty (hv : ∀ w, s.valid w = false) : Holds s []
  | one (w : Bool) (hv : s.valid w = true) (hv' : s.valid (!w) = false) (hl : s.lru = !w) :
      Holds s [s.tag w]
  | two (w : Bool) (hv : s.valid w = true) (hv' : s.valid (!w) = true)
      (hne : s.tag w ≠ s.tag (!w)) (hl : s.lru = !w) : Holds s [s.tag w, s.tag (!w)]

/-- A request finds its line in way `w`. -/
def hit (w : Bool) (s : TwoWay α) : TwoWay α := { s with lru := !w }

/-- The victim makes place for `a`. -/
def fill (a : α) (s : TwoWay α) : TwoWay α where
  valid := Function.update s.valid s.lru true
  tag := Function.update s.tag s.lru a
  lru := !s.lru

section Rules

variable {s : TwoWay α} {l : List α}

/-- What a set holds is in a valid way. -/
theorem Holds.mem_iff (h : Holds s l) {a : α} :
    a ∈ l ↔ ∃ w, s.valid w = true ∧ s.tag w = a := by
  cases h with
  | empty hv => simp [hv]
  | one w hv hv' hl =>
    rw [List.mem_singleton]
    constructor
    · intro ha
      exact ⟨w, hv, ha.symm⟩
    · rintro ⟨u, hu, ha⟩
      by_cases huw : u = w
      · rw [← ha, huw]
      · rw [Bool.eq_not_of_ne huw, hv'] at hu
        cases hu
  | two w hv hv' hne hl =>
    rw [List.mem_pair]
    constructor
    · rintro (ha | ha)
      · exact ⟨w, hv, ha.symm⟩
      · exact ⟨!w, hv', ha.symm⟩
    · rintro ⟨u, -, ha⟩
      by_cases huw : u = w
      · exact .inl (by rw [← ha, huw])
      · exact .inr (by rw [← ha, Bool.eq_not_of_ne huw])

/-- A valid victim is the last of two residents. -/
theorem Holds.full_of_victim (h : Holds s l) (hv : s.valid s.lru = true) :
    (∀ w, s.valid w = true) ∧ l.length = 2 := by
  cases h with
  | empty hno => rw [hno] at hv; cases hv
  | one w hw hw' hl => rw [hl, hw'] at hv; cases hv
  | two w hw hw' hne hl =>
    refine ⟨fun u => ?_, rfl⟩
    by_cases hu : u = w
    · rw [hu, hw]
    · rw [Bool.eq_not_of_ne hu, hw']

/-- A hit moves the line of its way to the front. -/
theorem Holds.hit [DecidableEq α] (h : Holds s l) {w : Bool} (hw : s.valid w = true) :
    Holds (s.hit w) (s.tag w :: l.filter fun x => !x == s.tag w) := by
  cases h with
  | empty hv => rw [hv] at hw; cases hw
  | one u hv hv' hl =>
    obtain rfl : w = u := by
      by_contra hne
      rw [Bool.eq_not_of_ne hne, hv'] at hw
      cases hw
    rw [List.filter_cons_of_neg (by simp), List.filter_nil]
    exact .one w hv hv' rfl
  | two u hv hv' hne hl =>
    -- the way of the most recent tag, or the other one
    by_cases hu : w = u
    · subst hu
      rw [List.filter_cons_of_neg (by simp), List.filter_cons_of_pos (by simpa using hne.symm),
        List.filter_nil]
      exact .two w hv hv' hne rfl
    · obtain rfl : w = !u := Bool.eq_not_of_ne hu
      rw [List.filter_cons_of_pos (by simpa using hne), List.filter_cons_of_neg (by simp),
        List.filter_nil]
      have htwo := @Holds.two α (s.hit !u) (!u) hv'
      simp only [Bool.not_not] at htwo
      exact htwo hv hne.symm (Bool.not_not u)

/-- A fill puts its line in front, and drops the last of two. -/
theorem Holds.fill (h : Holds s l) {a : α} (ha : a ∉ l) : Holds (s.fill a) (a :: l.take 1) := by
  have hself : (s.fill a).tag s.lru = a := Function.update_self _ _ _
  have hvself : (s.fill a).valid s.lru = true := Function.update_self _ _ _
  have hother (w : Bool) (hw : s.lru = !w) :
      (s.fill a).tag w = s.tag w ∧ (s.fill a).valid w = s.valid w := by
    have hne : w ≠ s.lru := by rw [hw]; cases w <;> decide
    exact ⟨Function.update_of_ne hne _ _, Function.update_of_ne hne _ _⟩
  -- the victim is any way of an empty set, the free way of a half full one, and the older way
  -- of a full one
  cases h with
  | empty hv =>
    have hone := @Holds.one α (s.fill a) s.lru hvself
    rw [hself, (hother (!s.lru) (Bool.not_not _).symm).2] at hone
    exact hone (hv _) rfl
  | one w hv hv' hl =>
    obtain ⟨ht, hval⟩ := hother w hl
    have htwo := @Holds.two α (s.fill a) s.lru hvself
    rw [hself, hl, Bool.not_not, ht, hval] at htwo
    exact htwo hv (fun heq => ha (by rw [heq]; exact List.mem_singleton_self _))
      (by rw [TwoWay.fill, hl, Bool.not_not])
  | two w hv hv' hne hl =>
    obtain ⟨ht, hval⟩ := hother w hl
    have htwo := @Holds.two α (s.fill a) s.lru hvself
    rw [hself, hl, Bool.not_not, ht, hval] at htwo
    exact htwo hv (fun heq => ha (by rw [heq]; exact List.mem_cons_self ..))
      (by rw [TwoWay.fill, hl, Bool.not_not])

/-- A hit keeps the residents in the ways. -/
theorem Holds.hit_resident [DecidableEq α] {hist : List α} (h : Holds s (resident 2 hist))
    {w : Bool} (hw : s.valid w = true) : Holds (s.hit w) (resident 2 (hist ++ [s.tag w])) := by
  have hmem : s.tag w ∈ resident 2 hist := h.mem_iff.mpr ⟨w, hw, rfl⟩
  rw [resident_of_mem hmem]
  exact h.hit hw

/-- So does a fill with a line that is none of them. -/
theorem Holds.fill_resident [DecidableEq α] {hist : List α} (h : Holds s (resident 2 hist)) {a : α}
    (ha : a ∉ resident 2 hist) : Holds (s.fill a) (resident 2 (hist ++ [a])) := by
  rw [resident_of_not_mem ha]
  exact h.fill ha

end Rules

end TwoWay

end Lru
