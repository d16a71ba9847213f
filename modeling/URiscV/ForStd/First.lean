import Mathlib.Order.Nat
import Mathlib.Data.Nat.Find

/-!
# First occurrences

`First p t n`: from time `t` on, the signal `p` is high at time `n` for the first time. What
a machine does that waits for one signal after the other is a chain of first occurrences.

## Key results

- `First.wait`: a machine that waits
- `exists_first`: a signal that comes, comes for the first time
-/

/-- From `t` on, `p` is high at `n` for the first time. -/
structure First (p : Nat → Bool) (t n : Nat) : Prop where
  le : t ≤ n
  holds : p n = true
  before : ∀ k, t ≤ k → k < n → p k = false

namespace First

variable {p e : Nat → Bool} {t n m : Nat}

/-- There is one first time only. -/
theorem unique (h : First p t n) (h' : First p t m) : n = m := by
  rcases Nat.lt_trichotomy n m with hlt | heq | hgt
  · exact absurd h.holds (by rw [h'.before n h.le hlt]; decide)
  · exact heq
  · exact absurd h'.holds (by rw [h.before m h'.le hgt]; decide)

/-- Where it holds already, that is the first time. -/
theorem iff_of_holds (h : p t = true) : First p t n ↔ n = t := by
  have hnow : First p t t := ⟨Nat.le_refl t, h, fun k hk hlt => absurd hlt (Nat.not_lt.mpr hk)⟩
  constructor
  · intro hn
    exact hn.unique hnow
  · rintro rfl
    exact hnow

/-- Where it does not hold yet, the first time is later. -/
theorem iff_of_not (h : p t = false) : First p t n ↔ First p (t + 1) n := by
  constructor
  · intro hn
    have hne : t ≠ n := fun he => by
      have hp := hn.holds
      rw [← he, h] at hp
      cases hp
    exact ⟨Nat.lt_of_le_of_ne hn.le hne, hn.holds, fun k hk => hn.before k (by omega)⟩
  · intro hn
    refine ⟨by have := hn.le; omega, hn.holds, fun k hk hlt => ?_⟩
    rcases Nat.eq_or_lt_of_le hk with rfl | hk
    · exact h
    · exact hn.before k hk hlt

/-- A signal that comes from `t` on comes for the first time. -/
theorem exists_of_holds (ht : t ≤ m) (h : p m = true) : ∃ n ≤ m, First p t n := by
  have hex : ∃ n, t ≤ n ∧ p n = true := ⟨m, ht, h⟩
  refine ⟨Nat.find hex, Nat.find_min' hex ⟨ht, h⟩, (Nat.find_spec hex).1, (Nat.find_spec hex).2,
    fun k hk hlt => ?_⟩
  have hmin := Nat.find_min hex hlt
  simpa [hk] using hmin

section Wait

variable {Q : Nat → Prop}

/-- A machine that waits for `p` in `Q` is there until `p` comes. -/
theorem stays (hq : Q t) (hstay : ∀ k, Q k → p k = false → Q (k + 1)) {u : Nat} (hu : t ≤ u)
    (hp : ∀ k, t ≤ k → k < u → p k = false) : Q u := by
  induction u, hu using Nat.le_induction with
  | base => exact hq
  | succ u hu ih =>
    exact hstay u (ih fun k hk hlt => hp k hk (by omega)) (hp u hu (Nat.lt_succ_self u))

/-- **Waiting.** Where `e` is not high in `Q`, the first `e` is the first one behind the
    first `p`. -/
theorem wait (hq : Q t) (hstay : ∀ k, Q k → p k = false → Q (k + 1))
    (hquiet : ∀ k, Q k → e k = false) :
    First e t n ↔ ∃ u, First p t u ∧ First e (u + 1) n := by
  constructor
  · intro hn
    -- without `p` the wait would still go on
    obtain ⟨m, hm, hlt, hpm⟩ : ∃ m, t ≤ m ∧ m < n ∧ p m = true := by
      by_contra hnone
      push Not at hnone
      have hQ : Q n := stays hq hstay hn.le fun k hk hlt => by simpa using hnone k hk hlt
      have he := hn.holds
      rw [hquiet n hQ] at he
      cases he
    obtain ⟨u, hum, hu⟩ := exists_of_holds hm hpm
    refine ⟨u, hu, by omega, hn.holds, fun k hk hlt => ?_⟩
    exact hn.before k (by have := hu.le; omega) hlt
  · rintro ⟨u, hu, hn⟩
    refine ⟨by have := hu.le; have := hn.le; omega, hn.holds, fun k hk hlt => ?_⟩
    -- before `p` the wait is quiet
    by_cases hku : k ≤ u
    · exact hquiet k (stays hq hstay hk fun j hj hjk => hu.before j hj (by omega))
    · exact hn.before k (by omega) hlt

end Wait

end First
