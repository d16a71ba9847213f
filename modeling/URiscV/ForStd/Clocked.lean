import Mathlib.Data.List.Infix

/-!
# Synchronous machines

A synchronous machine is a step function `step : I → S → S`: the registers after
a clock edge, from the inputs sampled at that edge and the registers before it.
`run step ins s n` is the state after `n` edges when the inputs at edge `k` are
`ins k`, and `log out step ins s n` is everything the machine has put out in its
first `n` cycles.

The rules below package the induction on the number of edges once: an invariant
of one step holds along every run, an invariant that needs a condition holds
along the runs whose steps meet it, and a relation that both steps of two
machines preserve relates their runs.
-/

namespace Clocked

variable {S T I O : Type*}

/-- State after `n` clock edges, edge `k` sampling `ins k`. -/
def run (step : I → S → S) (ins : Nat → I) (s : S) : Nat → S
  | 0 => s
  | n + 1 => step (ins n) (run step ins s n)

/-- Outputs of the first `n` cycles, in order. -/
def log (out : I → S → List O) (step : I → S → S) (ins : Nat → I) (s : S) : Nat → List O
  | 0 => []
  | n + 1 => log out step ins s n ++ out (ins n) (run step ins s n)

section Run

variable {step : I → S → S} {ins : Nat → I} {s : S}

/-- No edge, no change. -/
@[simp] theorem run_zero : run step ins s 0 = s := rfl

/-- The last of `n + 1` edges. -/
theorem run_succ (n : Nat) :
    run step ins s (n + 1) = step (ins n) (run step ins s n) := rfl

/-- A run of `m + n` edges is a run of `n` edges from the state after `m`. -/
theorem run_add (m n : Nat) :
    run step ins s (m + n) = run step (fun k => ins (m + k)) (run step ins s m) n := by
  induction n with
  | zero => rfl
  | succ n ih => rw [← Nat.add_assoc, run_succ, run_succ, ih]

/-- What one step preserves, every run preserves. -/
theorem run_invariant {P : S → Prop} (h0 : P s) (hstep : ∀ i s, P s → P (step i s)) (n : Nat) :
    P (run step ins s n) := by
  induction n with
  | zero => exact h0
  | succ n ih => exact hstep _ _ ih

/-- What one step preserves under a condition, the runs whose steps meet the
    condition preserve. -/
theorem run_invariant_of {P : S → Prop} {C : I → S → Prop} (h0 : P s)
    (hstep : ∀ i s, C i s → P s → P (step i s)) {n : Nat}
    (hC : ∀ k < n, C (ins k) (run step ins s k)) : P (run step ins s n) := by
  induction n with
  | zero => exact h0
  | succ n ih =>
    exact hstep _ _ (hC n (Nat.lt_succ_self n)) (ih fun k hk => hC k (Nat.lt_succ_of_lt hk))

/-- Two machines whose steps preserve a relation have related runs. -/
theorem run_relation {J : Type*} {step' : J → T → T} {ins' : Nat → J} {t : T}
    {R : S → T → Prop} (h0 : R s t) {n : Nat}
    (hstep : ∀ k < n, R (run step ins s k) (run step' ins' t k) →
      R (step (ins k) (run step ins s k)) (step' (ins' k) (run step' ins' t k))) :
    R (run step ins s n) (run step' ins' t n) := by
  induction n with
  | zero => exact h0
  | succ n ih =>
    exact hstep n (Nat.lt_succ_self n) (ih fun k hk => hstep k (Nat.lt_succ_of_lt hk))

end Run

section Log

variable {out : I → S → List O} {step : I → S → S} {ins : Nat → I} {s : S}

/-- Nothing is put out before the first cycle. -/
@[simp] theorem log_zero : log out step ins s 0 = [] := rfl

/-- What the last of `n + 1` cycles puts out comes last. -/
theorem log_succ (n : Nat) :
    log out step ins s (n + 1) = log out step ins s n ++ out (ins n) (run step ins s n) := rfl

/-- A log of `m + n` cycles, cut behind the first `m`. -/
theorem log_add (m n : Nat) :
    log out step ins s (m + n) =
      log out step ins s m ++ log out step (fun k => ins (m + k)) (run step ins s m) n := by
  induction n with
  | zero => simp
  | succ n ih => rw [← Nat.add_assoc, log_succ, log_succ, ih, run_add, List.append_assoc]

/-- The log only grows. -/
theorem log_prefix {m n : Nat} (h : m ≤ n) : log out step ins s m <+: log out step ins s n := by
  obtain ⟨k, rfl⟩ := Nat.exists_eq_add_of_le h
  rw [log_add]
  exact List.prefix_append _ _

end Log

end Clocked
