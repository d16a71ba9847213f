import Mathlib.Logic.Function.Iterate

/-!
# Preconditions and postconditions of a deterministic machine

`Triple step P Q`: from every state with `P`, a machine with the step function `step` gets
to a state with `Q`. The rules below put such statements together as a program is put
together from its blocks; termination is part of them, so a loop needs a measure.
-/

namespace Machine

variable {S : Type*} {ι : Type*}

/-- The machine gets from one state to another. -/
def Reaches (step : S → S) (s t : S) : Prop := ∃ n, step^[n] s = t

namespace Reaches

variable {step : S → S} {s t u : S}

/-- Every state reaches itself. -/
theorem refl (s : S) : Reaches step s s := ⟨0, rfl⟩

/-- And the next one. -/
theorem of_step (h : step s = t) : Reaches step s t := ⟨1, h⟩

/-- Runs compose. -/
theorem trans (h₁ : Reaches step s t) (h₂ : Reaches step t u) : Reaches step s u := by
  obtain ⟨m, rfl⟩ := h₁
  obtain ⟨n, rfl⟩ := h₂
  exact ⟨n + m, Function.iterate_add_apply step n m s⟩

end Reaches

/-- From every state with `P`, the machine gets to one with `Q`. -/
def Triple (step : S → S) (P Q : S → Prop) : Prop :=
  ∀ s, P s → ∃ t, Reaches step s t ∧ Q t

namespace Triple

variable {step : S → S} {P Q R : S → Prop}

/-- A weaker condition holds already. -/
theorem skip (h : ∀ s, P s → Q s) : Triple step P Q := fun s hs => ⟨s, .refl s, h s hs⟩

/-- One part of a program behind the other. -/
theorem seq (h₁ : Triple step P Q) (h₂ : Triple step Q R) : Triple step P R := by
  intro s hs
  obtain ⟨t, hst, ht⟩ := h₁ s hs
  obtain ⟨u, htu, hu⟩ := h₂ t ht
  exact ⟨u, hst.trans htu, hu⟩

/-- A stronger precondition. -/
theorem pre (hP : ∀ s, P s → Q s) (h : Triple step Q R) : Triple step P R :=
  fun s hs => h s (hP s hs)

/-- A weaker postcondition. -/
theorem post (h : Triple step P Q) (hQ : ∀ s, Q s → R s) : Triple step P R :=
  h.seq (skip hQ)

/-- The state may be one of two kinds. -/
theorem or (h₁ : Triple step P R) (h₂ : Triple step Q R) : Triple step (fun s => P s ∨ Q s) R :=
  fun s hs => hs.elim (h₁ s) (h₂ s)

/-- A case distinction on the state. -/
theorem cases (C : S → Prop) (h₁ : Triple step (fun s => P s ∧ C s) Q)
    (h₂ : Triple step (fun s => P s ∧ ¬ C s) Q) : Triple step P Q := fun s hs =>
  (Classical.em (C s)).elim (fun hc => h₁ s ⟨hs, hc⟩) fun hc => h₂ s ⟨hs, hc⟩

/-- **Loops.** `inv i` holds at the head of the loop with some measure `μ i`; every turn
    ends with `Q`, or at the head with a smaller one. -/
theorem loop {inv : ι → S → Prop} (μ : ι → Nat)
    (h : ∀ i, Triple step (inv i) fun t => Q t ∨ ∃ j, μ j < μ i ∧ inv j t) (i : ι) :
    Triple step (inv i) Q := by
  generalize hm : μ i = m
  induction m using Nat.strongRecOn generalizing i with
  | _ m ih =>
    refine (h i).seq (or (skip fun _ hs => hs) fun s hs => ?_)
    obtain ⟨j, hlt, hj⟩ := hs
    exact ih (μ j) (hm ▸ hlt) j rfl s hj

end Triple

end Machine
