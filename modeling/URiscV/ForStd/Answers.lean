import Mathlib.Data.List.Basic

/-!
# Requests and their answers

A server that answers requests in the order in which they come. `Answered Q reqs
answers` says that the answers given so far belong to the first of the requests, and
that each is right (`Q`) for its request and the requests before it.
-/

namespace Answers

variable {ρ ν : Type*} {Q : List ρ → ρ → ν → Prop} {reqs done : List ρ} {answers : List ν}

/-- The `k`-th answer is right for the `k`-th request. -/
def Answered (Q : List ρ → ρ → ν → Prop) (reqs : List ρ) (answers : List ν) : Prop :=
  answers.length ≤ reqs.length ∧
    ∀ k r v, reqs[k]? = some r → answers[k]? = some v → Q (reqs.take k) r v

/-- Nothing is answered yet. -/
theorem answered_nil : Answered Q reqs [] :=
  ⟨Nat.zero_le _, fun _ _ _ _ h => by cases h⟩

/-- Further requests change nothing. -/
theorem Answered.accept (h : Answered Q reqs answers) (rs : List ρ) :
    Answered Q (reqs ++ rs) answers := by
  refine ⟨?_, fun k r v hr hv => ?_⟩
  · have := h.1
    rw [List.length_append]
    omega
  · have hk : k < reqs.length := by
      have := h.1
      have := (List.getElem?_eq_some_iff.mp hv).1
      omega
    rw [List.getElem?_append_left hk] at hr
    rw [List.take_append_of_le_length (by omega)]
    exact h.2 k r v hr hv

/-- The answer to the only request without one. -/
theorem Answered.respond {r : ρ} {v : ν} (h : Answered Q (done ++ [r]) answers)
    (hlen : answers.length = done.length) (hv : Q done r v) :
    Answered Q (done ++ [r]) (answers ++ [v]) := by
  refine ⟨by simp [hlen], fun k r' v' hr' hv' => ?_⟩
  -- an earlier answer, or the new one
  by_cases hk : k < answers.length
  · rw [List.getElem?_append_left hk] at hv'
    exact h.2 k r' v' hr' hv'
  · have hk' : k = answers.length := by
      have := (List.getElem?_eq_some_iff.mp hv').1
      simp at this
      omega
    subst hk'
    rw [List.getElem?_concat_length] at hv'
    rw [hlen, List.getElem?_concat_length] at hr'
    obtain rfl := Option.some.inj hr'
    obtain rfl := Option.some.inj hv'
    rw [hlen, List.take_left']
    · exact hv
    · rfl

end Answers
