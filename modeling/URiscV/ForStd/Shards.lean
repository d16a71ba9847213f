import Mathlib.Data.List.Infix
import Mathlib.Logic.Function.Basic

/-!
# Servers made of independent parts

The state of a server is a family of parts, one for each key. A request has a key: it is
answered from the part of that key, and changes this part only. So what the server
answers to the requests of a key is what their part answers to them when it is alone,
whatever else is asked in between.

## Key results

- `answers_concat`: one more request
- `answersOf_answers`: the answers of one part
- `answersOf_agree`: two histories that ask the same of a part
-/

namespace Shards

variable {ρ κ σ ν : Type*} [DecidableEq κ] (key : ρ → κ) (serve : ρ → σ → σ × ν)

/-- The parts after a request. -/
def apply (st : κ → σ) (r : ρ) : κ → σ :=
  Function.update st (key r) (serve r (st (key r))).1

/-- The parts after a history of requests. -/
def after (st : κ → σ) (hist : List ρ) : κ → σ := hist.foldl (apply key serve) st

/-- The answers to a history of requests. -/
def answers (st : κ → σ) : List ρ → List ν
  | [] => []
  | r :: rs => (serve r (st (key r))).2 :: answers (apply key serve st r) rs

omit [DecidableEq κ] in
/-- The answers of a single part. -/
def outputs (serve : ρ → σ → σ × ν) (s : σ) : List ρ → List ν
  | [] => []
  | r :: rs => (serve r s).2 :: outputs serve (serve r s).1 rs

/-- The requests of a key. -/
def requestsOf (k : κ) (reqs : List ρ) : List ρ := reqs.filter fun r => decide (key r = k)

/-- The answers given to the requests of a key. -/
def answersOf (k : κ) (reqs : List ρ) (vs : List ν) : List ν :=
  ((reqs.zip vs).filter fun p => decide (key p.1 = k)).map Prod.snd

variable {key : ρ → κ} {serve : ρ → σ → σ × ν} {st : κ → σ} {k : κ}

/-! ## Histories -/

/-- One request more. -/
theorem after_concat (hist : List ρ) (r : ρ) :
    after key serve st (hist ++ [r]) = apply key serve (after key serve st hist) r := by
  rw [after, List.foldl_append]
  rfl

/-- Its answer is that of its own shard. -/
theorem answers_concat (hist : List ρ) (r : ρ) :
    answers key serve st (hist ++ [r]) =
      answers key serve st hist ++ [(serve r (after key serve st hist (key r))).2] := by
  induction hist generalizing st with
  | nil => rfl
  | cons q hist ih =>
    rw [List.cons_append, answers, ih]
    rfl

/-- Every request is answered. -/
@[simp] theorem length_answers (hist : List ρ) :
    (answers key serve st hist).length = hist.length := by
  induction hist generalizing st with
  | nil => rfl
  | cons r hist ih => rw [answers, List.length_cons, ih, List.length_cons]

/-! ## One part -/

/-- A request leaves the other parts alone. -/
theorem apply_of_ne {r : ρ} (h : key r ≠ k) : apply key serve st r k = st k :=
  Function.update_of_ne (Ne.symm h) _ _

/-- The shard of a request serves it. -/
theorem apply_self (r : ρ) : apply key serve st r (key r) = (serve r (st (key r))).1 :=
  Function.update_self _ _ _

/-- The answers to the requests of a key are those of its part. -/
theorem answersOf_answers (hist : List ρ) :
    answersOf key k hist (answers key serve st hist) =
      outputs serve (st k) (requestsOf key k hist) := by
  induction hist generalizing st with
  | nil => rfl
  | cons r hist ih =>
    have htail : answersOf key k hist (answers key serve (apply key serve st r) hist) = _ := ih
    rw [answersOf, requestsOf] at htail ⊢
    rw [answers, List.zip_cons_cons]
    -- the part of `k` is changed by its own requests only
    by_cases h : key r = k
    · subst h
      rw [List.filter_cons_of_pos (by simp), List.filter_cons_of_pos (by simp), List.map_cons,
        htail, apply_self, outputs]
    · rw [List.filter_cons_of_neg (by simpa using h), List.filter_cons_of_neg (by simpa using h),
        htail, apply_of_ne h]

omit [DecidableEq κ] in
/-- Later requests do not change earlier answers. -/
theorem outputs_isPrefix (s : σ) (hist more : List ρ) :
    outputs serve s hist <+: outputs serve s (hist ++ more) := by
  induction hist generalizing s with
  | nil => exact List.nil_prefix
  | cons r hist ih =>
    rw [List.cons_append, outputs, outputs]
    exact (List.prefix_cons_inj _).mpr (ih _)

/-- Some of the requests have been answered. -/
theorem answersOf_isPrefix (done rest : List ρ) :
    answersOf key k (done ++ rest) (answers key serve st done) <+:
      outputs serve (st k) (requestsOf key k (done ++ rest)) := by
  -- requests without an answer are not paired
  have hzip : (done ++ rest).zip (answers key serve st done) =
      done.zip (answers key serve st done) := by
    have hlen : done.length = (answers key serve st done).length := (length_answers done).symm
    have happ := @List.zip_append _ _ done rest (answers key serve st done) [] hlen
    rwa [List.append_nil, List.zip_nil_right, List.append_nil] at happ
  have hdone : answersOf key k done (answers key serve st done) = _ := answersOf_answers done
  rw [answersOf, hzip, requestsOf, List.filter_append]
  rw [answersOf] at hdone
  rw [hdone]
  exact outputs_isPrefix _ _ _

omit [DecidableEq κ] in
/-- Prefixes of one list agree where both have an element. -/
theorem getElem?_agree {all l l' : List ν} (h : l <+: all) (h' : l' <+: all) {i : Nat} {v v' : ν}
    (hv : l[i]? = some v) (hv' : l'[i]? = some v') : v = v' := by
  have hi := (List.getElem?_eq_some_iff.mp hv).1
  have hi' := (List.getElem?_eq_some_iff.mp hv').1
  have hall := List.prefix_iff_getElem?.mp h i hi
  have hall' := List.prefix_iff_getElem?.mp h' i hi'
  rw [← List.getElem?_eq_getElem hi, hv] at hall
  rw [← List.getElem?_eq_getElem hi', hv', hall] at hall'
  exact Option.some.inj hall'

/-- Two histories that ask the same of a part, each of them answered up to some point:
    the part has given the same answers, as far as it has given them in both. -/
theorem answersOf_agree {done rest done' rest' : List ρ}
    (hsame : requestsOf key k (done ++ rest) = requestsOf key k (done' ++ rest')) {i : Nat}
    {v v' : ν}
    (hv : (answersOf key k (done ++ rest) (answers key serve st done))[i]? = some v)
    (hv' : (answersOf key k (done' ++ rest') (answers key serve st done'))[i]? = some v') :
    v = v' := by
  have hpre' : answersOf key k (done' ++ rest') (answers key serve st done') <+:
      outputs serve (st k) (requestsOf key k (done' ++ rest')) := answersOf_isPrefix done' rest'
  rw [← hsame] at hpre'
  exact getElem?_agree (answersOf_isPrefix done rest) hpre' hv hv'

end Shards
