import URiscV.Hdl.Common

/-!
# The one-hot converter

`onehot2bin` passes the bits of its input from the lowest to the highest, and every
set bit overwrites the index of the one before. So the index that is left is that of
the highest set bit, and since it is below the width of the input, `$clog2` bits hold
it, also where the width is no power of two.

## Key results

- `highest_loop`: the loop after `n` iterations
- `onehot2bin_exact`: the converter
-/

namespace URiscV.Hdl

/-- Bit `i` is the highest set bit of `x` below bit `n`. -/
structure Highest {W : Nat} (x : BitVec W) (n i : Nat) : Prop where
  lt : i < n
  set : x.getLsbD i = true
  above : ∀ j, i < j → j < n → x.getLsbD j = false

namespace Highest

variable {W n i j : Nat} {x : BitVec W}

/-- A set bit is the highest so far. -/
theorem of_set (h : x.getLsbD n = true) : Highest x (n + 1) n where
  lt := Nat.lt_succ_self n
  set := h
  above := fun j hj hlt => by omega

/-- A cleared bit changes nothing. -/
theorem of_clear (h : Highest x n i) (hn : x.getLsbD n = false) : Highest x (n + 1) i where
  lt := Nat.lt_succ_of_lt h.lt
  set := h.set
  above := by
    intro j hij hj
    by_cases hjn : j = n
    · rw [hjn, hn]
    · exact h.above j hij (by omega)

/-- There is one highest bit. -/
theorem unique (h : Highest x n i) (h' : Highest x n j) : i = j := by
  -- the lower of two would lie below a set bit
  by_contra hne
  rcases Nat.lt_or_gt_of_ne hne with hlt | hlt
  · exact Bool.false_ne_true ((h.above j hlt h'.lt).symm.trans h'.set)
  · exact Bool.false_ne_true ((h'.above i hlt h.lt).symm.trans h.set)

end Highest

/-- `out` after the first `n` iterations of the loop. -/
def onehotLoop (onehotWidth : Nat) (in_ : BitVec onehotWidth) (n : Nat) :
    BitVec (clog2 onehotWidth) :=
  (List.range n).foldl
    (fun out i => if in_.getLsbD i then BitVec.ofNat (clog2 onehotWidth) i else out) 0

section Loop

variable {W : Nat} {x : BitVec W}

/-- One iteration of the loop: a bit that is set overwrites the index. -/
theorem onehotLoop_succ (n : Nat) : onehotLoop W x (n + 1) =
    if x.getLsbD n then BitVec.ofNat (clog2 W) n else onehotLoop W x n := by
  simp only [onehotLoop, List.range_succ, List.foldl_append, List.foldl_cons, List.foldl_nil]

/-- An index of the input fits into the output. -/
theorem toNat_ofNat_clog2 {i : Nat} (h : i < W) : (BitVec.ofNat (clog2 W) i).toNat = i := by
  have hle : W ≤ 2 ^ clog2 W := Nat.le_pow_clog (by omega) W
  rw [BitVec.toNat_ofNat, Nat.mod_eq_of_lt (by omega)]

/-- After `n` iterations, `out` is the highest set bit below `n`, if there is one. -/
theorem highest_loop {n : Nat} (hn : n ≤ W) :
    (∀ j < n, x.getLsbD j = false) ∨ Highest x n (onehotLoop W x n).toNat := by
  induction n with
  | zero => exact .inl fun j hj => absurd hj (Nat.not_lt_zero j)
  | succ n ih =>
    rw [onehotLoop_succ]
    cases hbit : x.getLsbD n with
    | true =>
      right
      -- the index of bit `n` replaces the one before
      rw [if_pos rfl, toNat_ofNat_clog2 (by omega)]
      exact .of_set hbit
    | false =>
      -- nothing is replaced, and bit `n` is not the highest
      rw [if_neg Bool.false_ne_true]
      rcases ih (by omega) with hnone | hhigh
      · left
        intro j hj
        by_cases hjn : j = n
        · rw [hjn, hbit]
        · exact hnone j (by omega)
      · exact .inr (hhigh.of_clear hbit)

/-- The output for an input whose highest set bit is known. -/
theorem onehot2bin_of_highest {i : Nat} (h : Highest x W i) : (onehot2bin W x).toNat = i := by
  rcases highest_loop (Nat.le_refl W) with hnone | hhigh
  · exact absurd (h.set.symm.trans (hnone i h.lt)) (by decide)
  · exact hhigh.unique h

/-- A vector other than zero has a set bit. -/
theorem exists_getLsbD_of_ne_zero (h : x ≠ 0) : ∃ i < W, x.getLsbD i = true := by
  by_contra hno
  apply h
  apply BitVec.eq_of_getLsbD_eq
  intro i hi
  cases hset : x.getLsbD i with
  | true => exact absurd ⟨i, hi, hset⟩ hno
  | false => exact BitVec.getLsbD_zero.symm

/-- The only bit set is the highest one. -/
theorem highest_twoPow {i : Nat} (h : i < W) : Highest (BitVec.twoPow W i) W i where
  lt := h
  set := by simp [h]
  above := by
    intro j hij _
    have hne : i ≠ j := by omega
    simp [BitVec.getLsbD_twoPow, hne]

end Loop

/-- **One-hot conversion is exact.** For every width and every input with a bit set,
    the output of `onehot2bin` is the index of the highest set bit, untruncated; so an
    input whose only set bit is bit `i` yields `i`. -/
theorem onehot2bin_exact (W : Nat) (x : BitVec W) :
    (x ≠ 0 → (onehot2bin W x).toNat < W ∧ x.getLsbD (onehot2bin W x).toNat = true ∧
      ∀ j, (onehot2bin W x).toNat < j → x.getLsbD j = false) ∧
    ∀ i < W, (onehot2bin W (BitVec.twoPow W i)).toNat = i := by
  refine ⟨fun hx => ?_, fun i hi => onehot2bin_of_highest (highest_twoPow hi)⟩
  rcases highest_loop (x := x) (Nat.le_refl W) with hnone | hhigh
  · obtain ⟨i, hi, hset⟩ := exists_getLsbD_of_ne_zero hx
    exact absurd (hset.symm.trans (hnone i hi)) (by decide)
  · refine ⟨hhigh.lt, hhigh.set, fun j hj => ?_⟩
    by_cases hjW : j < W
    · exact hhigh.above j hj hjW
    · exact BitVec.getLsbD_of_ge x j (by omega)

/-- Bits 1 and 4 of a vector of five bits: three bits hold the index 4. -/
theorem onehot2bin_exact_five : (onehot2bin 5 0b10010#5).toNat < 5 ∧
    ∀ j, (onehot2bin 5 0b10010#5).toNat < j → (0b10010#5).getLsbD j = false :=
  have h := (onehot2bin_exact 5 0b10010#5).1 (by decide)
  ⟨h.1, h.2.2⟩

end URiscV.Hdl
