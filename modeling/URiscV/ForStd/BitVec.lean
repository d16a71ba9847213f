import Mathlib.Algebra.Group.Int.Defs
import Mathlib.Algebra.Group.Nat.Defs

/-!
# Bit-vector slices

Part-selects of part-selects and of concatenations, writing a part-select in place,
part-selects that extend to the whole vector, and vectors given bit by bit. Candidates for
upstreaming to Lean's standard library.
-/

namespace BitVec

variable {w : Nat}

/-! ## Reading slices -/

/-- A slice of a slice is a slice. -/
theorem extractLsb'_extractLsb'_add {x : BitVec w} {s l s' l' : Nat} (h : s' + l' ≤ l) :
    (x.extractLsb' s l).extractLsb' s' l' = x.extractLsb' (s + s') l' := by
  apply eq_of_getLsbD_eq
  intro i hi
  simp only [getLsbD_extractLsb', hi, decide_true, Bool.true_and,
    show s' + i < l from by omega, Nat.add_assoc]

/-- Both parts of a concatenation can be read back. -/
theorem append_eq_append_iff {v : Nat} {x x' : BitVec w} {y y' : BitVec v} :
    x ++ y = x' ++ y' ↔ x = x' ∧ y = y' := by
  constructor
  · intro h
    have hleft := congrArg (fun z : BitVec (w + v) => z.extractLsb' v w) h
    have hright := congrArg (fun z : BitVec (w + v) => z.extractLsb' 0 v) h
    simp only [extractLsb'_append_eq_left] at hleft
    simp only [extractLsb'_append_eq_right] at hright
    exact ⟨hleft, hright⟩
  · rintro ⟨rfl, rfl⟩
    rfl

/-- A slice of a sign extension, below the sign. -/
theorem extractLsb'_signExtend_of_le {x : BitVec w} {v s l : Nat} (h : s + l ≤ w) (hv : w ≤ v) :
    (x.signExtend v).extractLsb' s l = x.extractLsb' s l := by
  apply eq_of_getLsbD_eq
  intro i hi
  have hw : s + i < w := by omega
  have hsv : s + i < v := by omega
  rw [getLsbD_extractLsb', getLsbD_extractLsb', getLsbD_signExtend, if_pos hw]
  simp [hsv]

/-- The low `n` bits are zero when the number is a multiple of `2 ^ n`. -/
theorem extractLsb'_zero_eq_zero_iff {x : BitVec w} {n : Nat} (hn : n ≤ w) :
    x.extractLsb' 0 n = 0#n ↔ x.toInt % 2 ^ n = 0 := by
  have hmod : x.toInt % 2 ^ n = ((x.toNat % 2 ^ n : Nat) : Int) := by
    have hpow : ((2 ^ n : Nat) : Int) = 2 ^ n := by push_cast; rfl
    have hdvd : ((2 ^ n : Nat) : Int) ∣ ((2 ^ w : Nat) : Int) :=
      Int.natCast_dvd_natCast.mpr (Nat.pow_dvd_pow 2 hn)
    rw [toInt_eq_toNat_bmod, ← hpow, Int.natCast_emod, ← Int.emod_emod_of_dvd _ hdvd,
      Int.bmod_emod, Int.emod_emod_of_dvd _ hdvd]
  rw [hmod, ← toNat_inj, extractLsb'_toNat, Nat.shiftRight_zero]
  constructor
  · intro h
    rw [h]
    rfl
  · intro h
    exact Int.ofNat_inj.mp h

/-! ## Writing slices -/

/-- `x` with the `n` bits from `s` on replaced by `v`. -/
def setSlice {n : Nat} (x : BitVec w) (s : Nat) (v : BitVec n) : BitVec w :=
  (x &&& ~~~((allOnes n).setWidth w <<< s)) ||| (v.setWidth w <<< s)

/-- The bits of an updated slice. -/
theorem getLsbD_setSlice {n : Nat} (x : BitVec w) (s : Nat) (v : BitVec n) {i : Nat} (hi : i < w) :
    (x.setSlice s v).getLsbD i = if s ≤ i ∧ i < s + n then v.getLsbD (i - s) else x.getLsbD i := by
  simp only [setSlice, getLsbD_or, getLsbD_and, getLsbD_not, getLsbD_shiftLeft, getLsbD_setWidth,
    getLsbD_allOnes, hi, decide_true, Bool.true_and]
  have hlt : i - s < w := by omega
  by_cases hs : i < s
  · have hn : ¬(s ≤ i ∧ i < s + n) := by omega
    simp [hs, hn]
  · by_cases he : i - s < n
    · have hy : s ≤ i ∧ i < s + n := by omega
      simp [hs, he, hy, hlt]
    · have hn : ¬(s ≤ i ∧ i < s + n) := by omega
      have hv : v.getLsbD (i - s) = false := getLsbD_of_ge v _ (by omega)
      simp [hs, he, hn, hv]

/-- Reading back the slice that was written. -/
theorem extractLsb'_setSlice_self {n : Nat} (x : BitVec w) {s : Nat} (v : BitVec n)
    (h : s + n ≤ w) : (x.setSlice s v).extractLsb' s n = v := by
  apply eq_of_getLsbD_eq
  intro i hi
  have hin : s ≤ s + i ∧ s + i < s + n := by omega
  rw [getLsbD_extractLsb', getLsbD_setSlice x s v (by omega), if_pos hin, Nat.add_sub_cancel_left]
  simp [hi]

/-- A slice of the slice that was written. -/
theorem extractLsb'_setSlice_of_le {n s' l : Nat} (x : BitVec w) {s : Nat} (v : BitVec n)
    (h : s + n ≤ w) (hl : s' + l ≤ n) :
    (x.setSlice s v).extractLsb' (s + s') l = v.extractLsb' s' l := by
  rw [← extractLsb'_extractLsb'_add hl, extractLsb'_setSlice_self x v h]

/-- A slice that does not meet the one that was written is unchanged. -/
theorem extractLsb'_setSlice_of_disjoint {n s' l : Nat} (x : BitVec w) {s : Nat} (v : BitVec n)
    (hl : s' + l ≤ w) (h : s' + l ≤ s ∨ s + n ≤ s') :
    (x.setSlice s v).extractLsb' s' l = x.extractLsb' s' l := by
  apply eq_of_getLsbD_eq
  intro i hi
  have hout : ¬(s ≤ s' + i ∧ s' + i < s + n) := by omega
  rw [getLsbD_extractLsb', getLsbD_extractLsb', getLsbD_setSlice x s v (by omega), if_neg hout]

/-! ## Vectors that a slice of theirs extends to -/

/-- The sign extension of the low `n` bits gives the vector back when it is a number of
    `n` bits. -/
theorem signExtend_extractLsb'_zero_eq_self_iff {x : BitVec w} {n : Nat} (hn : 0 < n)
    (hw : n ≤ w) : (x.extractLsb' 0 n).signExtend w = x ↔
      -2 ^ (n - 1) ≤ x.toInt ∧ x.toInt < 2 ^ (n - 1) := by
  have hext : ((x.extractLsb' 0 n).signExtend w).toInt = (x.extractLsb' 0 n).toInt :=
    toInt_signExtend_of_le hw
  constructor
  · intro h
    rw [h] at hext
    rw [hext]
    exact ⟨le_toInt _, toInt_lt⟩
  · intro ⟨hlo, hhi⟩
    -- in range, the balanced remainder changes nothing
    have hpow : ((2 ^ n : Nat) : Int) = 2 ^ (n - 1) * 2 := by
      obtain ⟨m, rfl⟩ : ∃ m, n = m + 1 := ⟨n - 1, by omega⟩
      push_cast
      exact Int.pow_succ 2 m
    have hdvd : 2 ^ n ∣ 2 ^ w := Nat.pow_dvd_pow 2 hw
    rw [← toInt_inj, hext, toInt_extractLsb', Nat.shiftRight_zero, ← Int.bmod_bmod_of_dvd hdvd,
      ← toInt_eq_toNat_bmod]
    exact Int.bmod_eq_of_le_mul_two (by omega) (by omega)

/-- No slice above the low `n` bits sign extends to the vector, apart from zeros and ones. -/
theorem signExtend_extractLsb'_eq_self_iff {x : BitVec w} {k n : Nat} (hn : 0 < n) (hk : n ≤ k)
    (hw : k + n ≤ w) : (x.extractLsb' k n).signExtend w = x ↔ x = 0#w ∨ x = allOnes w := by
  constructor
  · intro h
    -- every bit is the top bit of the slice
    have hhigh : ∀ i, n ≤ i → i < w → x.getLsbD i = x.getLsbD (k + (n - 1)) := by
      intro i hi hiw
      have hbit : ((x.extractLsb' k n).signExtend w).getLsbD i = x.getLsbD i := by rw [h]
      rw [getLsbD_signExtend, if_neg (by omega), msb_eq_getLsbD_last, getLsbD_extractLsb'] at hbit
      simpa [hiw, show n - 1 < n by omega] using hbit.symm
    have hall : ∀ i, i < w → x.getLsbD i = x.getLsbD (k + (n - 1)) := by
      intro i hiw
      by_cases hi : n ≤ i
      · exact hhigh i hi hiw
      · have hbit : ((x.extractLsb' k n).signExtend w).getLsbD i = x.getLsbD i := by rw [h]
        rw [getLsbD_signExtend, if_pos (by omega), getLsbD_extractLsb'] at hbit
        rw [← hhigh (k + i) (by omega) (by omega)]
        simpa [hiw, show i < n by omega] using hbit.symm
    cases hs : x.getLsbD (k + (n - 1)) with
    | false =>
      left
      apply eq_of_getLsbD_eq
      intro i hi
      rw [hall i hi, hs, getLsbD_zero]
    | true =>
      right
      apply eq_of_getLsbD_eq
      intro i hi
      rw [hall i hi, hs, getLsbD_allOnes, decide_eq_true hi]
  · rintro (rfl | rfl)
    · apply eq_of_getLsbD_eq
      intro i hi
      simp [getLsbD_signExtend, msb_eq_getLsbD_last]
    · apply eq_of_getLsbD_eq
      intro i hi
      rw [getLsbD_signExtend, msb_eq_getLsbD_last, getLsbD_extractLsb', getLsbD_extractLsb',
        getLsbD_allOnes, getLsbD_allOnes, getLsbD_allOnes]
      by_cases hin : i < n
      · simp [hi, hin]; omega
      · simp [hi, hin]; omega

/-- The low bits make up the whole exactly for small numbers. -/
theorem setWidth_extractLsb'_zero_eq_self_iff {x : BitVec w} {n : Nat} :
    (x.extractLsb' 0 n).setWidth w = x ↔ x.toNat < 2 ^ n := by
  rw [← toNat_inj, toNat_setWidth, extractLsb'_toNat, Nat.shiftRight_zero]
  constructor
  · intro h
    rw [← h]
    exact Nat.lt_of_le_of_lt (Nat.mod_le _ _) (Nat.mod_lt _ (Nat.two_pow_pos n))
  · intro h
    rw [Nat.mod_eq_of_lt h, Nat.mod_eq_of_lt x.isLt]

/-- Other bits make up the whole only for zero. -/
theorem setWidth_extractLsb'_eq_self_iff {x : BitVec w} {k n : Nat} (hk : n ≤ k) :
    (x.extractLsb' k n).setWidth w = x ↔ x = 0#w := by
  constructor
  · intro h
    have hbit : ∀ i, i < w → x.getLsbD i = (decide (i < n) && x.getLsbD (k + i)) := by
      intro i hi
      have hget : ((x.extractLsb' k n).setWidth w).getLsbD i = x.getLsbD i := by rw [h]
      rw [getLsbD_setWidth, getLsbD_extractLsb'] at hget
      simpa [hi] using hget.symm
    apply eq_of_getLsbD_eq
    intro i hi
    rw [hbit i hi, getLsbD_zero]
    -- every bit is one that stands higher up, so there is none
    by_cases hkw : k + i < w
    · rw [hbit (k + i) hkw]
      simp; omega
    · simp [getLsbD_of_ge x (k + i) (by omega)]
  · rintro rfl
    simp

/-! ## Vectors bit by bit -/

/-- The vector whose bit `i` is `f i`. -/
def ofFn (f : Nat → Bool) : (w : Nat) → BitVec w
  | 0 => 0#0
  | w + 1 => cons (f w) (ofFn f w)

/-- The bits of a vector given by a function. -/
theorem getLsbD_ofFn (f : Nat → Bool) (w i : Nat) :
    (ofFn f w).getLsbD i = (decide (i < w) && f i) := by
  induction w with
  | zero => simp
  | succ w ih =>
    rw [ofFn, getLsbD_cons, ih]
    by_cases hi : i = w
    · subst hi
      simp
    · have hlt : i < w + 1 ↔ i < w := by omega
      simp [hi, hlt]

end BitVec
