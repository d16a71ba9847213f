import Mathlib.Data.List.Nodup
import Mathlib.Data.List.Perm.Basic
import Mathlib.Logic.Function.Basic

/-!
# Insertion in place

An array is a function on its indices. Insertion in place moves the elements from `p` to
`i - 1` up by one and writes element `i` into the gap; `shiftUp` is the array with the gap,
`insertAt` the one behind the insertion.

## Key results

- `perm_insertAt`: an insertion only reorders the array
- `sortedTo_insertAt`: it keeps a prefix sorted
-/

namespace InsertAt

variable {α : Type*} {f : Nat → α} {p i n : Nat}

/-- The elements from `p` to `i - 1`, moved up by one. -/
def shiftUp (f : Nat → α) (p i : Nat) : Nat → α := fun k => if p < k ∧ k ≤ i then f (k - 1) else f k

/-- Element `i`, inserted at `p`. -/
def insertAt (f : Nat → α) (p i : Nat) : Nat → α := Function.update (shiftUp f p i) p (f i)

/-- Nothing is moved yet. -/
theorem shiftUp_self (f : Nat → α) (i : Nat) : shiftUp f i i = f := by
  funext k
  exact if_neg (by omega)

/-- The elements up to the gap stay. -/
theorem shiftUp_of_le {k : Nat} (h : k ≤ p) : shiftUp f p i k = f k := if_neg (by omega)

/-- One more element moved up. -/
theorem update_shiftUp (h : p + 1 ≤ i) :
    Function.update (shiftUp f (p + 1) i) (p + 1) (f p) = shiftUp f p i := by
  funext k
  by_cases hk : k = p + 1
  · subst hk
    rw [Function.update_self, shiftUp, if_pos ⟨Nat.lt_succ_self p, h⟩, Nat.add_sub_cancel]
  · rw [Function.update_of_ne hk, shiftUp, shiftUp]
    exact if_congr (by omega) rfl rfl

/-- Where the elements of the new array come from. -/
def source (p i k : Nat) : Nat := if k = p then i else if p < k ∧ k ≤ i then k - 1 else k

/-- An insertion, as a rearrangement of the elements. -/
theorem insertAt_eq (f : Nat → α) (p i k : Nat) : insertAt f p i k = f (source p i k) := by
  by_cases hk : k = p
  · rw [source, if_pos hk, insertAt, hk, Function.update_self]
  · rw [source, if_neg hk, insertAt, Function.update_of_ne hk, shiftUp]
    exact (apply_ite f _ _ _).symm

/-- **An insertion only reorders the array.** -/
theorem perm_insertAt (f : Nat → α) (hp : p ≤ i) (hi : i < n) :
    ((List.range n).map (insertAt f p i)).Perm ((List.range n).map f) := by
  have hmap : (List.range n).map (insertAt f p i) =
      ((List.range n).map (source p i)).map f := by
    rw [List.map_map]
    exact List.map_congr_left fun k _ => insertAt_eq f p i k
  have hinj : Function.Injective (source p i) := by
    intro a b h
    unfold source at h
    grind
  have hperm : ((List.range n).map (source p i)).Perm (List.range n) := by
    refine (List.perm_ext_iff_of_nodup (List.nodup_range.map hinj) List.nodup_range).mpr fun m => ?_
    rw [List.mem_map, List.mem_range]
    constructor
    · rintro ⟨k, hk, rfl⟩
      rw [List.mem_range] at hk
      unfold source
      grind
    · intro hm
      -- the index that element `m` moves to
      refine ⟨if m = i then p else if p ≤ m ∧ m < i then m + 1 else m, ?_, ?_⟩
      · rw [List.mem_range]
        grind
      · unfold source
        grind
  rw [hmap]
  exact hperm.map f

/-- The first `n` elements are in ascending order. -/
def SortedTo [LE α] (f : Nat → α) (n : Nat) : Prop := ∀ a b, a < b → b < n → f a ≤ f b

/-- **An insertion keeps a prefix sorted**, one element longer. -/
theorem sortedTo_insertAt [LE α] (h : SortedTo f i) (hp : p ≤ i)
    (hlow : ∀ k < p, f k ≤ f i) (hhigh : ∀ k, p ≤ k → k < i → f i ≤ f k) :
    SortedTo (insertAt f p i) (i + 1) := by
  intro a b hab hb
  rw [insertAt_eq, insertAt_eq, source, source]
  by_cases ha : a = p
  · rw [if_pos ha, if_neg (by omega), if_pos (by omega)]
    exact hhigh _ (by omega) (by omega)
  · rw [if_neg ha]
    by_cases hbp : b = p
    · rw [if_pos hbp, if_neg (by omega)]
      exact hlow _ (by omega)
    · rw [if_neg hbp]
      refine h _ _ ?_ ?_
      · grind
      · grind

end InsertAt
