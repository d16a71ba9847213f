import Mathlib.Logic.Function.Basic

/-!
# Write-back caches

A cache is a set of slots `S` over a backing memory `mem : L → D`. The slot `s`
holds the line `line s`, if any, with contents `data s`, and `dirty s` says
whether these may differ from the backing memory. `Coherent` relates a cache and
its backing memory to the memory `view : L → D` that they represent together:
the contents of a line are those of its slot if it has one, and those of the
backing memory otherwise.

The rules say what each operation of a write-back cache does to the view: none
but a write changes it, and the side condition of each rule is what the
controller has to make sure of.
-/

namespace WriteBack

variable {S L D : Type*}

/-- The cache represents the memory `view`. -/
structure Coherent (line : S → Option L) (data : S → D) (dirty : S → Bool) (mem view : L → D) :
    Prop where
  /-- a line has at most one slot -/
  unique : ∀ s s' l, line s = some l → line s' = some l → s = s'
  held : ∀ s l, line s = some l → data s = view l
  absent : ∀ l, (∀ s, line s ≠ some l) → mem l = view l
  clean : ∀ s l, line s = some l → dirty s = false → mem l = view l

namespace Coherent

variable {line : S → Option L} {data : S → D} {dirty : S → Bool} {mem view : L → D}

/-- An empty cache represents its backing memory. -/
theorem empty (data : S → D) (dirty : S → Bool) (mem : L → D) :
    Coherent (fun _ => none) data dirty mem mem where
  unique := fun _ _ _ h => by cases h
  held := fun _ _ h => by cases h
  absent := fun _ _ => rfl
  clean := fun _ _ h => by cases h

variable [DecidableEq S] [DecidableEq L]

/-- Writing a line that has a slot. -/
theorem write (h : Coherent line data dirty mem view) {s : S} {l : L} (hs : line s = some l)
    (d : D) :
    Coherent line (Function.update data s d) (Function.update dirty s true) mem
      (Function.update view l d) where
  unique := h.unique
  held := by
    intro s' l' hs'
    by_cases he : s' = s
    · subst he
      obtain rfl : l = l' := by rw [hs] at hs'; exact Option.some.inj hs'
      rw [Function.update_self, Function.update_self]
    · have hl : l' ≠ l := fun hl => he (h.unique s' s l (hl ▸ hs') hs)
      rw [Function.update_of_ne he, Function.update_of_ne hl]
      exact h.held s' l' hs'
  absent := by
    intro l' habs
    have hl : l' ≠ l := fun hl => habs s (hl ▸ hs)
    rw [Function.update_of_ne hl]
    exact h.absent l' habs
  clean := by
    intro s' l' hs' hd
    have he : s' ≠ s := by
      rintro rfl
      rw [Function.update_self] at hd
      cases hd
    have hl : l' ≠ l := fun hl => he (h.unique s' s l (hl ▸ hs') hs)
    rw [Function.update_of_ne he] at hd
    rw [Function.update_of_ne hl]
    exact h.clean s' l' hs' hd

omit [DecidableEq L] in
/-- Marking a slot clean, when the backing memory agrees with it. -/
theorem markClean (h : Coherent line data dirty mem view) {s : S}
    (hs : ∀ l, line s = some l → mem l = view l) :
    Coherent line data (Function.update dirty s false) mem view where
  unique := h.unique
  held := h.held
  absent := h.absent
  clean := by
    intro s' l hl hd
    by_cases he : s' = s
    · subst he
      exact hs l hl
    · rw [Function.update_of_ne he] at hd
      exact h.clean s' l hl hd

omit [DecidableEq S] in
/-- Writing a slot back to the backing memory. -/
theorem writeback (h : Coherent line data dirty mem view) {s : S} {l : L} (hs : line s = some l) :
    Coherent line data dirty (Function.update mem l (data s)) view where
  unique := h.unique
  held := h.held
  absent := by
    intro l' habs
    have hl : l' ≠ l := fun hl => habs s (hl ▸ hs)
    rw [Function.update_of_ne hl]
    exact h.absent l' habs
  clean := by
    intro s' l' hs' hd
    by_cases hl : l' = l
    · rw [hl, Function.update_self]
      exact h.held s l hs
    · rw [Function.update_of_ne hl]
      exact h.clean s' l' hs' hd

/-- Filling a slot with a line that has none, when the backing memory agrees with
    what the slot held before. -/
theorem replace (h : Coherent line data dirty mem view) {s : S} {l : L}
    (habs : ∀ s', line s' ≠ some l) (hold : ∀ l', line s = some l' → mem l' = view l') (b : Bool) :
    Coherent (Function.update line s (some l)) (Function.update data s (mem l))
      (Function.update dirty s b) mem view where
  unique := by
    intro s₁ s₂ l' h₁ h₂
    by_cases e₁ : s₁ = s
    · by_cases e₂ : s₂ = s
      · rw [e₁, e₂]
      · rw [e₁, Function.update_self] at h₁
        rw [Function.update_of_ne e₂, ← h₁] at h₂
        exact absurd h₂ (habs s₂)
    · rw [Function.update_of_ne e₁] at h₁
      by_cases e₂ : s₂ = s
      · rw [e₂, Function.update_self] at h₂
        rw [← h₂] at h₁
        exact absurd h₁ (habs s₁)
      · rw [Function.update_of_ne e₂] at h₂
        exact h.unique s₁ s₂ l' h₁ h₂
  held := by
    intro s' l' hs'
    by_cases he : s' = s
    · rw [he, Function.update_self] at hs'
      obtain rfl : l = l' := Option.some.inj hs'
      rw [he, Function.update_self]
      exact h.absent l habs
    · rw [Function.update_of_ne he] at hs' ⊢
      exact h.held s' l' hs'
  absent := by
    intro l' habs'
    by_cases hl : line s = some l'
    · exact hold l' hl
    · refine h.absent l' fun s' => ?_
      by_cases he : s' = s
      · rw [he]; exact hl
      -- the other slots are as they were
      · have := habs' s'
        rwa [Function.update_of_ne he] at this
  clean := by
    intro s' l' hs' hd
    by_cases he : s' = s
    · rw [he, Function.update_self] at hs'
      obtain rfl : l = l' := Option.some.inj hs'
      exact h.absent l habs
    · rw [Function.update_of_ne he] at hs' hd
      exact h.clean s' l' hs' hd

/-- Filling a slot and writing it in one go. -/
theorem replace_write (h : Coherent line data dirty mem view) {s : S} {l : L}
    (habs : ∀ s', line s' ≠ some l) (hold : ∀ l', line s = some l' → mem l' = view l') (d : D) :
    Coherent (Function.update line s (some l)) (Function.update data s d)
      (Function.update dirty s true) mem (Function.update view l d) := by
  have hw := (h.replace habs hold false).write (Function.update_self s (some l) line) d
  rwa [Function.update_idem, Function.update_idem] at hw

end Coherent

end WriteBack
