import Mathlib.Data.List.Infix

/-!
# Text made of lines

When a word occurs in a text that was printed line by line: a word without line
breaks occurs in the text when it occurs in one of the lines.
-/

namespace Lines

/-! ## Occurrence -/

/-- A word that does not contain `c` does not reach across a `c`. -/
theorem infix_append_cons_iff {α : Type*} {p a b : List α} {c : α} (hc : c ∉ p) :
    p <:+: a ++ c :: b ↔ p <:+: a ∨ p <:+: b := by
  -- a word that starts at the `c` is empty
  have hstart : ∀ l : List α, l <+: c :: b → c ∉ l → l = [] := by
    intro l hl hcl
    cases l with
    | nil => rfl
    | cons d l =>
      rw [List.cons_prefix_cons] at hl
      exact absurd (hl.1 ▸ List.mem_cons_self) hcl
  constructor
  · intro h
    rcases List.infix_append_iff.mp h with ha | hb | ⟨l₁, l₂, rfl, hl₁, hl₂⟩
    · exact .inl ha
    · rcases List.infix_cons_iff.mp hb with hp | hb
      · rw [hstart p hp hc]
        exact .inl (List.nil_infix)
      · exact .inr hb
    · have hnil := hstart l₂ hl₂ fun hmem => hc (List.mem_append_right _ hmem)
      rw [hnil, List.append_nil]
      exact .inl hl₁.isInfix
  · rintro (ha | hb)
    · exact ha.trans (List.prefix_append a (c :: b)).isInfix
    · have hsuffix : b <:+ a ++ c :: b :=
        (List.suffix_cons c b).trans (List.suffix_append a (c :: b))
      exact hb.trans hsuffix.isInfix

/-- The word `t` occurs in the text `s`. -/
def Occurs (t s : String) : Prop := t.toList <:+: s.toList

instance (t s : String) : Decidable (Occurs t s) := inferInstanceAs (Decidable (_ <:+: _))

section Occurs

variable {t : String} {ls : List String}

/-- A text without a line break stands on one of the lines. -/
theorem occurs_append_line {a b : String} (ht : '\n' ∉ t.toList) :
    Occurs t (a ++ "\n" ++ b) ↔ Occurs t a ∨ Occurs t b := by
  have htext : (a ++ "\n" ++ b).toList = a.toList ++ '\n' :: b.toList := by
    rw [String.toList_append, String.toList_append, List.append_assoc]
    rfl
  rw [Occurs, htext]
  exact infix_append_cons_iff ht

/-- A text in the second part. -/
theorem occurs_append_right {a b : String} (h : Occurs t b) : Occurs t (a ++ b) := by
  rw [Occurs, String.toList_append]
  exact h.trans (List.suffix_append a.toList b.toList).isInfix

/-! ## Lines -/

/-- The text of a list of lines. -/
def unlines : List String → String
  | [] => ""
  | l :: ls => l ++ "\n" ++ unlines ls

/-- A word without line breaks in a printed text. -/
theorem occurs_unlines_append (ht : '\n' ∉ t.toList) (note : String) :
    Occurs t (unlines ls ++ note) ↔ (∃ l ∈ ls, Occurs t l) ∨ Occurs t note := by
  induction ls with
  | nil =>
    have hnil : unlines [] ++ note = note := by
      show "" ++ note = note
      exact String.empty_append
    rw [hnil]
    simp
  | cons l ls ih =>
    have hcons : unlines (l :: ls) ++ note = l ++ "\n" ++ (unlines ls ++ note) := by
      show l ++ "\n" ++ unlines ls ++ note = _
      rw [String.append_assoc]
    rw [hcons, occurs_append_line ht, ih]
    simp [or_assoc]

end Occurs

end Lines
