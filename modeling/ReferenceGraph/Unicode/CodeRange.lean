/-!
# Ranges of code points

A character property is stored as a list of closed ranges of code points, ascending and apart.
`CodeRange.covers` looks a code point up and stops at the first range that begins beyond it.

* `covers_eq_true_iff`: on an ascending list the early stop loses nothing.
-/

namespace ReferenceGraph.Unicode

/-- The code points from `first` to `last`, both included. -/
structure CodeRange where
  first : Nat
  last : Nat
deriving DecidableEq, Repr

namespace CodeRange

/-- Whether one of the ascending ranges holds the code point. -/
def covers : List CodeRange → Nat → Bool
  | [], _ => false
  | r :: rs, n => decide (r.first ≤ n) && (decide (n ≤ r.last) || covers rs n)

/-- The ranges are nonempty, each begins beyond the one before it, and the first at `low` or
later. -/
def AscendingFrom : Nat → List CodeRange → Prop
  | _, [] => True
  | low, r :: rs => low ≤ r.first ∧ r.first ≤ r.last ∧ AscendingFrom (r.last + 1) rs

instance AscendingFrom.decidable : (low : Nat) → (rs : List CodeRange) →
    Decidable (AscendingFrom low rs)
  | _, [] => inferInstanceAs (Decidable True)
  | low, r :: rs =>
    have := AscendingFrom.decidable (r.last + 1) rs
    inferInstanceAs (Decidable (low ≤ r.first ∧ r.first ≤ r.last ∧ AscendingFrom (r.last + 1) rs))

theorem AscendingFrom.le_first {low : Nat} {rs : List CodeRange} (h : AscendingFrom low rs)
    {s : CodeRange} (hs : s ∈ rs) : low ≤ s.first := by
  induction rs generalizing low with
  | nil => simp at hs
  | cons r rs ih =>
    obtain ⟨hlow, hne, htail⟩ := h
    rcases List.mem_cons.mp hs with rfl | hs
    · exact hlow
    · have := ih htail hs
      omega

theorem covers_eq_true_iff {low : Nat} {rs : List CodeRange} (h : AscendingFrom low rs) (n : Nat) :
    covers rs n = true ↔ ∃ r ∈ rs, r.first ≤ n ∧ n ≤ r.last := by
  induction rs generalizing low with
  | nil => simp [covers]
  | cons r rs ih =>
    obtain ⟨-, hne, htail⟩ := h
    simp only [covers, Bool.and_eq_true, Bool.or_eq_true, decide_eq_true_eq, ih htail,
      List.mem_cons, or_and_right, exists_or, exists_eq_left]
    constructor
    · rintro ⟨h1, h2 | h2⟩
      · exact Or.inl ⟨h1, h2⟩
      · exact Or.inr h2
    · rintro (⟨h1, h2⟩ | ⟨s, hs, h1, h2⟩)
      · exact ⟨h1, Or.inl h2⟩
      · have := htail.le_first hs
        exact ⟨by omega, Or.inr ⟨s, hs, h1, h2⟩⟩

end CodeRange

end ReferenceGraph.Unicode
