import ReferenceGraph.Proofs.Lists.Joined
import ReferenceGraph.Proofs.Unicode.WordClass
import ReferenceGraph.Source.Reference

/-!
# Characters of names and between names

A name may begin after a boundary character. No character of a name is one, so nothing begins inside
a name; and every blank is one, so a name may follow any blank.

* `isBoundary_of_isAlphanum`, `isBoundary_dot`: the characters of names.
* `isBoundary_of_isBlank`: the blanks.
* `QualifiedName.atStart?_eq_some`: what is read at the start of a text is the start of the text.
-/

namespace ReferenceGraph

open Unicode

/-! ## Letters, digits and dots -/

theorem isAlphanum_iff {c : Char} : c.isAlphanum = true ↔
    (0x41 ≤ c.toNat ∧ c.toNat ≤ 0x5A ∨ 0x61 ≤ c.toNat ∧ c.toNat ≤ 0x7A) ∨
      0x30 ≤ c.toNat ∧ c.toNat ≤ 0x39 := by
  change (decide (0x41 ≤ c.val ∧ c.val ≤ 0x5A) ||
    (decide (0x61 ≤ c.val) && decide (c.val ≤ 0x7A)) ||
    (decide (0x30 ≤ c.val) && decide (c.val ≤ 0x39))) = true ↔ _
  simp only [Bool.or_eq_true, Bool.and_eq_true, decide_eq_true_eq, UInt32.le_iff_toNat_le]
  exact Iff.rfl

theorem isWord_of_isAlphanum {c : Char} (h : c.isAlphanum = true) : isWord c = true := by
  rw [isAlphanum_iff] at h
  have hletter : isAlphabetic c = true ∨ isDecimal c = true := by
    simp only [isAlphabetic, isDecimal,
      CodeRange.covers_eq_true_iff ascendingFrom_alphabeticRanges,
      CodeRange.covers_eq_true_iff ascendingFrom_decimalRanges]
    rcases h with (⟨h1, h2⟩ | ⟨h1, h2⟩) | ⟨h1, h2⟩
    · exact .inl ⟨⟨0x41, 0x5A⟩, .head _, h1, h2⟩
    · exact .inl ⟨⟨0x61, 0x7A⟩, .tail _ (.head _), h1, h2⟩
    · exact .inr ⟨⟨0x30, 0x39⟩, .head _, h1, h2⟩
  rcases hletter with h | h <;> simp [isWord, h]

theorem isBoundary_of_isAlphanum {c : Char} (h : c.isAlphanum = true) : isBoundary c = false := by
  simp [isBoundary, isWord_of_isAlphanum h]

theorem isBoundary_dot : isBoundary '.' = false := by
  simp [isBoundary]

theorem isAlphanum_of_isSegmentChar {c : Char} (h : isSegmentChar c = true) :
    c.isAlphanum = true := by
  simp only [isSegmentChar, Bool.or_eq_true] at h
  change (c.isUpper || c.isLower || c.isDigit) = true
  rcases h with h | h
  · rw [h, Bool.or_true, Bool.true_or]
  · rw [h, Bool.or_true]

theorem isAlphanum_of_isUpper {c : Char} (h : c.isUpper = true) : c.isAlphanum = true := by
  change (c.isUpper || c.isLower || c.isDigit) = true
  rw [h, Bool.true_or, Bool.true_or]

theorem not_isAlphanum_of_isBoundary {c : Char} (h : isBoundary c = true) :
    c.isAlphanum = false := by
  cases ha : c.isAlphanum with
  | false => rfl
  | true => rw [isBoundary_of_isAlphanum ha] at h; cases h

theorem not_package_of_isBoundary {c : Char} (h : isBoundary c = true) :
    (isSegmentChar c || c == '.') = false := by
  rw [Bool.or_eq_false_iff]
  constructor
  · cases hs : isSegmentChar c with
    | false => rfl
    | true =>
      rw [isBoundary_of_isAlphanum (isAlphanum_of_isSegmentChar hs)] at h
      cases h
  · rw [beq_eq_false_iff_ne]
    rintro rfl
    rw [isBoundary_dot] at h
    cases h

theorem isAlphanum_of_isSimpleName {s : List Char} (h : isSimpleName s = true) :
    ∀ c ∈ s, c.isAlphanum = true := by
  cases s with
  | nil => simp
  | cons c cs =>
    simp only [isSimpleName, Bool.and_eq_true, List.all_eq_true] at h
    intro d hd
    rcases List.mem_cons.mp hd with rfl | hd
    · exact isAlphanum_of_isUpper h.1
    · exact h.2 d hd

/-! ## Blanks -/

theorem isBoundary_of_isBlank {c : Char} (h : isBlank c = true) : isBoundary c = true := by
  have hdot : c ≠ '.' := by
    rintro rfl
    exact absurd h (by decide)
  simp [isBoundary, isWord_of_isBlank h, hdot]

theorem isUpper_of_isBlank {c : Char} (h : isBlank c = true) : c.isUpper = false := by
  cases hu : c.isUpper with
  | false => rfl
  | true =>
    have := isBoundary_of_isAlphanum (isAlphanum_of_isUpper hu)
    rw [isBoundary_of_isBlank h] at this
    cases this

/-! ## The name that a text begins with -/

namespace QualifiedName

theorem chars_eq (n : QualifiedName) :
    n.chars = ['.'].intercalate n.package ++ '.' :: n.simple := by
  simp [chars, segments, intercalate_concat _ n.package_ne_nil]

theorem isBoundary_of_mem_chars {n : QualifiedName} {c : Char} (hc : c ∈ n.chars) :
    isBoundary c = false := by
  have hseg : ∀ s ∈ n.package, ∀ c ∈ s, isBoundary c = false := by
    intro s hs c hc
    have h := List.all_eq_true.mp n.isSegment_package s hs
    simp only [isSegment, Bool.and_eq_true, List.all_eq_true] at h
    exact isBoundary_of_isAlphanum (isAlphanum_of_isSegmentChar (h.2 c hc))
  rw [chars_eq] at hc
  rcases List.mem_append.mp hc with hc | hc
  · rcases mem_of_mem_intercalate hc with hc | ⟨s, hs, hc⟩
    · rw [List.mem_singleton.mp hc]
      exact isBoundary_dot
    · exact hseg s hs c hc
  · rcases List.mem_cons.mp hc with rfl | hc
    · exact isBoundary_dot
    · exact isBoundary_of_isAlphanum (isAlphanum_of_isSimpleName n.isSimpleName_simple c hc)

/-- A name that is read at the start of a text is the start of the text. -/
theorem atStart?_eq_some {t : List Char} {n : QualifiedName} (h : atStart? t = some n) :
    ∃ rest, t = n.chars ++ rest := by
  simp only [atStart?] at h
  generalize hrun : t.takeWhile (fun c => isSegmentChar c || c == '.') = run at h
  split at h
  · next hlast =>
    obtain ⟨hp, hs⟩ := ofParts?_eq_some_iff.mp h
    -- The run is the package with a dot behind it.
    have hjoin : run = ['.'].intercalate n.package ++ ['.'] := by
      obtain ⟨segments, hsplit⟩ := List.getLast?_eq_some_iff.mp hlast
      rw [hsplit, List.dropLast_concat] at hp
      rw [← @List.intercalate_splitOn _ run _ _ '.', hsplit, ← hp,
        intercalate_concat _ n.package_ne_nil, List.append_nil]
    refine ⟨(t.drop run.length).dropWhile Char.isAlphanum, ?_⟩
    rw [chars_eq, hs, List.append_assoc, List.cons_append, List.takeWhile_append_dropWhile,
      List.append_cons, ← hjoin]
    exact List.prefix_iff_eq_append.mp (hrun ▸ List.takeWhile_prefix _) |>.symm
  · cases h

end QualifiedName

end ReferenceGraph
