import Mathlib.Data.List.Basic
import ReferenceGraph.Proofs.Source.Scan

/-!
# Imports as references

A line that imports a name also refers to it: the name stands behind a blank, so the scan for
qualified names finds it there. Nothing that the scan for simple names finds stands in front of it,
since no upper-case letter does.

* `declaredImport?_eq_some`: the parts of a line that begins with an import.
* `imported_le_references`: the imported name is a reference of its line, and the first one.
-/

namespace ReferenceGraph

open Unicode

/-- An import begins with blanks, the keyword, at least one blank and the name, and only blanks are
between the name and a semicolon. -/
theorem declaredImport?_eq_some {text : List Char} {n : QualifiedName}
    (h : declaredImport? text = some n) :
    ∃ u v rest, text = u ++ importKeyword ++ v ++ rest ∧ (∀ c ∈ u, isBlank c = true) ∧
      v ≠ [] ∧ (∀ c ∈ v, isBlank c = true) ∧ QualifiedName.atStart? rest = some n ∧
      ((rest.drop n.chars.length).dropWhile isBlank).head? = some ';' := by
  simp only [declaredImport?] at h
  split at h
  · cases h
  · next rest hrest =>
    split at h
    · next hblank =>
      split at h
      · cases h
      · next m hm =>
        split at h
        · next hend =>
          obtain rfl := Option.some.inj h
          refine ⟨text.takeWhile isBlank, rest.takeWhile isBlank, rest.dropWhile isBlank, ?_,
            List.all_eq_true.mp List.all_takeWhile, ?_, List.all_eq_true.mp List.all_takeWhile, hm,
            hend⟩
          · rw [List.append_assoc _ _ (rest.dropWhile isBlank), List.takeWhile_append_dropWhile,
              List.append_assoc, List.append_eq_of_isPrefixOf?_eq_some hrest,
              List.takeWhile_append_dropWhile]
          · cases rest with
            | nil => simp at hblank
            | cons c rest =>
              have hc : isBlank c = true := by simpa using hblank
              simp [hc]
        · cases h
    · cases h

theorem isUpper_of_mem_importKeyword {c : Char} (hc : c ∈ importKeyword) : c.isUpper = false := by
  have h : importKeyword.all (fun c => !c.isUpper) = true := by decide
  simpa using List.all_eq_true.mp h c hc

/-- A simple name is found only where there is an upper-case letter. -/
theorem isUpper_of_mem_importedReferences {meaning? : List Char → Option QualifiedName}
    {cs : List Char} {x : Nat × QualifiedName} (hx : x ∈ importedReferences meaning? cs) :
    ∃ c, cs[x.1]? = some c ∧ c.isUpper = true := by
  obtain ⟨⟨i, s, whole⟩, hs, hw⟩ := List.mem_filterMap.mp hx
  have hi : x.1 = i := by
    dsimp only at hw
    split at hw
    · obtain ⟨m, -, rfl⟩ := Option.map_eq_some_iff.mp hw
      rfl
    · cases hw
  obtain ⟨-, -, n, hn⟩ := (mem_scan_iff recogniseSimple?_inward).mp hs
  obtain ⟨t, ht, -⟩ := Option.map_eq_some_iff.mp hn
  obtain ⟨rfl, hsimple⟩ := simpleNameAtStart?_eq_some ht
  rw [hi, ← List.head?_drop]
  cases hd : cs.drop i with
  | nil => simp [hd, isSimpleName] at hsimple
  | cons c rest =>
    refine ⟨c, rfl, ?_⟩
    rw [hd, List.takeWhile_cons] at hsimple
    split at hsimple
    · simp only [isSimpleName, Bool.and_eq_true] at hsimple
      exact hsimple.1
    · simp [isSimpleName] at hsimple

/-- The name that a line imports is a reference of the line, and no imported simple name is found in
front of it. -/
theorem imported_le_references {line : List Char} {n : QualifiedName}
    (h : declaredImport? line = some n) :
    ∃ i, (i, n) ∈ qualifiedReferences line ∧
      ∀ meaning?, ∀ x ∈ importedReferences meaning? line, i ≤ x.1 := by
  obtain ⟨u, v, rest, rfl, hu, hv, hvb, hn, -⟩ := declaredImport?_eq_some h
  refine ⟨(u ++ importKeyword ++ v).length, ?_, fun meaning? x hx => ?_⟩
  · refine (mem_scan_iff recogniseQualified?_inward).mpr ⟨by simp, ?_, n.chars.length, ?_⟩
    · rw [isStart_length (by simp [hv]), List.getLast_append_of_ne_nil _ hv]
      exact isBoundary_of_isBlank (hvb _ (List.getLast_mem hv))
    · simp [recogniseQualified?, hn]
  · apply Nat.le_of_not_lt
    intro hlt
    obtain ⟨c, hc, hup⟩ := isUpper_of_mem_importedReferences hx
    rw [List.getElem?_append_left hlt] at hc
    have hmem := List.mem_of_getElem? hc
    have hlow : c.isUpper = false := by
      rcases List.mem_append.mp hmem with hmem | hmem
      · rcases List.mem_append.mp hmem with hmem | hmem
        · exact isUpper_of_isBlank (hu c hmem)
        · exact isUpper_of_mem_importKeyword hmem
      · exact isUpper_of_isBlank (hvb c hmem)
    rw [hlow] at hup
    cases hup

end ReferenceGraph
