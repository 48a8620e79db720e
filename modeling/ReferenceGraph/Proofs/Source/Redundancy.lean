import ReferenceGraph.Proofs.Lists.Distinct
import ReferenceGraph.Proofs.Source.Import
import ReferenceGraph.Source.Summary

/-!
# Imports add only repetitions

A simple name stands for a name that an earlier line, or the same one, has imported. That import is
itself a reference to the name, and it comes first. So what the simple names of a file refer to has
been referred to before, and the distinct references of a file are those of its qualified names.

The invariant is on the import table: every name in it is one of those that the qualified names of
the lines so far have referred to, reserved ones included (`repeats_allReferences` for one line,
`repeats_referencesFrom` for all).
-/

namespace ReferenceGraph

/-- The references of the lines when no import counts: each line is read with an empty table. -/
def directReferences (lines : List (List Char)) : List QualifiedName :=
  lines.flatMap (references ∅)

theorem references_empty (line : List Char) :
    references ∅ line = ((qualifiedReferences line).map (·.2)).filter fun n => !n.isReserved := by
  have h : (∅ : ImportTable).isEmpty = true := Std.HashMap.isEmpty_empty
  rw [references, allReferences, if_pos h]

theorem exists_meaning_of_mem {meaning? : List Char → Option QualifiedName} {line : List Char}
    {x : Nat × QualifiedName} (hx : x ∈ importedReferences meaning? line) :
    ∃ s, meaning? s = some x.2 := by
  obtain ⟨⟨i, s, whole⟩, -, hw⟩ := List.mem_filterMap.mp hx
  dsimp only at hw
  split at hw
  · obtain ⟨m, hm, rfl⟩ := Option.map_eq_some_iff.mp hw
    exact ⟨s, hm⟩
  · cases hw

/-- What a table holds after a line is what it held before, or the name that the line imports. -/
theorem imported?_observe_cases {table : ImportTable} {line s : List Char} {n : QualifiedName}
    (h : (table.observe line).imported? s = some n) :
    declaredImport? line = some n ∨ table.imported? s = some n := by
  rw [ImportTable.imported?_observe] at h
  split at h
  · next m hm =>
    split at h
    · exact .inl (hm.trans h)
    · exact .inr h
  · exact .inr h

/-- If the names in the table have been seen, the simple names of a line put in repetitions only. -/
theorem repeats_allReferences {table : ImportTable} {seen : List QualifiedName}
    (h : ∀ s n, table.imported? s = some n → n ∈ seen) (line : List Char) :
    Repeats seen ((qualifiedReferences line).map (·.2))
      ((allReferences (table.observe line) line).map (·.2)) := by
  unfold allReferences
  split
  · exact .refl _ _
  · refine .merge ((pairwise_scan recogniseQualified?_inward line).imp Nat.le_of_lt) fun y hy => ?_
    obtain ⟨s, hs⟩ := exists_meaning_of_mem hy
    rcases imported?_observe_cases hs with hn | hn
    · obtain ⟨i, hi, hle⟩ := imported_le_references hn
      exact .inr ⟨(i, y.2), hi, hle _ y hy, rfl⟩
    · exact .inl (h s y.2 hn)

theorem repeats_referencesFrom {table : ImportTable} {seen : List QualifiedName}
    (h : ∀ s n, table.imported? s = some n → n ∈ seen) (lines : List (List Char)) :
    Repeats (seen.filter fun n => !n.isReserved) (directReferences lines)
      (referencesFrom table lines) := by
  induction lines generalizing table seen with
  | nil => exact .nil _
  | cons line rest ih =>
    have hline := (repeats_allReferences h line).filter fun n => !n.isReserved
    rw [← references_empty] at hline
    have hnext : ∀ s n, (table.observe line).imported? s = some n →
        n ∈ seen ++ (qualifiedReferences line).map (·.2) := by
      intro s n hn
      rcases imported?_observe_cases hn with hd | ht
      · obtain ⟨i, hi, -⟩ := imported_le_references hd
        exact List.mem_append_right _ (List.mem_map.mpr ⟨(i, n), hi, rfl⟩)
      · exact List.mem_append_left _ (h s n ht)
    have hrest := ih hnext
    rw [List.filter_append, ← references_empty] at hrest
    exact hline.append hrest

/-- The distinct references of a file are those of its qualified names. -/
theorem eraseDups_referencesFrom (lines : List (List Char)) :
    (referencesFrom ∅ lines).eraseDups = (directReferences lines).eraseDups := by
  have hempty : ∀ s n, (∅ : ImportTable).imported? s = some n → n ∈ ([] : List QualifiedName) := by
    simp
  exact (repeats_referencesFrom hempty lines).eraseDups_eq

/-- The imports of a file add nothing to the names that its lines refer to by themselves. -/
theorem mem_referencesFrom_iff {lines : List (List Char)} {n : QualifiedName} :
    n ∈ referencesFrom ∅ lines ↔ n ∈ directReferences lines := by
  rw [← List.mem_eraseDups, eraseDups_referencesFrom, List.mem_eraseDups]

end ReferenceGraph
