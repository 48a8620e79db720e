import ReferenceGraph.Proofs.Source.NameEnd
import ReferenceGraph.Proofs.Source.Separator

/-!
# Lines that a separator divides

Neither scan goes across a boundary, and the merge by offset keeps what is found in front of it in
front. So the references of a line that a boundary divides are those of its two sides, and only the
simple name directly in front of the boundary may depend on it: if the boundary continues a name,
that simple name is not referred to. Raised digits and other numbers that are no word characters
continue a name, and so do the characters of the later edition, which are boundaries because the
earlier edition does not know them.

* `allReferences_append`: what is found on two sides of an offset.
* `references_append_cons_self`: every boundary divides a line, and stays with its left side.
* `references_append_cons_of_not_continuesName`: a boundary that does not continue a name divides a
  line into two lines of their own.
* `references_divided_by_separator`: which boundaries that are no numbers do so.
-/

namespace ReferenceGraph

open Unicode

variable {c : Char} {table : ImportTable} {line x y : List Char}

/-! ## Simple names in front of a separator -/

theorem recogniseSimple?_nil : recogniseSimple? [] = none := by decide

theorem recogniseQualified?_nil : recogniseQualified? [] = none := by decide

theorem simpleNameAtStart?_append_cons (hc : isBoundary c = true) (t rest : List Char) :
    simpleNameAtStart? (t ++ c :: rest) = simpleNameAtStart? t := by
  rw [simpleNameAtStart?, simpleNameAtStart?,
    takeWhile_append_cons_of_neg (not_isAlphanum_of_isBoundary hc)]

/-- A simple name at the end of the left side has the separator behind it, and any other one has a
character of the left side. -/
theorem recogniseSimple?_append_cons (hc : isBoundary c = true) (t rest : List Char) :
    recogniseSimple? (t ++ c :: rest) = (simpleNameAtStart? t).map fun s =>
      ((s, !continuesName ((t.drop s.length).head?.getD c)), s.length) := by
  rw [recogniseSimple?, simpleNameAtStart?_append_cons hc]
  refine Option.map_congr fun s hs => ?_
  obtain ⟨rfl, -⟩ := simpleNameAtStart?_eq_some hs
  rw [List.drop_append_of_le_length (List.takeWhile_prefix _).length_le]
  cases t.drop (t.takeWhile Char.isAlphanum).length <;> rfl

theorem recogniseSimple?_self (hc : isBoundary c = true) (t rest : List Char) :
    recogniseSimple? (t ++ c :: rest) = recogniseSimple? (t ++ [c]) := by
  rw [recogniseSimple?_append_cons hc, recogniseSimple?_append_cons hc]

theorem recogniseSimple?_stopsAt (hc : isBoundary c = true) (hname : continuesName c = false) :
    StopsAt recogniseSimple? c := by
  intro t rest
  rw [recogniseSimple?_append_cons hc, recogniseSimple?]
  refine Option.map_congr fun s _ => ?_
  cases t.drop s.length with
  | nil => simp [hname]
  | cons d ds => rfl

/-! ## What is found on both sides of an offset -/

theorem mem_allReferences {r : Nat × QualifiedName} :
    r ∈ allReferences table line ↔
      r ∈ qualifiedReferences line ∨ r ∈ importedReferences table.imported? line := by
  rw [allReferences_eq_merge, List.mem_merge]

theorem ascending_allReferences (table : ImportTable) (line : List Char) :
    Ascending (allReferences table line) := by
  rw [allReferences_eq_merge]
  exact (ascending_qualifiedReferences line).merge (ascending_importedReferences _ line)
    fun _ hx _ hy => offset_ne_offset hx hy

/-- A name begins in front of the end of the line. -/
theorem lt_length_of_mem_allReferences {r : Nat × QualifiedName}
    (hr : r ∈ allReferences table line) : r.1 < line.length := by
  have hstart {p : List Char} (hne : p ≠ []) (hp : p <+: line.drop r.1) : r.1 < line.length := by
    have hpos : 0 < p.length := List.length_pos_iff.mpr hne
    have hle := hp.length_le
    rw [List.length_drop] at hle
    omega
  rcases mem_allReferences.mp hr with hr | hr
  · obtain ⟨-, hlongest⟩ := mem_qualifiedReferences_iff.mp hr
    obtain ⟨d, ds, hd, -⟩ := hlongest.grammar.exists_cons
    exact hstart (hd ▸ List.cons_ne_nil d ds) hlongest.start
  · obtain ⟨s, -, hlongest, -⟩ := mem_importedReferences_iff.mp hr
    obtain ⟨d, ds, hd, -⟩ := hlongest.grammar
    exact hstart (hd ▸ List.cons_ne_nil d ds) hlongest.start

/-- If both scans of a line give what they give for two other lines, the second of these moved
behind the first, then so does the merge of the scans. -/
theorem allReferences_append {k : Nat} (hk : x.length ≤ k)
    (hqualified : qualifiedReferences line =
      qualifiedReferences x ++ (qualifiedReferences y).map fun m => (k + m.1, m.2))
    (himported : importedReferences table.imported? line =
      importedReferences table.imported? x ++
        (importedReferences table.imported? y).map fun m => (k + m.1, m.2)) :
    allReferences table line =
      allReferences table x ++ (allReferences table y).map fun m => (k + m.1, m.2) := by
  have hright : Ascending ((allReferences table y).map fun m => (k + m.1, m.2)) :=
    List.pairwise_map.mpr ((ascending_allReferences table y).imp fun h => Nat.add_lt_add_left h k)
  have hsides : Ascending
      (allReferences table x ++ (allReferences table y).map fun m => (k + m.1, m.2)) := by
    refine List.pairwise_append.mpr ⟨ascending_allReferences table x, hright, fun r hr r' hr' => ?_⟩
    obtain ⟨m, -, rfl⟩ := List.mem_map.mp hr'
    have := lt_length_of_mem_allReferences hr
    show r.1 < k + m.1
    omega
  refine (ascending_allReferences table line).eq_of_mem_iff hsides fun r => ?_
  simp only [mem_allReferences, hqualified, himported, List.mem_append, List.mem_map, or_and_right,
    exists_or]
  exact or_or_or_comm

theorem references_append {k : Nat} (hk : x.length ≤ k)
    (hqualified : qualifiedReferences line =
      qualifiedReferences x ++ (qualifiedReferences y).map fun m => (k + m.1, m.2))
    (himported : importedReferences table.imported? line =
      importedReferences table.imported? x ++
        (importedReferences table.imported? y).map fun m => (k + m.1, m.2)) :
    references table line = references table x ++ references table y := by
  rw [references, allReferences_append hk hqualified himported, List.map_append, List.map_map,
    List.filter_append]
  rfl

/-! ## Separators -/

/-- What simple names stand for is moved along with them. -/
theorem filterMap_map_offset (meaning? : List Char → Option QualifiedName) (k : Nat)
    (found : List (Nat × List Char × Bool)) :
    ((found.map fun m => (k + m.1, m.2)).filterMap fun (offset, name, whole) =>
        if whole then (meaning? name).map (offset, ·) else none) =
      (found.filterMap fun (offset, name, whole) =>
        if whole then (meaning? name).map (offset, ·) else none).map fun m => (k + m.1, m.2) := by
  rw [List.filterMap_map, List.map_filterMap]
  refine List.filterMap_congr fun m _ => ?_
  obtain ⟨offset, name, whole⟩ := m
  cases whole with
  | false => rfl
  | true => simp [Function.comp_def]

/-- No name goes across a boundary. What stands in front of it may depend on it, but not on what
follows it; and behind it a name may begin as at the start of a line. -/
theorem references_append_cons_self (table : ImportTable) (hc : isBoundary c = true)
    (x y : List Char) :
    references table (x ++ c :: y) = references table (x ++ [c]) ++ references table y := by
  have hself (t rest : List Char) :
      recogniseQualified? (t ++ c :: rest) = recogniseQualified? (t ++ [c]) := by
    rw [recogniseQualified?_stopsAt hc, recogniseQualified?_stopsAt hc]
  refine references_append (k := x.length + 1) (by simp) ?_ ?_
  · exact scan_append_cons_self recogniseQualified?_inward recogniseQualified?_nil hc hself x y
  · rw [importedReferences, scan_append_cons_self recogniseSimple?_inward recogniseSimple?_nil hc
      (recogniseSimple?_self hc), List.filterMap_append, filterMap_map_offset]
    rfl

/-- A boundary that does not continue a name divides a line into two lines. -/
theorem references_append_cons_of_not_continuesName (table : ImportTable)
    (hc : isBoundary c = true) (hname : continuesName c = false) (x y : List Char) :
    references table (x ++ c :: y) = references table x ++ references table y := by
  refine references_append (k := x.length + 1) (by omega) ?_ ?_
  · exact scan_append_cons recogniseQualified?_inward hc (recogniseQualified?_stopsAt hc) x y
  · rw [importedReferences, scan_append_cons recogniseSimple?_inward hc
      (recogniseSimple?_stopsAt hc hname), List.filterMap_append, filterMap_map_offset]
    rfl

/-- With a boundary behind it that continues it, `Clock` is not referred to. -/
theorem references_clockTable_continued (hc : isBoundary c = true)
    (hname : continuesName c = true) :
    references clockTable ("Clock".toList ++ [c]) = [] := by
  have hqualified : qualifiedReferences ("Clock".toList ++ [c]) = [] := by
    rw [qualifiedReferences,
      scan_append_cons recogniseQualified?_inward hc (recogniseQualified?_stopsAt hc)]
    decide
  have hstart : recogniseSimple? ("Clock".toList ++ [c]) = some (("Clock".toList, false), 5) := by
    have hclock : simpleNameAtStart? "Clock".toList = some "Clock".toList := by decide
    have hdrop : "Clock".toList.drop "Clock".toList.length = [] := by decide
    rw [recogniseSimple?_append_cons hc, hclock, Option.map_some, hdrop, List.head?_nil,
      Option.getD_none, hname]
    rfl
  rw [references_clockTable hqualified, importedReferences, scan, hstart]
  simp [scanFrom, hc, recogniseSimple?_nil]

theorem references_clockTable_clock : references clockTable "Clock".toList = [clockName] := by
  rw [references_clockTable (by decide)]
  decide

/-- A character that is no word character, no dot and no number divides every line for every table,
in that the line refers to what the two sides refer to as lines of their own, unless it is a
character of the later edition. Even such a character lets no name go across it: it only takes part
in what stands in front of it. -/
theorem references_divided_by_separator {c : Char} (hword : isWord c = false) (hdot : c ≠ '.')
    (hnumber : isNumber c = false) :
    (∀ (table : ImportTable) (x y : List Char),
      references table (x ++ c :: y) = references table (x ++ [c]) ++ references table y) ∧
    ((∀ (table : ImportTable) (x y : List Char),
      references table (x ++ c :: y) = references table x ++ references table y) ↔
      isLater c = false) := by
  have hc : isBoundary c = true := isBoundary_iff.mpr ⟨hword, hdot⟩
  refine ⟨fun table x y => references_append_cons_self table hc x y, fun h => ?_, fun hlater => ?_⟩
  · rw [← Bool.not_eq_true]
    intro hlater
    have hname : continuesName c = true := by simp [continuesName, isAlphanumeric, hlater]
    have hclock := h clockTable "Clock".toList []
    rw [references_clockTable_continued hc hname, references_clockTable_clock] at hclock
    cases hclock
  · have hname : continuesName c = false := by
      rw [← Bool.not_eq_true]
      intro hname
      have hdetached := isDetached_iff.mpr ⟨hword, hname⟩
      simp [isDetached, hnumber, hlater] at hdetached
    exact fun table x y => references_append_cons_of_not_continuesName table hc hname x y

/-- A semicolon divides a line. -/
theorem references_divided_by_semicolon :
    isWord ';' = false ∧ ';' ≠ '.' ∧ isNumber ';' = false ∧ isLater ';' = false ∧
      references clockTable ("Clock".toList ++ ';' :: "Clock".toList) =
        [clockName, clockName] := by
  have hword : isWord ';' = false := by decide
  have hnumber : isNumber ';' = false := by decide
  have hlater : isLater ';' = false := by decide
  refine ⟨hword, by decide, hnumber, hlater, ?_⟩
  rw [(references_divided_by_separator hword (by decide) hnumber).2.mpr hlater,
    references_clockTable_clock]
  rfl

/-- An Arabic letter of the later edition is no word character, no dot and no number, but with it at
its end a line refers to nothing, although it refers to `Clock` without it. -/
theorem references_not_divided_by_later :
    isWord '\u088F' = false ∧ '\u088F' ≠ '.' ∧ isNumber '\u088F' = false ∧
      references clockTable ("Clock".toList ++ '\u088F' :: []) = [] ∧
      references clockTable "Clock".toList ++ references clockTable [] = [clockName] := by
  have hword : isWord '\u088F' = false := by decide
  have hdot : '\u088F' ≠ '.' := by decide
  refine ⟨hword, hdot, by decide, ?_, ?_⟩
  · exact references_clockTable_continued (isBoundary_iff.mpr ⟨hword, hdot⟩) (by decide)
  · rw [references_clockTable_clock, references_clockTable (by decide)]
    decide

end ReferenceGraph
