import ReferenceGraph.Proofs.Source.Redundancy

/-!
# Separators

A boundary in the middle of a line divides it. A name may begin behind it as it may at the start of
a line, and no name that begins in front of it goes on behind it. So what a scan finds in the line
is what it finds on the two sides, with the offsets of the right side moved.

* `StopsAt`: a recogniser does not look at a character or beyond it. `recogniseQualified?_stopsAt`
  says it of qualified names and every boundary.
* `scan_append_cons`: the scan of a line that a separator divides. `scan_append_cons_self` is for a
  recogniser that looks at the separator and not beyond it.
* `references_append_cons`: the references of such a line, when nothing has been imported.
-/

namespace ReferenceGraph

open Unicode

variable {α : Type} {recognise? read? : List Char → Option (α × Nat)}

/-- What is recognised in front of the character does not depend on what is behind it. -/
def StopsAt (recognise? : List Char → Option (α × Nat)) (c : Char) : Prop :=
  ∀ t rest, recognise? (t ++ c :: rest) = recognise? t

/-! ## Offsets on both sides -/

theorem matchAt?_left {c : Char} (hread : ∀ t rest, recognise? (t ++ c :: rest) = read? t)
    {x : List Char} (y : List Char) {i : Nat} (hi : i ≤ x.length) :
    matchAt? recognise? (x ++ c :: y) i = matchAt? read? x i := by
  have hstart : isStart (x ++ c :: y) i = isStart x i := by
    cases i with
    | zero => rfl
    | succ j => rw [isStart, isStart, List.getElem?_append_left hi]
  unfold matchAt?
  rw [hstart, List.drop_append_of_le_length hi, hread]

theorem matchAt?_right {c : Char} (hc : isBoundary c = true) (x y : List Char) (j : Nat) :
    matchAt? recognise? (x ++ c :: y) (x.length + 1 + j) =
      (matchAt? recognise? y j).map fun m => (x.length + 1 + m.1, m.2) := by
  have hstart : isStart (x ++ c :: y) (x.length + 1 + j) = isStart y j := by
    cases j with
    | zero => simp [isStart, hc]
    | succ j =>
      rw [show x.length + 1 + (j + 1) = x.length + (j + 1) + 1 by omega, isStart, isStart,
        List.getElem?_append_right (by omega)]
      simp
  have hdrop : (x ++ c :: y).drop (x.length + 1 + j) = y.drop j := by
    rw [Nat.add_assoc, List.drop_length_add_append, Nat.add_comm 1 j, List.drop_succ_cons]
  unfold matchAt?
  rw [hstart, hdrop]
  by_cases hy : isStart y j = true
  · rw [if_pos hy, if_pos hy, Option.map_map]
    rfl
  · rw [if_neg hy, if_neg hy, Option.map_none]

/-- What a scan finds in a line that a separator divides is what it finds on the two sides, if
`read?` gives what is recognised in front of the separator. -/
theorem scan_append_cons_of_read (hr : Inward recognise?) (hr' : Inward read?) {c : Char}
    (hc : isBoundary c = true) (hread : ∀ t rest, recognise? (t ++ c :: rest) = read? t)
    (x y : List Char) :
    scan recognise? (x ++ c :: y) =
      scan read? x ++ (scan recognise? y).map fun m => (x.length + 1 + m.1, m.2) := by
  have hlength : (x ++ c :: y).length + 1 = (x.length + 1) + (y.length + 1) := by
    rw [List.length_append, List.length_cons]
    omega
  rw [scan_eq_filterMap hr, scan_eq_filterMap hr', scan_eq_filterMap hr, hlength, List.range_add,
    List.filterMap_append, List.filterMap_map, List.map_filterMap]
  congr 1
  · apply List.filterMap_congr
    intro i hi
    exact matchAt?_left hread y (Nat.lt_succ_iff.mp (List.mem_range.mp hi))
  · apply List.filterMap_congr
    intro j _
    exact matchAt?_right hc x y j

/-- If the separator stops the recogniser, the left side is scanned as a line of its own. -/
theorem scan_append_cons (hr : Inward recognise?) {c : Char} (hc : isBoundary c = true)
    (hstop : StopsAt recognise? c) (x y : List Char) :
    scan recognise? (x ++ c :: y) =
      scan recognise? x ++ (scan recognise? y).map fun m => (x.length + 1 + m.1, m.2) :=
  scan_append_cons_of_read hr hr hc hstop x y

/-- If the recogniser looks at the separator, but not beyond it, the left side is scanned with the
separator at its end. -/
theorem scan_append_cons_self (hr : Inward recognise?) (hnil : recognise? [] = none) {c : Char}
    (hc : isBoundary c = true)
    (hself : ∀ t rest, recognise? (t ++ c :: rest) = recognise? (t ++ [c])) (x y : List Char) :
    scan recognise? (x ++ c :: y) =
      scan recognise? (x ++ [c]) ++
        (scan recognise? y).map fun m => (x.length + 1 + m.1, m.2) := by
  have hr' : Inward fun t => recognise? (t ++ [c]) := by
    intro t a n h d hd
    apply hr _ a n h d
    rw [List.take_append]
    exact List.mem_append_left _ hd
  have hempty : scan recognise? [] = [] := by simp [scan, hnil, scanFrom]
  rw [scan_append_cons_of_read hr hr' hc hself x y, scan_append_cons_of_read hr hr' hc hself x [],
    hempty, List.map_nil, List.append_nil]

/-! ## Qualified names -/

theorem QualifiedName.atStart?_append_cons {c : Char} (hc : isBoundary c = true)
    (t rest : List Char) : atStart? (t ++ c :: rest) = atStart? t := by
  have hrun : (t ++ c :: rest).takeWhile (fun c => isSegmentChar c || c == '.') =
      t.takeWhile fun c => isSegmentChar c || c == '.' := by
    apply takeWhile_append_cons_of_neg
    exact not_package_of_isBoundary hc
  have hlength : (t.takeWhile fun c => isSegmentChar c || c == '.').length ≤ t.length :=
    (List.takeWhile_prefix _).length_le
  simp only [atStart?, hrun]
  rw [List.drop_append_of_le_length hlength,
    takeWhile_append_cons_of_neg (not_isAlphanum_of_isBoundary hc)]

theorem recogniseQualified?_stopsAt {c : Char} (hc : isBoundary c = true) :
    StopsAt recogniseQualified? c := by
  intro t rest
  rw [recogniseQualified?, recogniseQualified?, QualifiedName.atStart?_append_cons hc]

/-- When nothing has been imported, a line that a separator divides refers to what its two sides
refer to. -/
theorem references_append_cons {c : Char} (hc : isBoundary c = true) (x y : List Char) :
    references ∅ (x ++ c :: y) = references ∅ x ++ references ∅ y := by
  simp only [references_empty, qualifiedReferences,
    scan_append_cons recogniseQualified?_inward hc (recogniseQualified?_stopsAt hc),
    List.map_append, List.map_map, List.filter_append]
  rfl

end ReferenceGraph
