import Mathlib.Data.List.Induction
import ReferenceGraph.Proofs.Source.Boundary

/-!
# What a scan finds, by position

A scan takes each match with the character in front of it and goes on behind it. Nothing is lost
that way: no character of a match is a boundary, so no other match can begin inside.

* `scan_eq_filterMap`: a scan finds what is recognised at each offset where a name may begin, taken
  in the order of the offsets.
* `mem_scan_iff`, `pairwise_scan`: the same as membership and as order.
* `recogniseQualified?_inward`, `recogniseSimple?_inward`: both recognisers are as the scan needs
  them.
-/

namespace ReferenceGraph

variable {α : Type} {recognise? : List Char → Option (α × Nat)}

/-- Whether a name may begin at the offset: at the start of the line, or behind a boundary. -/
def isStart (cs : List Char) : Nat → Bool
  | 0 => true
  | i + 1 => cs[i]?.any isBoundary

theorem isStart_length {xs : List Char} (h : xs ≠ []) (ys : List Char) :
    isStart (xs ++ ys) xs.length = isBoundary (xs.getLast h) := by
  obtain ⟨ws, c, rfl⟩ : ∃ ws c, xs = ws ++ [c] :=
    ⟨_, _, (List.dropLast_concat_getLast h).symm⟩
  rw [List.length_append, List.length_singleton, isStart]
  simp

/-- What is recognised at an offset of the line, if a name may begin there. -/
def matchAt? (recognise? : List Char → Option (α × Nat)) (line : List Char) (i : Nat) :
    Option (Nat × α) :=
  if isStart line i then (recognise? (line.drop i)).map fun x => (i, x.1) else none

/-- What is recognised has no boundary among its characters. -/
def Inward (recognise? : List Char → Option (α × Nat)) : Prop :=
  ∀ t a n, recognise? t = some (a, n) → ∀ c ∈ t.take n, isBoundary c = false

private theorem filterMap_cons_toList {β γ : Type} (f : β → Option γ) (b : β) (l : List β) :
    (b :: l).filterMap f = (f b).toList ++ l.filterMap f := by
  cases h : f b <;> simp [h]

/-- Characters to skip may be searched as well, if none of them is a boundary. -/
theorem scanFrom_skip {skip : Nat} {cs : List Char}
    (h : ∀ c ∈ cs.take skip, isBoundary c = false) (offset : Nat) :
    scanFrom recognise? offset skip cs = scanFrom recognise? offset 0 cs := by
  induction cs generalizing skip offset with
  | nil => simp [scanFrom]
  | cons c cs ih =>
    cases skip with
    | zero => rfl
    | succ skip =>
      simp only [List.take_succ_cons, List.mem_cons, forall_eq_or_imp] at h
      simp [scanFrom, h.1, ih h.2]

theorem scanFrom_cons (hr : Inward recognise?) (offset : Nat) (c : Char) (cs : List Char) :
    scanFrom recognise? offset 0 (c :: cs) =
      (if isBoundary c then (recognise? cs).map fun x => (offset + 1, x.1) else none).toList ++
        scanFrom recognise? (offset + 1) 0 cs := by
  rw [scanFrom]
  split
  · next a n h =>
    split at h
    · next hc =>
      rw [scanFrom_skip (hr cs a n h), if_pos hc, h]
      rfl
    · cases h
  · next h =>
    split at h
    · next hc =>
      rw [if_pos hc, h]
      rfl
    · next hc =>
      rw [if_neg hc]
      rfl

/-- A scan by position, from the character behind the start on. -/
theorem scanFrom_eq_filterMap (hr : Inward recognise?) (offset : Nat) (cs : List Char) :
    scanFrom recognise? offset 0 cs =
      (List.range cs.length).filterMap fun i =>
        if cs[i]?.any isBoundary then
          (recognise? (cs.drop (i + 1))).map fun x => (offset + (i + 1), x.1)
        else none := by
  induction cs generalizing offset with
  | nil => rfl
  | cons c cs ih =>
    rw [scanFrom_cons hr, ih, List.length_cons, List.range_succ_eq_map, filterMap_cons_toList,
      List.filterMap_map]
    congr 2
    funext i
    simp only [Function.comp_apply, List.getElem?_cons_succ, List.drop_succ_cons]
    rw [show offset + 1 + (i + 1) = offset + (i.succ + 1) by omega]

/-- A scan finds what is recognised at each offset where a name may begin. -/
theorem scan_eq_filterMap (hr : Inward recognise?) (line : List Char) :
    scan recognise? line = (List.range (line.length + 1)).filterMap (matchAt? recognise? line) := by
  rw [List.range_succ_eq_map, filterMap_cons_toList, List.filterMap_map]
  have htail : scanFrom recognise? 0 0 line =
      (List.range line.length).filterMap (matchAt? recognise? line ∘ Nat.succ) := by
    rw [scanFrom_eq_filterMap hr]
    congr 1
    funext i
    rw [Nat.zero_add]
    rfl
  rw [← htail, scan]
  split
  · next a n h =>
    rw [scanFrom_skip (hr line a n h)]
    simp [matchAt?, isStart, h]
  · next h => simp [matchAt?, isStart, h]

theorem mem_scan_iff (hr : Inward recognise?) {line : List Char} {i : Nat} {a : α} :
    (i, a) ∈ scan recognise? line ↔
      i ≤ line.length ∧ isStart line i = true ∧ ∃ n, recognise? (line.drop i) = some (a, n) := by
  simp only [scan_eq_filterMap hr, List.mem_filterMap, List.mem_range, Nat.lt_succ_iff, matchAt?]
  constructor
  · rintro ⟨j, hj, h⟩
    split at h
    · next hs =>
      simp only [Option.map_eq_some_iff, Prod.mk.injEq] at h
      obtain ⟨⟨b, n⟩, h, rfl, rfl⟩ := h
      exact ⟨hj, hs, n, h⟩
    · cases h
  · rintro ⟨hi, hs, n, h⟩
    exact ⟨i, hi, by simp [hs, h]⟩

/-- The matches stand in the order of their offsets, and no two share one. -/
theorem pairwise_scan (hr : Inward recognise?) (line : List Char) :
    (scan recognise? line).Pairwise fun x y => x.1 < y.1 := by
  rw [scan_eq_filterMap hr]
  apply List.Pairwise.filterMap (R := (· < ·)) _ _ List.pairwise_lt_range
  have hfst : ∀ i x, matchAt? recognise? line i = some x → x.1 = i := by
    intro i x hx
    simp only [matchAt?] at hx
    split at hx
    · obtain ⟨y, -, rfl⟩ := Option.map_eq_some_iff.mp hx
      rfl
    · cases hx
  intro i j hij x hx y hy
  rwa [hfst i x hx, hfst j y hy]

/-! ## The recognisers -/

theorem recogniseQualified?_inward : Inward recogniseQualified? := by
  intro t n k h
  obtain ⟨m, hm, he⟩ := Option.map_eq_some_iff.mp h
  obtain ⟨rfl, rfl⟩ := Prod.mk.inj he
  obtain ⟨rest, rfl⟩ := QualifiedName.atStart?_eq_some hm
  intro c hc
  rw [List.take_left] at hc
  exact QualifiedName.isBoundary_of_mem_chars hc

theorem simpleNameAtStart?_eq_some {t s : List Char} (h : simpleNameAtStart? t = some s) :
    s = t.takeWhile Char.isAlphanum ∧ isSimpleName s = true := by
  simp only [simpleNameAtStart?] at h
  split at h
  · next hs =>
    obtain rfl := Option.some.inj h
    exact ⟨rfl, hs⟩
  · cases h

theorem recogniseSimple?_inward : Inward recogniseSimple? := by
  intro t a k h
  obtain ⟨s, hs, he⟩ := Option.map_eq_some_iff.mp h
  obtain ⟨-, rfl⟩ := Prod.mk.inj he
  obtain ⟨rfl, hsimple⟩ := simpleNameAtStart?_eq_some hs
  intro c hc
  rw [List.prefix_iff_eq_take.mp (List.takeWhile_prefix _)] at hsimple
  exact isBoundary_of_isAlphanum (isAlphanum_of_isSimpleName hsimple c hc)

end ReferenceGraph
