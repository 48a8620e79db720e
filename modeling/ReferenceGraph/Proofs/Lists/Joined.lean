/-!
# Joined lists

`List.intercalate` on the last list joined, the elements of the result, and what a function makes of
it that goes through the separator; the pieces that `List.splitOn` cuts a list into; and the run
that `List.takeWhile` takes from the start of a list that something is appended to.
-/

namespace ReferenceGraph

variable {α : Type}

theorem intercalate_concat (sep : List α) {xs : List (List α)} (h : xs ≠ []) (y : List α) :
    sep.intercalate (xs ++ [y]) = sep.intercalate xs ++ sep ++ y := by
  induction xs with
  | nil => exact absurd rfl h
  | cons x xs ih =>
    by_cases hxs : xs = []
    · simp [hxs]
    · rw [List.cons_append, List.intercalate_cons_of_ne_nil (by simp), ih hxs,
        List.intercalate_cons_of_ne_nil hxs]
      simp only [List.append_assoc]

/-- What stands behind the last list joined can be put into it. -/
theorem intercalate_concat_append (sep : List α) (xs : List (List α)) (y z : List α) :
    sep.intercalate (xs ++ [y]) ++ z = sep.intercalate (xs ++ [y ++ z]) := by
  by_cases hxs : xs = []
  · simp [hxs]
  · rw [intercalate_concat sep hxs, intercalate_concat sep hxs, List.append_assoc]

/-- A function that takes the separator apart from what stands on both sides of it can be applied to
each of the lists joined. -/
theorem apply_intercalate {β : Type} {g : List α → List β} {a : α} {sep : List β} (hnil : g [] = [])
    (hsep : ∀ xs ys, g (xs ++ a :: ys) = g xs ++ sep ++ g ys) (lists : List (List α)) :
    g ([a].intercalate lists) = sep.intercalate (lists.map g) := by
  induction lists with
  | nil => simpa using hnil
  | cons l lists ih =>
    by_cases hmore : lists = []
    · simp [hmore]
    · rw [List.intercalate_cons_of_ne_nil hmore, List.append_assoc, List.singleton_append, hsep,
        ih, List.map_cons, List.intercalate_cons_of_ne_nil (by simpa using hmore)]

theorem prefix_intercalate_cons (sep x : List α) (xs : List (List α)) :
    x <+: sep.intercalate (x :: xs) := by
  by_cases hxs : xs = []
  · simp [hxs]
  · rw [List.intercalate_cons_of_ne_nil hxs, List.append_assoc]
    exact List.prefix_append _ _

theorem mem_of_mem_intercalate {sep : List α} {xs : List (List α)} {a : α}
    (h : a ∈ sep.intercalate xs) : a ∈ sep ∨ ∃ x ∈ xs, a ∈ x := by
  induction xs with
  | nil => simp at h
  | cons x xs ih =>
    by_cases hxs : xs = []
    · subst hxs
      exact .inr ⟨x, by simp, by simpa using h⟩
    · rw [List.intercalate_cons_of_ne_nil hxs] at h
      rcases List.mem_append.mp h with h | h
      · rcases List.mem_append.mp h with h | h
        · exact .inr ⟨x, by simp, h⟩
        · exact .inl h
      · rcases ih h with h | ⟨y, hy, h⟩
        · exact .inl h
        · exact .inr ⟨y, by simp [hy], h⟩

theorem mem_intercalate_of_mem {sep x : List α} {xs : List (List α)} {a : α} (hx : x ∈ xs)
    (ha : a ∈ x) : a ∈ sep.intercalate xs := by
  induction xs with
  | nil => cases hx
  | cons y xs ih =>
    rcases List.mem_cons.mp hx with rfl | hx
    · exact (prefix_intercalate_cons sep x xs).subset ha
    · rw [List.intercalate_cons_of_ne_nil (List.ne_nil_of_mem hx)]
      exact List.mem_append_right _ (ih hx)

/-- The pieces of a list do not hold what it is cut at. -/
theorem not_mem_of_mem_splitOn [BEq α] [LawfulBEq α] {a : α} {xs piece : List α}
    (h : piece ∈ xs.splitOn a) : a ∉ piece := by
  induction xs generalizing piece with
  | nil => simp_all
  | cons x xs ih =>
    rw [List.splitOn_cons_eq_if_modifyHead] at h
    split at h
    · rcases List.mem_cons.mp h with rfl | h
      · exact List.not_mem_nil
      · exact ih h
    · next hx =>
      -- `x` belongs to the first piece of what follows it.
      obtain ⟨first, others, hs⟩ := List.exists_cons_of_ne_nil (List.splitOn_ne_nil a xs)
      rw [hs, List.modifyHead_cons] at h
      rcases List.mem_cons.mp h with rfl | h
      · have ha : a ≠ x := fun h => hx (beq_iff_eq.mpr h.symm)
        have hfirst : a ∉ first := ih (by simp [hs])
        simp [ha, hfirst]
      · exact ih (by simp [hs, h])

/-- What stands behind the last place where a list is cut is its last piece. -/
theorem splitOn_append_last [BEq α] [LawfulBEq α] {a : α} (xs : List α) {last : List α}
    (h : a ∉ last) : (xs ++ a :: last).splitOn a = xs.splitOn a ++ [last] := by
  rw [List.splitOn_append_cons_self, List.splitOn_eq_singleton h]

/-- What cannot belong to a run ends it. -/
theorem takeWhile_append_cons_of_neg {p : α → Bool} {a : α} (h : p a = false) (xs rest : List α) :
    (xs ++ a :: rest).takeWhile p = xs.takeWhile p := by
  induction xs with
  | nil => simp [h]
  | cons x xs ih => simp [List.takeWhile_cons, ih]

/-- A run is taken whole and no further, if what follows it cannot continue it. -/
theorem takeWhile_append_of_stop {p : α → Bool} {xs rest : List α} (hxs : ∀ a ∈ xs, p a = true)
    (hrest : ∀ a, rest.head? = some a → p a = false) : (xs ++ rest).takeWhile p = xs := by
  rw [List.takeWhile_append_of_pos hxs]
  cases rest with
  | nil => simp
  | cons a rest => simp [hrest a rfl]

end ReferenceGraph
