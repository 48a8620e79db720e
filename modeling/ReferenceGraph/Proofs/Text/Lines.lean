import Mathlib.Data.List.Basic
import ReferenceGraph.Text.Lines

/-!
# The lines of a beginning

What stands behind the end of a line does not change the lines in front of it. A text that is cut
off at the end of a line, in front of the line feed or behind it, therefore has the first lines of
the whole text.

* `Lines.split_append_feed_append`: a line feed with something behind it splits the text.
* `sourceLines_prefix_feed`, `sourceLines_prefix_append`: the lines of a file that is cut off there.
* `Lines.flatMap_split`: what can be collected line by line can be collected from the whole text, if
  the ends of the lines separate and add nothing.
-/

namespace ReferenceGraph

namespace Lines

variable {α : Type} [DecidableEq α] {feed ret : α}

theorem dropFinal_append {l : List α} (a : α) (xs : List α) (h : l ≠ []) :
    dropFinal a (xs ++ l) = xs ++ dropFinal a l := by
  unfold dropFinal
  rw [List.getLast?_append_of_ne_nil _ h, List.dropLast_append_of_ne_nil h]
  split <;> rfl

/-- A line that is ended is a line, also if it is empty. -/
theorem split_append_feed (l : List α) :
    split feed ret (l ++ [feed]) = (l.splitOn feed).map (dropFinal ret) := by
  simp [split]

theorem split_append_feed_append {rest : List α} (l : List α) (h : rest ≠ []) :
    split feed ret (l ++ feed :: rest) = split feed ret (l ++ [feed]) ++ split feed ret rest := by
  rw [split_append_feed, split, if_neg (by simp), List.append_cons, dropFinal_append _ _ h,
    List.append_assoc, List.singleton_append, List.splitOn_append_cons_self, List.map_append, split,
    if_neg h]

theorem split_prefix_feed (l : List α) : split feed ret l <+: split feed ret (l ++ [feed]) := by
  rw [split_append_feed, split]
  split
  · exact List.nil_prefix
  · unfold dropFinal
    split
    · next h =>
      -- The last line is ended already, and the further line feed ends an empty one.
      obtain ⟨m, rfl⟩ := List.getLast?_eq_some_iff.mp h
      rw [List.dropLast_concat, List.splitOn_append_cons_self, List.map_append]
      exact List.prefix_append _ _
    · exact List.prefix_rfl

theorem split_prefix_append (l rest : List α) :
    split feed ret (l ++ [feed]) <+: split feed ret (l ++ feed :: rest) := by
  by_cases h : rest = []
  · subst h
    exact List.prefix_rfl
  · rw [split_append_feed_append l h]
    exact List.prefix_append _ _

omit [DecidableEq α] in
theorem flatMap_intercalate {β : Type} {g : List α → List β} (hnil : g [] = [])
    (hfeed : ∀ xs ys, g (xs ++ feed :: ys) = g xs ++ g ys) (pieces : List (List α)) :
    g ([feed].intercalate pieces) = pieces.flatMap g := by
  induction pieces with
  | nil => simpa using hnil
  | cons piece pieces ih =>
    by_cases hmore : pieces = []
    · simp [hmore]
    · rw [List.intercalate_cons_of_ne_nil hmore, List.append_assoc, List.singleton_append, hfeed,
        ih, List.flatMap_cons]

/-- What ends a line may be dropped from it, if it adds nothing. -/
theorem apply_dropFinal {β : Type} {g : List α → β} {a : α} (h : ∀ xs, g (xs ++ [a]) = g xs)
    (l : List α) : g (dropFinal a l) = g l := by
  unfold dropFinal
  split
  · next hlast =>
    obtain ⟨xs, rfl⟩ := List.getLast?_eq_some_iff.mp hlast
    rw [List.dropLast_concat, h]
  · rfl

/-- What is collected from the lines is collected from the whole text, if the ends of the lines
separate and add nothing. -/
theorem flatMap_split {β : Type} {g : List α → List β} (hnil : g [] = [])
    (hfeed : ∀ xs ys, g (xs ++ feed :: ys) = g xs ++ g ys)
    (hret : ∀ xs ys, g (xs ++ ret :: ys) = g xs ++ g ys) (l : List α) :
    (split feed ret l).flatMap g = g l := by
  have hend : ∀ a, (∀ xs ys, g (xs ++ a :: ys) = g xs ++ g ys) → ∀ xs, g (xs ++ [a]) = g xs := by
    intro a ha xs
    rw [ha, hnil, List.append_nil]
  unfold split
  split
  · next h => rw [h, hnil, List.flatMap_nil]
  · rw [List.flatMap_map]
    simp only [apply_dropFinal (hend ret hret)]
    rw [← flatMap_intercalate hnil hfeed, List.intercalate_splitOn,
      apply_dropFinal (hend feed hfeed)]

end Lines

theorem sourceLines_prefix_feed (source : Bytes) :
    sourceLines source <+: sourceLines (source ++ [0x0A]) :=
  (Lines.split_prefix_feed source).map Utf8.decode

theorem sourceLines_prefix_append (source rest : Bytes) :
    sourceLines (source ++ [0x0A]) <+: sourceLines (source ++ 0x0A :: rest) :=
  (Lines.split_prefix_append source rest).map Utf8.decode

end ReferenceGraph
