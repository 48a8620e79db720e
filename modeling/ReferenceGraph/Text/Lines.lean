import ReferenceGraph.Text.Utf8

/-!
# Lines

A line ends at a line feed, and a carriage return directly before the line feed belongs to the end
of the line. The rule is stated over any alphabet (`Lines.split`), so that it can be applied to
bytes and to characters; a file is split as bytes, and each line is decoded by itself.
-/

namespace ReferenceGraph

namespace Lines

/-- The list without its last element if that is `a`. -/
def dropFinal {α : Type} [DecidableEq α] (a : α) (l : List α) : List α :=
  if l.getLast? = some a then l.dropLast else l

/-- The lines of `l`, where `feed` ends a line and `ret` before it is dropped. The empty list has no
lines, and a final `feed` opens no further one. -/
def split {α : Type} [DecidableEq α] (feed ret : α) (l : List α) : List (List α) :=
  if l = [] then [] else ((dropFinal feed l).splitOn feed).map (dropFinal ret)

variable {α : Type} [DecidableEq α] {feed ret : α}

@[simp] theorem split_nil : split feed ret ([] : List α) = [] := rfl

@[simp] theorem dropFinal_append_self (a : α) (l : List α) : dropFinal a (l ++ [a]) = l := by
  simp [dropFinal]

theorem dropFinal_of_getLast?_ne {a : α} {l : List α} (h : l.getLast? ≠ some a) :
    dropFinal a l = l := by
  simp [dropFinal, h]

end Lines

/-- The lines of a file, each decoded by itself. -/
def sourceLines (source : Bytes) : List (List Char) :=
  (Lines.split 0x0A 0x0D source).map Utf8.decode

end ReferenceGraph
