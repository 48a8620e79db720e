import ReferenceGraph.Path.Basic

/-!
# The name of a source file

A source file is named after its path below the root of the tree: `a/b/C.java` is `a.b.C`. Pieces
that point upwards name nothing and are left out. The name is any text; nothing requires it to have
the form of a qualified name.
-/

namespace ReferenceGraph

namespace Path

/-- The dotted name of the source file at the path, or `none` if the path is not that of a source
file. -/
def dottedName? (p : Path) : Option String :=
  match p.fileName? with
  | none => none
  | some name =>
    if name.isSource then
      let segments := p.pieces.dropLast.filter (· ≠ FileName.above) ++ [name.stem]
      some (".".intercalate (segments.map Utf8.decodeString))
    else none

/-- A path has a dotted name exactly if it is that of a source file. -/
theorem isSome_dottedName? (p : Path) : p.dottedName?.isSome = p.isSource := by
  simp only [dottedName?, isSource]
  cases p.fileName? with
  | none => rfl
  | some name => cases h : name.isSource <;> simp [h]

end Path

end ReferenceGraph
