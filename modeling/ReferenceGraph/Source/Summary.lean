import ReferenceGraph.Error
import ReferenceGraph.Path.Name
import ReferenceGraph.Source.Reference
import ReferenceGraph.Text.Lines

/-!
# Source files

A source file is read line by line. Each line is first observed for an import and then searched for
references, so an import already counts on its own line, and never on an earlier one.
-/

namespace ReferenceGraph

/-- The references of the lines, when the lines before them have left this table. -/
def referencesFrom : ImportTable → List (List Char) → List QualifiedName
  | _, [] => []
  | table, line :: rest =>
    references (table.observe line) line ++ referencesFrom (table.observe line) rest

/-- What a source file says. -/
structure Summary where
  /-- The dotted name of the file, after its path. -/
  name : String
  /-- The number of its lines. -/
  lines : Nat
  /-- The number of simple names that its imports have given a meaning. -/
  imports : Nat
  /-- The names that it refers to, in the order of the text and with repetitions. -/
  references : List QualifiedName

/-- Reads a source file. Its path below the root of the tree gives it its name. -/
def summarize (relative : Path) (source : Bytes) : Except FileError Summary :=
  match relative.dottedName? with
  | none => .error (.unnamed relative)
  | some name =>
    let lines := sourceLines source
    .ok {
      name
      lines := lines.length
      imports := (lines.foldl ImportTable.observe ∅).size
      references := referencesFrom ∅ lines }

end ReferenceGraph
