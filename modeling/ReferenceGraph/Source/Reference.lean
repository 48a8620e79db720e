import ReferenceGraph.Source.Import

/-!
# References

A reference is a name that stands by itself in a line: in front of it is the start of the line or a
character that is neither a word character nor a dot. A qualified name refers to itself, and a
simple name to what has been imported under it.

`scan` goes through a line from left to right. A match takes the character in front of the name
with it, and the search goes on behind the match, so matches never overlap. `references` scans a
line once for each kind of name and merges the two by offset.
-/

namespace ReferenceGraph

/-- Whether a name may begin after the character. -/
def isBoundary (c : Char) : Bool := !(Unicode.isWord c || c == '.')

/-- The matches in a text that begins at `offset` and whose start is no boundary, each with the
offset of its name. `recognise?` gives what a text begins with and how many characters that takes;
the first `skip` characters belong to an earlier match. -/
def scanFrom {α : Type} (recognise? : List Char → Option (α × Nat)) :
    (offset skip : Nat) → List Char → List (Nat × α)
  | _, _, [] => []
  | offset, skip + 1, _ :: cs => scanFrom recognise? (offset + 1) skip cs
  | offset, 0, c :: cs =>
    match if isBoundary c then recognise? cs else none with
    | some (a, n) => (offset + 1, a) :: scanFrom recognise? (offset + 1) n cs
    | none => scanFrom recognise? (offset + 1) 0 cs

/-- The matches in a line, each with the offset of its name. -/
def scan {α : Type} (recognise? : List Char → Option (α × Nat)) (line : List Char) :
    List (Nat × α) :=
  match recognise? line with
  | some (a, n) => (0, a) :: scanFrom recognise? 0 n line
  | none => scanFrom recognise? 0 0 line

/-- The qualified name that a text begins with. -/
def recogniseQualified? (t : List Char) : Option (QualifiedName × Nat) :=
  (QualifiedName.atStart? t).map fun n => (n, n.chars.length)

/-- The simple name that a text begins with, and whether it ends there: an alphanumeric character
or a low line behind it makes it part of something else. -/
def recogniseSimple? (t : List Char) : Option ((List Char × Bool) × Nat) :=
  (simpleNameAtStart? t).map fun s =>
    ((s, !(t.drop s.length).head?.any fun c => Unicode.isAlphanumeric c || c == '_'), s.length)

/-- The qualified names of the line, by offset. -/
def qualifiedReferences (line : List Char) : List (Nat × QualifiedName) :=
  scan recogniseQualified? line

/-- What the whole simple names of the line stand for, by offset, when `meaning?` tells what a
simple name stands for. -/
def importedReferences (meaning? : List Char → Option QualifiedName) (line : List Char) :
    List (Nat × QualifiedName) :=
  (scan recogniseSimple? line).filterMap fun (offset, name, whole) =>
    if whole then (meaning? name).map (offset, ·) else none

/-- The references of both kinds, by offset. Before the first import there are only qualified
ones. -/
def allReferences (table : ImportTable) (line : List Char) : List (Nat × QualifiedName) :=
  if table.isEmpty then qualifiedReferences line
  else (qualifiedReferences line).merge (importedReferences table.imported? line)
    fun x y => decide (x.1 ≤ y.1)

/-- The names that a line refers to, from left to right and with repetitions, without those of the
standard library. -/
def references (table : ImportTable) (line : List Char) : List QualifiedName :=
  ((allReferences table line).map (·.2)).filter fun n => !n.isReserved

end ReferenceGraph
