import Std.Data.HashMap
import ReferenceGraph.Name.Qualified
import ReferenceGraph.Unicode.Class

/-!
# Imports

A line that begins with the import of a single class, `import a.b.C;`, lets the lines from there on
refer to that class by its simple name. An `ImportTable` holds what the simple names stand for; of
two imports with the same simple name the later one counts.

* `imported?_observe`: after a line, the name that it imports is known and all else is as before.
-/

namespace ReferenceGraph

/-- The word that an import begins with. -/
def importKeyword : List Char := "import".toList

/-- The name imported by the declaration that the text begins with: blanks, the keyword, at least
one blank, the name, blanks, a semicolon. What follows the semicolon does not matter. -/
def declaredImport? (text : List Char) : Option QualifiedName :=
  match importKeyword.isPrefixOf? (text.dropWhile Unicode.isBlank) with
  | none => none
  | some rest =>
    if rest.head?.any Unicode.isBlank then
      match QualifiedName.atStart? (rest.dropWhile Unicode.isBlank) with
      | none => none
      | some name =>
        let tail := (rest.dropWhile Unicode.isBlank).drop name.chars.length
        if (tail.dropWhile Unicode.isBlank).head? = some ';' then some name else none
    else none

/-- A list of characters is hashed as the text that it makes. -/
instance hashableChars : Hashable (List Char) := ⟨fun cs => hash (String.ofList cs)⟩

/-- The imported names of one file, by their simple names. -/
structure ImportTable where
  entries : Std.HashMap (List Char) QualifiedName

namespace ImportTable

/-- The table before the first import. -/
def empty : ImportTable := ⟨∅⟩

instance : EmptyCollection ImportTable := ⟨empty⟩

/-- The imported name that the simple name stands for. -/
def imported? (t : ImportTable) (simple : List Char) : Option QualifiedName := t.entries[simple]?

/-- The number of simple names that stand for something. -/
def size (t : ImportTable) : Nat := t.entries.size

/-- Whether nothing has been imported. -/
def isEmpty (t : ImportTable) : Bool := t.entries.isEmpty

/-- The table after an import, which replaces an earlier one of the same simple name. -/
def insert (t : ImportTable) (n : QualifiedName) : ImportTable := ⟨t.entries.insert n.simple n⟩

/-- The table after a line. -/
def observe (t : ImportTable) (line : List Char) : ImportTable :=
  match declaredImport? line with
  | some n => t.insert n
  | none => t

@[simp] theorem imported?_empty (s : List Char) : (∅ : ImportTable).imported? s = none :=
  Std.HashMap.getElem?_empty

theorem imported?_insert (t : ImportTable) (n : QualifiedName) (s : List Char) :
    (t.insert n).imported? s = if n.simple = s then some n else t.imported? s := by
  simp [imported?, insert, Std.HashMap.getElem?_insert]

theorem imported?_observe (t : ImportTable) (line : List Char) (s : List Char) :
    (t.observe line).imported? s =
      match declaredImport? line with
      | some n => if n.simple = s then some n else t.imported? s
      | none => t.imported? s := by
  unfold observe
  split
  · exact imported?_insert t _ s
  · rfl

end ImportTable

end ReferenceGraph
