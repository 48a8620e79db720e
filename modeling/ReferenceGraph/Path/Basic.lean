import ReferenceGraph.Text.Utf8

/-!
# Paths

A path is a sequence of bytes, and slashes cut it into pieces. Two readings of a path are in use.
`Path.pieces` is the path as a name: empty pieces and single dots say nothing and are left out.
`Path.steps` is the path as a way through a tree: there a single dot asks for a directory, and so
does a slash at the end, which is kept as an empty last step.
-/

namespace ReferenceGraph

/-- The name of an entry in a directory. -/
abbrev FileName := Bytes

namespace FileName

/-- The byte that separates the extension of a name. -/
def dotByte : UInt8 := 0x2E

/-- The name of a directory within itself. -/
def here : FileName := [dotByte]

/-- The name of the directory above. -/
def above : FileName := [dotByte, dotByte]

/-- What stands before the last dot of the name; empty if there is no dot. -/
def beforeLastDot (name : FileName) : Bytes :=
  [dotByte].intercalate (name.splitOn dotByte).dropLast

/-- What stands after the last dot, provided that something stands before it. -/
def extension? (name : FileName) : Option Bytes :=
  if name.beforeLastDot = [] then none else (name.splitOn dotByte).getLast?

/-- The name without its extension. -/
def stem (name : FileName) : Bytes :=
  if name.beforeLastDot = [] then name else name.beforeLastDot

/-- The extension of source files. -/
def sourceExtension : Bytes := Utf8.encodeString "java"

/-- Whether the name is that of a source file. -/
def isSource (name : FileName) : Bool := name.extension? = some sourceExtension

end FileName

/-- A path, absolute or relative to the working directory. -/
structure Path where
  bytes : Bytes
deriving DecidableEq

namespace Path

/-- The byte that separates the pieces of a path. -/
def slash : UInt8 := 0x2F

/-- The path that a text spells. -/
def ofString (s : String) : Path := ⟨Utf8.encodeString s⟩

/-- The relative path made of these names. -/
def ofNames (names : List FileName) : Path := ⟨[slash].intercalate names⟩

/-- The path as text. -/
def display (p : Path) : String := Utf8.decodeString p.bytes

instance : ToString Path := ⟨display⟩

/-- Whether the path begins at the top of the tree. -/
def isAbsolute (p : Path) : Bool := p.bytes.head? = some slash

/-- Whether the path ends in a slash. -/
def endsInSlash (p : Path) : Bool := p.bytes.getLast? = some slash

/-- The pieces between the slashes that name something. -/
def pieces (p : Path) : List FileName :=
  (p.bytes.splitOn slash).filter fun s => s ≠ [] ∧ s ≠ FileName.here

/-- The pieces between the slashes, single dots included, and an empty one for a slash at the
end. -/
def steps (p : Path) : List FileName :=
  (p.bytes.splitOn slash).filter (· ≠ []) ++ if p.endsInSlash then [[]] else []

/-- The last piece, unless it points upwards. -/
def fileName? (p : Path) : Option FileName :=
  p.pieces.getLast?.filter (· ≠ FileName.above)

/-- Whether the path leads to something with the name of a source file. -/
def isSource (p : Path) : Bool := p.fileName?.any FileName.isSource

/-- The path continued by these names. A slash is put in between unless the path ends in one. -/
def join (p : Path) (names : List FileName) : Path :=
  ⟨p.bytes ++ (if p.endsInSlash then [] else [slash]) ++ (ofNames names).bytes⟩

end Path

end ReferenceGraph
