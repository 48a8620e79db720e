import ReferenceGraph.Tree.Resolve

/-!
# Scanning a tree

The source files below a root, depth first, with the entries of each directory in the order of the
bytes of their names. A link with the name of a source file is listed whatever it leads to; a
directory is entered whatever its name is; and a link to a directory is not entered, except for the
root itself.

A directory that cannot be listed does not end a scan. Nothing is found below it, the root included,
and it is reported itself (`FileTree.unlisted`).
-/

namespace ReferenceGraph

/-- A source file found in a tree. -/
structure SourceFile where
  /-- The path of the file, the root of the scan included. -/
  path : Path
  /-- The path of the file below the root. -/
  relative : Path
deriving DecidableEq

/-- What a walk through a tree comes to, at a location below its start. -/
inductive Finding where
  /-- A file or a link. -/
  | file (location : Location)
  /-- A directory that cannot be listed. -/
  | unlistable (location : Location) (cause : PathError)
deriving DecidableEq

namespace Finding

/-- The finding as it is seen from the directory of an entry of this name. -/
def under (name : FileName) : Finding → Finding
  | file l => file (name :: l)
  | unlistable l cause => unlistable (name :: l) cause

/-- The location of a file or a link with the name of a source file. -/
def source? : Finding → Option Location
  | file l => if l.getLast?.any FileName.isSource then some l else none
  | unlistable .. => none

/-- The location of a directory that cannot be listed, with the reason. -/
def refused? : Finding → Option (Location × PathError)
  | file _ => none
  | unlistable l cause => some (l, cause)

end Finding

/-- The findings at several entries, put in the order of the names of the entries. -/
def inNameOrder (found : List (FileName × List Finding)) : List Finding :=
  (found.mergeSort fun x y => decide (x.1 ≤ y.1)).flatMap (·.2)

mutual

/-- The findings at and below an entry, where `refusal?` says why directories cannot be listed. -/
def Entry.findings (refusal? : Location → Option PathError) : Entry → List Finding
  | .file _ => [.file []]
  | .link _ => [.file []]
  | .dir es =>
    match refusal? [] with
    | some cause => [.unlistable [] cause]
    | none => inNameOrder (findingsOfEach refusal? es)

/-- The findings at and below each of the entries of a directory, with the name of the entry. -/
def findingsOfEach (refusal? : Location → Option PathError) :
    List (FileName × Entry) → List (FileName × List Finding)
  | [] => []
  | (name, e) :: es =>
    (name, (e.findings fun l => refusal? (name :: l)).map (.under name)) ::
      findingsOfEach refusal? es

end

/-- The locations of the source files below a directory with these entries. -/
def sourcesBelow (refusal? : Location → Option PathError) (es : List (FileName × Entry)) :
    List Location :=
  ((Entry.dir es).findings refusal?).filterMap Finding.source?

/-- The source files below a root that has these entries. -/
def sourceFiles (root : Path) (refusal? : Location → Option PathError)
    (es : List (FileName × Entry)) : List SourceFile :=
  (sourcesBelow refusal? es).map fun names => ⟨root.join names, .ofNames names⟩

/-- The locations of the directories that cannot be listed, at and below a directory with these
entries. -/
def refusedBelow (refusal? : Location → Option PathError) (es : List (FileName × Entry)) :
    List (Location × PathError) :=
  ((Entry.dir es).findings refusal?).filterMap Finding.refused?

/-- The directories that cannot be listed, under their paths: the root, or directories below it. -/
def unlistedPaths (root : Path) (refused : List (Location × PathError)) :
    List (Path × PathError) :=
  refused.map fun (l, cause) => (if l = [] then root else root.join l, cause)

namespace FileTree

/-- Why the directory at a location below this one cannot be listed, unless it can. -/
def refusalBelow (t : FileTree) (location : Location) (l : Location) : Option PathError :=
  t.refusal? (location ++ l)

/-- Whether the path itself is a link with the name of a source file. -/
def isSourceLink (t : FileTree) (root : Path) : Bool :=
  match t.resolve .keep root with
  | .ok (.entry _ (.link _)) => root.isSource
  | _ => false

/-- The source files below a root. A root that is itself a link with the name of a source file is
listed before them. -/
def scan (t : FileTree) (root : Path) : Except ScanError (List SourceFile) :=
  match t.resolve .follow root with
  | .error e => .error (.rootUnavailable root e)
  | .ok (.entry location (.dir es)) =>
    .ok ((if t.isSourceLink root then [⟨root, ⟨[]⟩⟩] else []) ++
      sourceFiles root (t.refusalBelow location) es)
  | .ok _ => .error (.rootNotDirectory root)

/-- The directories that a scan has to leave out because they cannot be listed, in the order in
which it comes to them. -/
def unlisted (t : FileTree) (root : Path) : List (Path × PathError) :=
  match t.resolve .follow root with
  | .ok (.entry location (.dir es)) =>
    unlistedPaths root (refusedBelow (t.refusalBelow location) es)
  | _ => []

end FileTree

end ReferenceGraph
