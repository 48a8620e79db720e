import ReferenceGraph.Path.Basic

/-!
# Errors

What can go wrong, as causes: with a path in the tree (`PathError`), with one source file
(`FileError`), and with the root of a scan (`ScanError`). The wording is in one `message` function
for each.
-/

namespace ReferenceGraph

/-- Why a path does not lead to what is asked of it. -/
inductive PathError where
  | notFound
  | notDirectory
  | isDirectory
  | tooManyLinks
  | permissionDenied
  /-- The path holds a zero byte, so it cannot name anything. -/
  | zeroByte
  /-- A failure of the machine that the tree itself does not explain. -/
  | other (description : String)
deriving DecidableEq, Repr

/-- The text of the error, with the number of the error where it has one. -/
def PathError.message : PathError → String
  | notFound => "No such file or directory (os error 2)"
  | notDirectory => "Not a directory (os error 20)"
  | isDirectory => "Is a directory (os error 21)"
  | tooManyLinks => "Too many levels of symbolic links (os error 40)"
  | permissionDenied => "Permission denied (os error 13)"
  | zeroByte => "file name contained an unexpected NUL byte"
  | other description => description

/-- Why one source file adds nothing to the graph. -/
inductive FileError where
  /-- The content of the file at the path cannot be read. -/
  | unreadable (path : Path) (cause : PathError)
  /-- The path is not that of a source file, so the file has no name. -/
  | unnamed (path : Path)
deriving DecidableEq

/-- The text of the error. -/
def FileError.message : FileError → String
  | unreadable path cause => s!"failed to read {path.display}: {cause.message}"
  | unnamed path =>
    s!"cannot derive a qualified name from {path.display}: expected a .java file"

/-- Why a tree cannot be scanned. -/
inductive ScanError where
  /-- The root does not lead anywhere. -/
  | rootUnavailable (root : Path) (cause : PathError)
  /-- The root is not a directory. -/
  | rootNotDirectory (root : Path)
deriving DecidableEq

/-- The text of the error. -/
def ScanError.message : ScanError → String
  | rootUnavailable root cause =>
    s!"root directory {root.display} is unavailable: {cause.message}"
  | rootNotDirectory root => s!"root path {root.display} is not a directory"

end ReferenceGraph
