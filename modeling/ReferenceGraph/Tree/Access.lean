import ReferenceGraph.Tree.Resolve

/-!
# Reading and writing

The content of a file in a tree is read through a path and replaced through a path. Writing makes
the file if its directory is there, and changes nothing else.

A file can be read and written once its path leads to it. So a write fails before it has changed
anything: there is none that opens the file, empties it, and then fails on the content.
-/

namespace ReferenceGraph

namespace FileTree

/-- The content of the file that a path leads to. A directory that cannot be listed cannot even be
opened. -/
def read (t : FileTree) (p : Path) : Except PathError Bytes :=
  match t.resolve .follow p with
  | .error e => .error e
  | .ok (.entry _ (.file content)) => .ok content
  | .ok (.entry location (.dir _)) => .error ((t.refusal? location).getD .isDirectory)
  | .ok (.entry _ (.link _)) => .error .tooManyLinks
  | .ok (.vacant _) => .error .notFound

/-- The tree with this content in the file that a path leads to. -/
def write (t : FileTree) (p : Path) (content : Bytes) : Except PathError FileTree :=
  match t.resolve .create p with
  | .error e => .error e
  | .ok (.entry _ (.dir _)) => .error .isDirectory
  | .ok (.entry location _) => .ok (t.update (fun _ => .file content) location)
  | .ok (.vacant location) => .ok (t.update (fun _ => .file content) location)

end FileTree

end ReferenceGraph
