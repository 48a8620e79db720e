import ReferenceGraph.Tree.Access

/-!
# Building a tree

Files, links and directories are added to a tree at a path. Directories that are missing on the way
of the path are made, and links on the way are followed. What cannot be made is left out.
-/

namespace ReferenceGraph

namespace FileTree

/-- The tree with a directory at the end of the steps from a location, unless something is there. -/
def makeDirectory (t : FileTree) (location : Location) (steps : List FileName) : FileTree :=
  match walk t.top .create linkLimit location steps with
  | .ok (.vacant place) => t.update (fun _ => .dir []) place
  | _ => t

/-- The tree with a directory behind each of the steps from a location. -/
def makeDirectories (t : FileTree) (location : Location) (steps : List FileName) : FileTree :=
  (List.range steps.length).foldl (fun t n => t.makeDirectory location (steps.take (n + 1))) t

/-- The tree with a directory at the path. -/
def addDirectory (t : FileTree) (p : Path) : FileTree :=
  t.makeDirectories (t.start p) p.pieces

/-- The tree with the directories that the path leads through before its last name. -/
def addParents (t : FileTree) (p : Path) : FileTree :=
  t.makeDirectories (t.start p) p.pieces.dropLast

/-- The tree with a file at the path. A file that is there gets the content, and so does the file
that a link there leads to. -/
def addFile (t : FileTree) (p : Path) (content : Bytes) : FileTree :=
  ((t.addParents p).write p content).toOption.getD (t.addParents p)

/-- The tree with a symbolic link at the path, in place of what is there. -/
def addLink (t : FileTree) (p target : Path) : FileTree :=
  let t := t.addParents p
  match p.fileName?, walk t.top .follow linkLimit (t.start p) p.pieces.dropLast with
  | some name, .ok (.entry location (.dir _)) =>
    t.update (fun _ => .link target) (location ++ [name])
  | _, _ => t

end FileTree

end ReferenceGraph
