import ReferenceGraph.Error

/-!
# File trees

A tree of directories, files and symbolic links, and in it a working directory. Places in the tree
are given by the names that lead to them from the top (`Location`). The entries of a directory are
kept in the order in which they were made; nothing but that order depends on it.

A directory may be one that cannot be listed. It has its entries all the same, and paths lead
through it to them, but who asks for all of them gets the reason for the refusal.
-/

namespace ReferenceGraph

/-- A file with its content, a symbolic link with the path it holds, or a directory with its
entries. -/
inductive Entry where
  | file (content : Bytes)
  | link (target : Path)
  | dir (entries : List (FileName × Entry))

/-- The names that lead from the top of a tree to a place in it. -/
abbrev Location := List FileName

namespace Entry

/-- What is at a location below the entry. -/
def at? : Entry → Location → Option Entry
  | e, [] => some e
  | .dir es, name :: names => (es.lookup name).bind (·.at? names)
  | _, _ :: _ => none

/-- The entries with the one of this name replaced, or with a new one at the end. -/
def alter (name : FileName) (f : Option Entry → Entry) :
    List (FileName × Entry) → List (FileName × Entry)
  | [] => [(name, f none)]
  | (k, e) :: es => if k = name then (k, f (some e)) :: es else (k, e) :: alter name f es

/-- The entry with `f` applied to what is at a location below it. Missing directories on the way
are made; a way through something that is no directory leads nowhere. -/
def update (f : Option Entry → Entry) : Location → Entry → Entry
  | [], e => f (some e)
  | [name], .dir es => .dir (alter name f es)
  | name :: names, .dir es => .dir (alter name (fun e? => update f names (e?.getD (.dir []))) es)
  | _ :: _, e => e

end Entry

/-- A tree with a working directory. -/
structure FileTree where
  /-- The entries at the top. -/
  entries : List (FileName × Entry)
  /-- The place of the working directory, from which relative paths start. -/
  working : Location
  /-- The locations of the directories that cannot be listed, with the reasons. -/
  unlistable : List (Location × PathError) := []

namespace FileTree

/-- The entry at the top. -/
def top (t : FileTree) : Entry := .dir t.entries

/-- Why the directory at a location cannot be listed, unless it can. -/
def refusal? (t : FileTree) (l : Location) : Option PathError := t.unlistable.lookup l

/-- The tree with `f` applied to what is at a location. -/
def update (t : FileTree) (f : Option Entry → Entry) (names : Location) : FileTree :=
  match t.top.update f names with
  | .dir es => { t with entries := es }
  | _ => t

/-- The tree with nothing in it but an empty working directory at this place. -/
def empty (working : Location) : FileTree :=
  update { entries := [], working } (·.getD (.dir [])) working

end FileTree

end ReferenceGraph
