import ReferenceGraph.Analysis.Extract
import ReferenceGraph.Tree.Access

/-!
# Analysis of a tree

The source files below a root are read one after the other, and each adds its edges to one graph. A
directory that cannot be listed and a file that cannot be read are reported and left out; only a
root that is no directory can make an analysis fail.
-/

namespace ReferenceGraph

/-- A source file with its content, or the reason why it could not be read. -/
structure LoadedFile where
  file : SourceFile
  content : Except PathError Bytes

/-- What has been collected from several files. -/
structure Collection where
  builder : Builder
  /-- The number of files left out. -/
  skipped : Nat
  /-- What has been reported about the files, in their order. -/
  events : List Event

/-- Extracts the files one after the other. -/
def collect (b : Builder) : List LoadedFile → Collection
  | [] => ⟨b, 0, []⟩
  | f :: fs =>
    match extract b f.file f.content with
    | .error e =>
      let rest := collect b fs
      { rest with skipped := rest.skipped + 1, events := .skipped e :: rest.events }
    | .ok x =>
      let rest := collect x.builder fs
      { rest with events := .summarized x.summary :: x.added.map .added ++ rest.events }

/-- The outcome of an analysis and what was reported on the way. -/
structure Analysis where
  events : List Event
  outcome : Except ScanError Graph

/-- What is reported of a scan that has found this many files, after these directories were left
out of it. -/
def scanEvents (root : Path) (unlisted : List (Path × PathError)) (files : Nat) : List Event :=
  .scanning root :: unlisted.map (fun (path, cause) => .unlisted path cause) ++
    [.scanned files root, .found files]

/-- The analysis of the files that a scan has found, after these directories were left out of it. -/
def analyzeFiles (kind : Granularity) (root : Path) (unlisted : List (Path × PathError)) :
    Except ScanError (List LoadedFile) → Analysis
  | .error e => ⟨[.scanning root], .error e⟩
  | .ok files =>
    let c := collect (.empty kind) files
    { events := scanEvents root unlisted files.length ++ c.events ++
        [.collected c.builder.graph.edgeCount kind c.builder.graph.nodeCount c.skipped]
      outcome := .ok c.builder.graph }

/-- The content of a scanned file. -/
def FileTree.load (t : FileTree) (file : SourceFile) : LoadedFile := ⟨file, t.read file.path⟩

/-- The analysis of the tree below a root. -/
def FileTree.analyze (t : FileTree) (root : Path) (kind : Granularity) : Analysis :=
  analyzeFiles kind root (t.unlisted root) ((t.scan root).map (·.map t.load))

end ReferenceGraph
