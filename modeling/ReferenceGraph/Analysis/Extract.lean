import ReferenceGraph.Analysis.Event
import ReferenceGraph.Tree.Scan

/-!
# Edges of a file

The name of a file depends on every name that the file refers to. Both ends of such an edge are
collapsed to the nodes of the graph. An edge from a node to itself is kept.

* `edges_map_source`: all edges of a file begin at the node of the file.
-/

namespace ReferenceGraph

/-- The edges from a name to the names it refers to, in the order of the references. -/
def edgesFrom (kind : Granularity) (name : String) (references : List QualifiedName) : List Edge :=
  references.map fun n => ⟨kind.collapse name, kind.collapse n.text⟩

/-- The edges of a file, with repetitions. -/
def Summary.edges (kind : Granularity) (s : Summary) : List Edge :=
  edgesFrom kind s.name s.references

theorem edges_map_source (kind : Granularity) (s : Summary) {e : Edge} (he : e ∈ s.edges kind) :
    e.source = kind.collapse s.name := by
  simp only [Summary.edges, edgesFrom, List.mem_map] at he
  obtain ⟨n, -, rfl⟩ := he
  rfl

/-- What the extraction of one file gives. -/
structure Extraction where
  summary : Summary
  /-- The edges of the file that were new. -/
  added : List Edge
  /-- The builder after the edges of the file. -/
  builder : Builder

/-- Adds the edges of one file to a builder, with their ends collapsed to this granularity. That the
file could not be read counts before the question whether it has a name. -/
def extractAs (kind : Granularity) (b : Builder) (file : SourceFile)
    (content : Except PathError Bytes) : Except FileError Extraction :=
  match content with
  | .error e => .error (.unreadable file.path e)
  | .ok source =>
    match summarize file.relative source with
    | .error e => .error e
    | .ok summary =>
      .ok {
        summary
        added := (b.submitAll (summary.edges kind)).2
        builder := (b.submitAll (summary.edges kind)).1 }

/-- Adds the edges of one file to a builder, with their ends collapsed to the nodes of the
builder. -/
def extract (b : Builder) (file : SourceFile) (content : Except PathError Bytes) :
    Except FileError Extraction :=
  extractAs b.kind b file content

end ReferenceGraph
