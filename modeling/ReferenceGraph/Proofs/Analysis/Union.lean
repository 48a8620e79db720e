import ReferenceGraph.Proofs.Analysis.Meaning

/-!
# Graphs of several files

As far as its edges and nodes are concerned, and not their order, the graph of several files is the
union of the graphs that each of them has alone. So it is the same for every order of the files and
for files that come twice, and what one file imports means nothing in another.

* `LoadedFile.Yields`: what the edges of one file are, from its path and its content alone.
* `graphOf`: the graph that is collected from a list of files; `represents_graphOf` says what it
  holds.
* `graph_union_of_files`: the statement for every list of files.
-/

namespace ReferenceGraph

/-- The file can be read and has a name, and the edge leads from there to one of its references.
What a short name means is taken from the imports of this file. -/
def LoadedFile.Yields (kind : Granularity) (f : LoadedFile) (e : Edge) : Prop :=
  ∃ source name, f.content = .ok source ∧ f.file.relative.dottedName? = some name ∧
    ∃ n ∈ referencesFrom ∅ (sourceLines source),
      e = ⟨kind.collapse name, kind.collapse n.text⟩

/-- The graph that is collected from the files. -/
def graphOf (kind : Granularity) (files : List LoadedFile) : Graph :=
  (collect (.empty kind) files).builder.graph

/-- The graph of several files holds their edges. -/
theorem represents_graphOf (kind : Granularity) (files : List LoadedFile) :
    (graphOf kind files).Represents kind (files.flatMap (·.edgesBy summarize kind)) := by
  rw [graphOf, collect_builder (Builder.wellFormed_empty kind), submitFiles_eq_submitAll]
  exact represents_submitAll kind _

theorem LoadedFile.mem_edgesBy_iff {kind : Granularity} {f : LoadedFile} {e : Edge} :
    e ∈ f.edgesBy summarize kind ↔ f.Yields kind e := by
  unfold edgesBy Yields summarize
  cases f.content with
  | error err => simp
  | ok source =>
    cases f.file.relative.dottedName? with
    | none => simp
    | some name => simp [Summary.edges, edgesFrom, eq_comm]

theorem mem_edges_graphOf {kind : Granularity} {files : List LoadedFile} {e : Edge} :
    e ∈ (graphOf kind files).edges ↔ ∃ f ∈ files, f.Yields kind e := by
  rw [(represents_graphOf kind files).edges, List.mem_eraseDups, List.mem_flatMap]
  simp only [LoadedFile.mem_edgesBy_iff]

namespace Graph.Represents

variable {g g' : Graph} {kind : Granularity} {es es' : List Edge}

/-- The nodes of a graph are the ends of its edges. -/
theorem mem_ids (h : g.Represents kind es) {id : String} :
    id ∈ g.ids ↔ ∃ e ∈ g.edges, id ∈ e.ends := by
  rw [h.ids, h.edges, List.mem_eraseDups, List.mem_flatMap]
  simp only [List.mem_eraseDups]

theorem nodup_edges (h : g.Represents kind es) : g.edges.Nodup := h.edges ▸ nodup_eraseDups es

theorem nodup_ids (h : g.Represents kind es) : g.ids.Nodup := h.ids ▸ nodup_eraseDups _

/-- Graphs with the same edges, in whatever order, have the same nodes, in whatever order. -/
theorem perm (h : g.Represents kind es) (h' : g'.Represents kind es')
    (hedges : ∀ e, e ∈ g.edges ↔ e ∈ g'.edges) : g.edges.Perm g'.edges ∧ g.ids.Perm g'.ids := by
  constructor
  · exact (List.perm_ext_iff_of_nodup h.nodup_edges h'.nodup_edges).mpr hedges
  · refine (List.perm_ext_iff_of_nodup h.nodup_ids h'.nodup_ids).mpr fun id => ?_
    rw [h.mem_ids, h'.mem_ids]
    simp only [hedges]

end Graph.Represents

/-- The graph of several files is the union of the graphs of each file alone. An edge is there if
one of the files has it alone, which is a matter of the path and the content of this file; and the
nodes are the ends of the edges. The same files in another order, or with repetitions, have the same
edges and the same nodes, each of them once. -/
theorem graph_union_of_files (kind : Granularity) (files : List LoadedFile) :
    (∀ e, e ∈ (graphOf kind files).edges ↔ ∃ f ∈ files, e ∈ (graphOf kind [f]).edges) ∧
      (∀ f e, e ∈ (graphOf kind [f]).edges ↔ f.Yields kind e) ∧
      (∀ id, id ∈ (graphOf kind files).ids ↔ ∃ e ∈ (graphOf kind files).edges, id ∈ e.ends) ∧
      (graphOf kind files).edges.Nodup ∧ (graphOf kind files).ids.Nodup ∧
      ∀ files' : List LoadedFile, (∀ f, f ∈ files' ↔ f ∈ files) →
        (graphOf kind files').edges.Perm (graphOf kind files).edges ∧
          (graphOf kind files').ids.Perm (graphOf kind files).ids := by
  have hrep := represents_graphOf kind files
  have halone : ∀ f e, e ∈ (graphOf kind [f]).edges ↔ f.Yields kind e := by
    intro f e
    rw [mem_edges_graphOf]
    simp
  refine ⟨fun e => ?_, halone, fun id => hrep.mem_ids, hrep.nodup_edges, hrep.nodup_ids, ?_⟩
  · rw [mem_edges_graphOf]
    simp only [halone]
  · intro files' hfiles
    refine (represents_graphOf kind files').perm hrep fun e => ?_
    rw [mem_edges_graphOf, mem_edges_graphOf]
    simp only [hfiles]

end ReferenceGraph
