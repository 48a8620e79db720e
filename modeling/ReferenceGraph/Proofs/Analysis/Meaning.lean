import ReferenceGraph.Proofs.Analysis.Collect
import ReferenceGraph.Proofs.Tree.Findings

/-!
# The meaning of an analysis

An analysis fails exactly where its scan fails, which is where the root is no directory. In all
other cases its graph is given by the edges of the scanned files, in the order of the scan: a file
that can be read has an edge from its own name to each of its references, and any other file has
none.

* `Graph.Represents`: a graph holds the edges of a list, each once and in their order.
* `FileTree.edgesOf`: the edges of a scanned file, from its path and its content.
* `FileTree.outcome_of_scan`: the graph that is built from the edges of the scanned files.
* `scan_eq_ok_iff`: where a scan succeeds.
* `analyze_cases`: an analysis fails for every granularity, or has a graph for every granularity.
* `analyze_meaning`: the statement for every tree, root and granularity.
-/

namespace ReferenceGraph

/-- The graph holds these edges, each once and in the order of its first occurrence, between the
nodes for their ends, each once and in the order of its first mention. -/
structure Graph.Represents (g : Graph) (kind : Granularity) (es : List Edge) : Prop where
  edges : g.edges = es.eraseDups
  ids : g.ids = (es.flatMap Edge.ends).eraseDups
  kinds : ∀ n ∈ g.nodes, n.kind = kind
  joins : ∀ a ∈ g.arcs, g.Joins a

/-- The edges of a scanned file, with repetitions: from its name to each of its references, in the
order of the text and with both ends collapsed. A file that cannot be read has none. -/
def FileTree.edgesOf (t : FileTree) (kind : Granularity) (f : SourceFile) : List Edge :=
  match t.read f.path, f.relative.dottedName? with
  | .ok source, some name =>
    (referencesFrom ∅ (sourceLines source)).map fun n =>
      ⟨kind.collapse name, kind.collapse n.text⟩
  | _, _ => []

/-! ## Files -/

theorem represents_submitAll (kind : Granularity) (es : List Edge) :
    ((Builder.empty kind).submitAll es).1.graph.Represents kind es := by
  obtain ⟨h, hedges, hids, hkind⟩ := (Builder.wellFormed_empty kind).submitAll es
  refine ⟨hedges, hids, fun n hn => ?_, h.joins⟩
  rw [h.kinds n hn, hkind]
  rfl

theorem edgesBy_load (t : FileTree) (kind : Granularity) (f : SourceFile) :
    (t.load f).edgesBy summarize kind = t.edgesOf kind f := by
  unfold LoadedFile.edgesBy FileTree.edgesOf FileTree.load summarize
  cases t.read f.path with
  | error e => rfl
  | ok source =>
    cases f.relative.dottedName? with
    | none => rfl
    | some name => rfl

theorem FileTree.edgesOf_of_error {t : FileTree} {f : SourceFile} {e : PathError}
    (h : t.read f.path = .error e) (kind : Granularity) : t.edgesOf kind f = [] := by
  simp only [edgesOf, h]

/-- What is collected from scanned files is built from their edges. -/
theorem collect_load (t : FileTree) (kind : Granularity) (files : List SourceFile) :
    (collect (.empty kind) (files.map t.load)).builder =
      ((Builder.empty kind).submitAll (files.flatMap (t.edgesOf kind))).1 := by
  rw [collect_builder (Builder.wellFormed_empty kind), submitFiles_eq_submitAll, List.flatMap_map]
  simp only [edgesBy_load]
  rfl

/-- The graph of an analysis is built from the edges of the scanned files. -/
theorem FileTree.outcome_of_scan {t : FileTree} {root : Path} {files : List SourceFile}
    (h : t.scan root = .ok files) (kind : Granularity) :
    (t.analyze root kind).outcome =
      .ok ((Builder.empty kind).submitAll (files.flatMap (t.edgesOf kind))).1.graph := by
  rw [FileTree.analyze, h, ← collect_load]
  rfl

/-! ## The root -/

/-- A scan succeeds exactly if its root is a directory. -/
theorem scan_eq_ok_iff (t : FileTree) (root : Path) :
    (∃ files, t.scan root = .ok files) ↔
      ∃ location es, t.resolve .follow root = .ok (.entry location (.dir es)) := by
  constructor
  · rintro ⟨files, hfiles⟩
    obtain ⟨location, es, hroot, -⟩ := FileTree.scan_eq_ok hfiles
    exact ⟨location, es, hroot⟩
  · rintro ⟨location, es, hroot⟩
    exact ⟨_, FileTree.scan_of_resolve hroot⟩

theorem analyze_cases (t : FileTree) (root : Path) :
    (∃ e, t.scan root = .error e ∧ ∀ kind, (t.analyze root kind).outcome = .error e) ∨
      ∃ files, t.scan root = .ok files ∧ ∀ kind, ∃ g, (t.analyze root kind).outcome = .ok g ∧
        g.Represents kind (files.flatMap (t.edgesOf kind)) := by
  cases h : t.scan root with
  | error e =>
    refine .inl ⟨e, rfl, fun kind => ?_⟩
    rw [FileTree.analyze, h]
    rfl
  | ok files =>
    exact .inr ⟨files, rfl, fun kind => ⟨_, t.outcome_of_scan h kind, represents_submitAll kind _⟩⟩

/-- The meaning of an analysis. If the root is no directory, it fails. Otherwise it has a graph, and
the graph represents the edges of the scanned files in the order of the scan. A file that cannot be
read has no edges, and in a well-formed tree every scanned file that can be read has a name. -/
theorem analyze_meaning (t : FileTree) (root : Path) (kind : Granularity) :
    ((¬∃ location es, t.resolve .follow root = .ok (.entry location (.dir es))) →
        ∃ e, (t.analyze root kind).outcome = .error e) ∧
      ((∃ location es, t.resolve .follow root = .ok (.entry location (.dir es))) →
        ∃ files g, t.scan root = .ok files ∧ (t.analyze root kind).outcome = .ok g ∧
          g.Represents kind (files.flatMap (t.edgesOf kind)) ∧
          (∀ f ∈ files, ∀ e, t.read f.path = .error e → t.edgesOf kind f = []) ∧
          (t.WellFormed → ∀ f ∈ files, ∀ source, t.read f.path = .ok source →
            ∃ name, f.relative.dottedName? = some name)) := by
  rcases analyze_cases t root with ⟨e, hscan, houtcome⟩ | ⟨files, hscan, houtcome⟩
  · refine ⟨fun _ => ⟨e, houtcome kind⟩, fun hdir => ?_⟩
    obtain ⟨files, hfiles⟩ := (scan_eq_ok_iff t root).mpr hdir
    cases hscan.symm.trans hfiles
  · have hdir := (scan_eq_ok_iff t root).mp ⟨files, hscan⟩
    obtain ⟨g, hg, hrep⟩ := houtcome kind
    refine ⟨fun h => absurd hdir h, fun _ => ⟨files, g, hscan, hg, hrep, ?_, ?_⟩⟩
    · intro f _ e he
      simp only [FileTree.edgesOf, he]
    · intro ht f hf source hread
      exact exists_dottedName_of_read ht hscan hf hread

end ReferenceGraph
