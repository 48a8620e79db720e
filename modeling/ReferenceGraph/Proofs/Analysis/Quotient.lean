import ReferenceGraph.Proofs.Analysis.Meaning

/-!
# Packages as the quotient of classes

The same files are analysed once with classes as nodes and once with packages. Repetitions among
classes are dropped before two classes of one package become the same node, but the first mention of
a package is the first mention of one of its classes, so nothing is lost or moved.

* `Graph.Represents.map`: what a graph holds of edges whose ends are renamed.
* `packages_quotient_of_classes`: the two graphs of one tree.
-/

namespace ReferenceGraph

/-- The edge between the names that `f` gives to its ends. -/
def Edge.map (f : String → String) (e : Edge) : Edge := ⟨f e.source, f e.target⟩

theorem Edge.ends_map (f : String → String) (e : Edge) : (e.map f).ends = e.ends.map f := rfl

theorem flatMap_ends_map (f : String → String) (es : List Edge) :
    (es.map (Edge.map f)).flatMap Edge.ends = (es.flatMap Edge.ends).map f := by
  rw [List.flatMap_map, List.map_flatMap]
  simp only [Edge.ends_map]

/-- The graph of renamed edges has the edges and nodes of the graph of the edges as they were,
renamed and without the repetitions that renaming makes. -/
theorem Graph.Represents.map {g g' : Graph} {kind kind' : Granularity} {es : List Edge}
    (h : g.Represents kind es) {f : String → String}
    (h' : g'.Represents kind' (es.map (Edge.map f))) :
    g'.edges = (g.edges.map (Edge.map f)).eraseDups ∧ g'.ids = (g.ids.map f).eraseDups := by
  constructor
  · rw [h'.edges, h.edges, eraseDups_map_eraseDups]
  · rw [h'.ids, h.ids, flatMap_ends_map, eraseDups_map_eraseDups]

/-- An edge between packages is an edge between classes with both ends replaced by their parents. -/
theorem edgesOf_packages (t : FileTree) (f : SourceFile) :
    t.edgesOf .packages f = (t.edgesOf .classes f).map (Edge.map parentName) := by
  unfold FileTree.edgesOf
  cases t.read f.path with
  | error e => rfl
  | ok source =>
    cases f.relative.dottedName? with
    | none => rfl
    | some name =>
      rw [List.map_map]
      rfl

/-- The graph of packages is the quotient of the graph of classes. Both analyses fail with the same
error, or the edges and nodes between packages are those between classes, replaced by their parents
and without later repetitions. -/
theorem packages_quotient_of_classes (t : FileTree) (root : Path) :
    (∃ e, (t.analyze root .classes).outcome = .error e ∧
        (t.analyze root .packages).outcome = .error e) ∨
      ∃ gc gp, (t.analyze root .classes).outcome = .ok gc ∧
        (t.analyze root .packages).outcome = .ok gp ∧
        gp.edges = (gc.edges.map (Edge.map parentName)).eraseDups ∧
        gp.ids = (gc.ids.map parentName).eraseDups := by
  rcases analyze_cases t root with ⟨e, -, houtcome⟩ | ⟨files, -, houtcome⟩
  · exact .inl ⟨e, houtcome .classes, houtcome .packages⟩
  · obtain ⟨gc, hgc, hc⟩ := houtcome .classes
    obtain ⟨gp, hgp, hp⟩ := houtcome .packages
    have hedges : files.flatMap (t.edgesOf .packages) =
        (files.flatMap (t.edgesOf .classes)).map (Edge.map parentName) := by
      rw [List.map_flatMap]
      congr 1
      funext f
      exact edgesOf_packages t f
    rw [hedges] at hp
    exact .inr ⟨gc, gp, hgc, hgp, hc.map hp⟩

end ReferenceGraph
