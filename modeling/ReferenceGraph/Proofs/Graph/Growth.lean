import ReferenceGraph.Proofs.Graph.Builder

/-!
# Growth of a graph

A builder never takes anything back. Submitting edges leaves the nodes and the arcs that are there
in their places and puts the new ones behind them, one arc for each edge that is reported as new.
Edges that are all there already change nothing.

* `Graph.Extends`: a graph holds another one and some further arcs.
* `extends_submit`, `extends_submitAll`: the step and the run. `WellFormed.submitAll_snd` says which
  edges are reported as new.
* `WellFormed.submitAll_of_subset`: submitting what is there.
-/

namespace ReferenceGraph

/-- The graph `g'` begins with the nodes and arcs of `g`, and its further arcs are for `added`. -/
structure Graph.Extends (g : Graph) (added : List Edge) (g' : Graph) : Prop where
  nodes : g.nodes.toList <+: g'.nodes.toList
  arcs : ∃ new, g'.arcs.toList = g.arcs.toList ++ new ∧ new.map (·.edge) = added

namespace Graph.Extends

variable {g g' g'' : Graph} {added added' : List Edge}

theorem refl (g : Graph) : g.Extends [] g := ⟨List.prefix_rfl, [], by simp⟩

theorem trans (h : g.Extends added g') (h' : g'.Extends added' g'') :
    g.Extends (added ++ added') g'' := by
  obtain ⟨new, harcs, rfl⟩ := h.arcs
  obtain ⟨new', harcs', rfl⟩ := h'.arcs
  refine ⟨h.nodes.trans h'.nodes, new ++ new', ?_, List.map_append⟩
  rw [harcs', harcs, List.append_assoc]

/-- The edges of a graph that is extended are followed by those that are added. -/
theorem edges (h : g.Extends added g') : g'.edges = g.edges ++ added := by
  obtain ⟨new, harcs, rfl⟩ := h.arcs
  rw [Graph.edges, Graph.edges, harcs, List.map_append]

theorem mem_edges (h : g.Extends added g') {e : Edge} (he : e ∈ g.edges) : e ∈ g'.edges := by
  rw [h.edges]
  exact List.mem_append_left _ he

theorem addNode (g : Graph) (n : Node) : g.Extends [] (g.addNode n) :=
  ⟨by simp [Graph.addNode], [], by simp [Graph.addNode]⟩

theorem addArc (g : Graph) (a : Arc) : g.Extends [a.edge] (g.addArc a) :=
  ⟨List.prefix_rfl, [a], by simp [Graph.addArc]⟩

end Graph.Extends

/-- Those of the edges that are not among the earlier ones, each once and in the order of its first
occurrence. -/
def newEdges (earlier es : List Edge) : List Edge := (es.removeAll earlier).eraseDups

theorem newEdges_eraseDups (earlier es : List Edge) :
    newEdges earlier.eraseDups es = newEdges earlier es := by
  rw [newEdges, newEdges, removeAll_congr fun _ => List.mem_eraseDups]

namespace Builder

theorem extends_node (b : Builder) (id : String) : b.graph.Extends [] (b.node id).1.graph := by
  unfold node
  split
  · exact .refl _
  · exact .addNode _ _

theorem extends_arc (b : Builder) (a : Arc) :
    b.graph.Extends (if (b.arc a).2 then [a.edge] else []) (b.arc a).1.graph := by
  unfold arc
  split
  · exact .refl _
  · exact .addArc _ _

/-- An edge adds itself if it is new, and nothing else. -/
theorem extends_submit (b : Builder) (e : Edge) :
    b.graph.Extends (if (b.submit e).2 then [e] else []) (b.submit e).1.graph := by
  have hends := (b.extends_node e.source).trans (extends_node _ e.target)
  have hadded := hends.trans (extends_arc _
    ⟨(b.node e.source).2, ((b.node e.source).1.node e.target).2, e⟩)
  rwa [List.nil_append, List.nil_append] at hadded

/-- Edges add those of them that are reported as new. -/
theorem extends_submitAll (b : Builder) (es : List Edge) :
    b.graph.Extends (b.submitAll es).2 (b.submitAll es).1.graph := by
  induction es generalizing b with
  | nil => exact .refl _
  | cons e es ih =>
    have h := (b.extends_submit e).trans (ih (b.submit e).1)
    simp only [submitAll]
    split
    · next hnew => rwa [if_pos hnew] at h
    · next hnew => rwa [if_neg hnew] at h

/-- The edges that are reported as new are those that are not there yet, each once. -/
theorem WellFormed.submitAll_snd {b : Builder} (h : b.WellFormed) (es : List Edge) :
    (b.submitAll es).2 = newEdges b.graph.edges es := by
  obtain ⟨-, hedges, -⟩ := h.submitAll es
  rw [(b.extends_submitAll es).edges, List.eraseDups_append,
    eraseDups_of_nodup h.edges_nodup] at hedges
  exact List.append_cancel_left hedges

/-- Edges that are there already change nothing, and none of them is new. -/
theorem WellFormed.submitAll_of_subset {b : Builder} (h : b.WellFormed) {es : List Edge}
    (hes : ∀ e ∈ es, e ∈ b.graph.edges) : b.submitAll es = (b, []) := by
  induction es with
  | nil => rfl
  | cons e es ih =>
    have hrest := ih fun e he => hes e (.tail _ he)
    simp only [Builder.submitAll, h.submit_of_mem (hes e (.head _)), hrest]
    rfl

end Builder

end ReferenceGraph
