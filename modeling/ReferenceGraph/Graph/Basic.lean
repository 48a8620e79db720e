import Std.Data.HashMap
import Std.Data.HashSet
import ReferenceGraph.Name.Granularity

/-!
# Dependency graphs

A graph holds its nodes in the order in which they were first mentioned and its arcs in the order in
which they were found. A `Builder` is a graph under construction: it takes edges between names,
drops those that it has seen before, and keeps beside the graph what it needs for that, the index of
each name and the set of index pairs that are joined.
-/

namespace ReferenceGraph

/-- The statement that one name depends on another. -/
@[ext] structure Edge where
  source : String
  target : String
deriving DecidableEq, Repr

/-- A class or a package. -/
structure Node where
  id : String
  kind : Granularity
deriving DecidableEq, Repr

/-- An edge with the indices of its ends. -/
structure Arc where
  source : Nat
  target : Nat
  edge : Edge
deriving DecidableEq, Repr

/-- A dependency graph. -/
structure Graph where
  nodes : Array Node
  arcs : Array Arc
deriving DecidableEq, Repr

namespace Graph

/-- The graph without nodes. -/
def empty : Graph := ⟨#[], #[]⟩

/-- The edges in the order in which they were found. -/
def edges (g : Graph) : List Edge := g.arcs.toList.map (·.edge)

/-- The names of the nodes in the order in which they were first mentioned. -/
def ids (g : Graph) : List String := g.nodes.toList.map (·.id)

/-- The number of nodes. -/
def nodeCount (g : Graph) : Nat := g.nodes.size

/-- The number of edges. -/
def edgeCount (g : Graph) : Nat := g.arcs.size

theorem length_ids (g : Graph) : g.ids.length = g.nodeCount := by
  simp [ids, nodeCount]

theorem length_edges (g : Graph) : g.edges.length = g.edgeCount := by
  simp [edges, edgeCount]

/-- The graph with one more node. -/
def addNode (g : Graph) (n : Node) : Graph := { g with nodes := g.nodes.push n }

/-- The graph with one more arc. -/
def addArc (g : Graph) (a : Arc) : Graph := { g with arcs := g.arcs.push a }

@[simp] theorem edges_addNode (g : Graph) (n : Node) : (g.addNode n).edges = g.edges := rfl

@[simp] theorem edges_addArc (g : Graph) (a : Arc) : (g.addArc a).edges = g.edges ++ [a.edge] := by
  simp [edges, addArc]

@[simp] theorem ids_addNode (g : Graph) (n : Node) : (g.addNode n).ids = g.ids ++ [n.id] := by
  simp [ids, addNode]

@[simp] theorem ids_addArc (g : Graph) (a : Arc) : (g.addArc a).ids = g.ids := rfl

end Graph

/-- A graph under construction. -/
structure Builder where
  graph : Graph
  /-- The index of each node, by its name. -/
  index : Std.HashMap String Nat
  /-- The pairs of nodes that an arc joins. -/
  seen : Std.HashSet (Nat × Nat)
  /-- What the nodes stand for. -/
  kind : Granularity

namespace Builder

/-- The builder before the first edge. -/
def empty (kind : Granularity) : Builder := ⟨.empty, ∅, ∅, kind⟩

/-- The builder with a node of this name, and the index of the node. -/
def node (b : Builder) (id : String) : Builder × Nat :=
  match b.index[id]? with
  | some i => (b, i)
  | none =>
    ({ b with graph := b.graph.addNode ⟨id, b.kind⟩, index := b.index.insert id b.graph.nodeCount },
      b.graph.nodeCount)

/-- The builder with the arc, and whether it is a new one. -/
def arc (b : Builder) (a : Arc) : Builder × Bool :=
  if b.seen.contains (a.source, a.target) then (b, false)
  else ({ b with graph := b.graph.addArc a, seen := b.seen.insert (a.source, a.target) }, true)

/-- The builder after an edge, and whether the edge is a new one. The ends become nodes in any
case. -/
def submit (b : Builder) (e : Edge) : Builder × Bool :=
  let (b, source) := b.node e.source
  let (b, target) := b.node e.target
  b.arc ⟨source, target, e⟩

/-- The builder after the edges, and those of them that were new. -/
def submitAll (b : Builder) : List Edge → Builder × List Edge
  | [] => (b, [])
  | e :: es =>
    let (b, isNew) := b.submit e
    let (b, added) := b.submitAll es
    (b, if isNew then e :: added else added)

end Builder

end ReferenceGraph
