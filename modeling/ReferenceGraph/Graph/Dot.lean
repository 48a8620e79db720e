import ReferenceGraph.Graph.Basic

/-!
# The DOT format

One statement per edge, in the order in which the edges were found. Names stand between quotes as
they are: nothing in them is escaped.
-/

namespace ReferenceGraph

namespace Dot

/-- The statement for an edge. -/
def statement (e : Edge) : String :=
  "  \"" ++ e.source ++ "\" -> \"" ++ e.target ++ "\";\n"

/-- The graph as DOT. -/
def render (g : Graph) : String :=
  "digraph G \x7b\n" ++ String.join (g.edges.map statement) ++ "\x7d\n"

end Dot

end ReferenceGraph
