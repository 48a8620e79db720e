import ReferenceGraph.Graph.Dot
import ReferenceGraph.Graph.Json

/-!
# Formats of a graph

The texts that a graph can be written as.
-/

namespace ReferenceGraph

/-- A way of writing a graph. -/
inductive Format where
  | dot
  | jsonCompact
deriving DecidableEq, Repr

/-- The word for the format. -/
def Format.text : Format → String
  | dot => "dot"
  | jsonCompact => "json-compact"

/-- The format with this word. -/
def Format.ofText? : String → Option Format
  | "dot" => some dot
  | "json-compact" => some jsonCompact
  | _ => none

@[simp] theorem Format.ofText?_text (f : Format) : ofText? f.text = some f := by
  cases f <;> rfl

/-- The graph in the format. -/
def Graph.render (g : Graph) (kind : Granularity) : Format → String
  | .dot => Dot.render g
  | .jsonCompact => Json.render kind g

end ReferenceGraph
