import ReferenceGraph.Graph.Basic

/-!
# The compact JSON format

The names of the nodes are listed once, and each edge is a pair of positions in that list. The text
has no blanks, the keys of an object are in alphabetical order, and a line feed ends it.
-/

namespace ReferenceGraph

namespace Json

/-- The digit for a number below sixteen. -/
def hexDigit (n : Nat) : Char := Nat.digitChar n

/-- How a character is written inside a string: quotes, backslashes and control characters are
escaped, everything else stands for itself. -/
def escape (c : Char) : List Char :=
  if c = '"' then ['\\', '"']
  else if c = '\\' then ['\\', '\\']
  else if c = '\x08' then ['\\', 'b']
  else if c = '\x0c' then ['\\', 'f']
  else if c = '\n' then ['\\', 'n']
  else if c = '\x0d' then ['\\', 'r']
  else if c = '\t' then ['\\', 't']
  else if c.toNat < 0x20 then
    ['\\', 'u', '0', '0', hexDigit (c.toNat / 16), hexDigit (c.toNat % 16)]
  else [c]

/-- A text as a JSON string. -/
def string (s : String) : String :=
  "\"" ++ String.ofList (s.toList.flatMap escape) ++ "\""

/-- A number. -/
def number (n : Nat) : String := toString n

/-- An array of values that are already written. -/
def array (values : List String) : String := "[" ++ ",".intercalate values ++ "]"

/-- An object of members whose values are already written. -/
def object (members : List (String × String)) : String :=
  "\x7b" ++ ",".intercalate (members.map fun (key, value) => string key ++ ":" ++ value) ++ "\x7d"

/-- The graph as compact JSON. -/
def render (kind : Granularity) (g : Graph) : String :=
  object
    [("edges", array (g.arcs.toList.map fun a => array [number a.source, number a.target])),
      ("meta", object
        [("edges", number g.edgeCount),
          ("granularity", string kind.text),
          ("nodes", number g.nodeCount)]),
      ("nodes", array (g.ids.map string))] ++ "\n"

end Json

end ReferenceGraph
