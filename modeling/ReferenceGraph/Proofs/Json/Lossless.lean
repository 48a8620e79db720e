import ReferenceGraph.Proofs.Graph.Builder
import ReferenceGraph.Proofs.Json.Reader

/-!
# Compact JSON loses nothing

The text of a graph in compact JSON is read back as one value (`Value.ofGraph`), whatever characters
its names are made of. The value holds the names and the index pairs of the graph, and a graph that
a builder has collected is determined by these: its indices are places in the list of its names.

* `read?_render`: the value of the text of a graph.
* `newline_not_mem_string`, `newline_not_mem_array`, `newline_not_mem_object`: a text is one line.
* `Graph.map_edgeAt?_pairs`: the edges of a graph, looked up by its index pairs.
* `render_lossless`: the statement for any sequence of edges.
-/

namespace ReferenceGraph

/-- The indices of the ends of each arc. -/
def Graph.pairs (g : Graph) : List (Nat × Nat) := g.arcs.toList.map fun a => (a.source, a.target)

/-- The edge between the names at two places of a list. -/
def edgeAt? (ids : List String) (p : Nat × Nat) : Option Edge :=
  ids[p.1]?.bind fun source => ids[p.2]?.map fun target => ⟨source, target⟩

namespace Graph

variable {g : Graph}

/-- Looking up the index pairs of a graph in the list of its names gives its edges. -/
theorem map_edgeAt?_pairs (h : ∀ a ∈ g.arcs, g.Joins a) :
    g.pairs.map (edgeAt? g.ids) = g.edges.map some := by
  rw [pairs, edges, List.map_map, List.map_map]
  apply List.map_congr_left
  intro a ha
  obtain ⟨hs, ht⟩ := h a (Array.mem_toList_iff.mp ha)
  simp [edgeAt?, hs, ht]

/-- If no name occurs twice, each index pair gives the first places of the names. -/
theorem pairs_eq_map_idxOf (h : ∀ a ∈ g.arcs, g.Joins a) (hn : g.ids.Nodup) :
    g.pairs = g.edges.map fun e => (g.ids.idxOf e.source, g.ids.idxOf e.target) := by
  have hplace : ∀ (i : Nat) (id : String), g.ids[i]? = some id → i = g.ids.idxOf id := by
    intro i id hi
    obtain ⟨hlt, rfl⟩ := List.getElem?_eq_some_iff.mp hi
    exact (hn.idxOf_getElem i hlt).symm
  rw [pairs, edges, List.map_map]
  apply List.map_congr_left
  intro a ha
  obtain ⟨hs, ht⟩ := h a (Array.mem_toList_iff.mp ha)
  exact Prod.ext (hplace _ _ hs) (hplace _ _ ht)

end Graph

namespace Json

/-- An index pair as a value. -/
def Value.ofPair (p : Nat × Nat) : Value := .array [.ofNat p.1, .ofNat p.2]

/-- The value that the text of a graph stands for. -/
def Value.ofGraph (kind : Granularity) (g : Graph) : Value :=
  .object
    [("edges", .array (g.pairs.map .ofPair)),
      ("meta", .object
        [("edges", .ofNat g.edgeCount),
          ("granularity", .string kind.text),
          ("nodes", .ofNat g.nodeCount)]),
      ("nodes", .array (g.ids.map .string))]

/-! ## The value of the text -/

theorem writes_pair (i j : Nat) : Writes (array [number i, number j]) (.ofPair (i, j)) :=
  writes_array (.cons (writes_number i) (.cons (writes_number j) .nil))

/-- The text of a graph is read as its value. -/
theorem read?_render (kind : Granularity) (g : Graph) :
    read? (render kind g) = some (.ofGraph kind g) := by
  have hpairs : Writes (array (g.arcs.toList.map fun a => array [number a.source, number a.target]))
      (.array (g.pairs.map .ofPair)) := by
    apply writes_array
    rw [Graph.pairs, List.map_map, List.forall₂_map_left_iff, List.forall₂_map_right_iff,
      List.forall₂_same]
    exact fun a _ => writes_pair a.source a.target
  have hids : Writes (array (g.ids.map string)) (.array (g.ids.map .string)) := by
    apply writes_array
    rw [List.forall₂_map_left_iff, List.forall₂_map_right_iff, List.forall₂_same]
    exact fun id _ => writes_string id
  have hmeta := writes_object
    (.cons ⟨rfl, writes_number g.edgeCount⟩ <| .cons ⟨rfl, writes_string kind.text⟩ <|
      .cons ⟨rfl, writes_number g.nodeCount⟩ .nil :
    List.Forall₂ WritesMember
      [("edges", number g.edgeCount), ("granularity", string kind.text),
        ("nodes", number g.nodeCount)]
      [("edges", .ofNat g.edgeCount), ("granularity", .string kind.text),
        ("nodes", .ofNat g.nodeCount)])
  exact read?_of_writes
    (writes_object (.cons ⟨rfl, hpairs⟩ (.cons ⟨rfl, hmeta⟩ (.cons ⟨rfl, hids⟩ .nil))))

theorem text_injective {kind kind' : Granularity} (h : kind.text = kind'.text) : kind = kind' := by
  have := congrArg Granularity.ofText? h
  simpa using this

theorem Value.ofPair_injective : Function.Injective Value.ofPair := by
  intro p q h
  simp only [ofPair, ofNat, Number.ofNat, Value.array.injEq, List.cons.injEq, Value.number.injEq,
    Number.mk.injEq, true_and, and_true] at h
  exact Prod.ext h.1 h.2

theorem Value.ofGraph_inj {kind kind' : Granularity} {g g' : Graph}
    (h : Value.ofGraph kind g = Value.ofGraph kind' g') :
    kind = kind' ∧ g.ids = g'.ids ∧ g.pairs = g'.pairs := by
  simp only [ofGraph, Value.object.injEq, List.cons.injEq, Prod.mk.injEq, true_and,
    Value.array.injEq, Value.string.injEq, and_true] at h
  obtain ⟨hpairs, ⟨-, hkind, -⟩, hids⟩ := h
  exact ⟨text_injective hkind, List.map_injective_iff.mpr (fun _ _ => Value.string.inj) hids,
    List.map_injective_iff.mpr ofPair_injective hpairs⟩

/-! ## One line -/

theorem newline_not_mem_escape (c : Char) : '\n' ∉ escape c := by
  rcases escape_cases c with ⟨d, he, -, hd⟩ | ⟨hc, he⟩ | ⟨he, -, -, hc⟩
  · rw [he]
    have hne : '\n' ≠ d := by
      rintro rfl
      cases hd
    simp [hne]
  · have hdigit : ∀ d < 16, '\n' ≠ hexDigit d := by decide
    rw [he]
    simp [hdigit (c.toNat / 16) (by omega), hdigit (c.toNat % 16) (by omega)]
  · rw [he]
    have hne : '\n' ≠ c := by
      rintro rfl
      exact hc (by decide)
    simp [hne]

theorem newline_not_mem_string (s : String) : '\n' ∉ (string s).toList := by
  simp [string, newline_not_mem_escape]

theorem newline_not_mem_number (n : Nat) : '\n' ∉ (number n).toList := by
  rw [number, Nat.toString_eq_ofList_toDigits, String.toList_ofList]
  intro h
  cases toDigits_isDigit n _ h

theorem newline_not_mem_joined {values : List String} (h : ∀ v ∈ values, '\n' ∉ v.toList) :
    '\n' ∉ (",".intercalate values).toList := by
  rw [String.toList_intercalate]
  intro hmem
  rcases mem_of_mem_intercalate hmem with hmem | ⟨cs, hcs, hmem⟩
  · simp at hmem
  · obtain ⟨v, hv, rfl⟩ := List.mem_map.mp hcs
    exact h v hv hmem

theorem newline_not_mem_enclosed {s opening closing : String} (hs : '\n' ∉ s.toList)
    (ho : '\n' ∉ opening.toList) (hc : '\n' ∉ closing.toList) :
    '\n' ∉ (opening ++ s ++ closing).toList := by
  rw [String.toList_append, String.toList_append, List.mem_append, List.mem_append]
  rintro ((h | h) | h)
  · exact ho h
  · exact hs h
  · exact hc h

theorem newline_not_mem_array {values : List String} (h : ∀ v ∈ values, '\n' ∉ v.toList) :
    '\n' ∉ (array values).toList :=
  newline_not_mem_enclosed (newline_not_mem_joined h) (by decide) (by decide)

theorem newline_not_mem_object {members : List (String × String)}
    (h : ∀ m ∈ members, '\n' ∉ m.2.toList) : '\n' ∉ (object members).toList := by
  refine newline_not_mem_enclosed (newline_not_mem_joined fun v hv => ?_) (by decide) (by decide)
  obtain ⟨m, hm, rfl⟩ := List.mem_map.mp hv
  simp [newline_not_mem_string, h m hm]

/-- The text of a graph is a single line. -/
theorem exists_line_of_render (kind : Granularity) (g : Graph) :
    ∃ line : String, render kind g = line ++ "\n" ∧ '\n' ∉ line.toList := by
  have hpair : ∀ v ∈ g.arcs.toList.map fun a => array [number a.source, number a.target],
      '\n' ∉ v.toList := by
    intro v hv
    obtain ⟨a, -, rfl⟩ := List.mem_map.mp hv
    exact newline_not_mem_array (by simp [newline_not_mem_number])
  have hid : ∀ v ∈ g.ids.map string, '\n' ∉ v.toList := by
    intro v hv
    obtain ⟨id, -, rfl⟩ := List.mem_map.mp hv
    exact newline_not_mem_string id
  refine ⟨_, rfl, newline_not_mem_object ?_⟩
  simp only [List.forall_mem_cons, List.not_mem_nil, false_implies, implies_true, and_true]
  refine ⟨newline_not_mem_array hpair, newline_not_mem_object ?_, newline_not_mem_array hid⟩
  simp [newline_not_mem_number, newline_not_mem_string]

/-! ## Graphs that have been collected -/

/-- Compact JSON loses nothing of a graph. Its text is read as a JSON value, and the value holds the
names in the order of their first mention, the edges as pairs of places in the list of these names
in the order of their first submission, the lengths of both lists, and the granularity. The text is
one line with its line feed. Graphs with the same text have the same names and edges, and the texts
were made for the same granularity. -/
theorem render_lossless (kind nodeKind : Granularity) (es : List Edge) :
    let g := ((Builder.empty nodeKind).submitAll es).1.graph
    let ids := (es.flatMap Edge.ends).eraseDups
    let pairs := es.eraseDups.map fun e => (ids.idxOf e.source, ids.idxOf e.target)
    read? (render kind g) = some (.object
        [("edges", .array (pairs.map fun p => .array [.ofNat p.1, .ofNat p.2])),
          ("meta", .object
            [("edges", .ofNat pairs.length),
              ("granularity", .string kind.text),
              ("nodes", .ofNat ids.length)]),
          ("nodes", .array (ids.map .string))]) ∧
      (∀ p ∈ pairs, p.1 < ids.length ∧ p.2 < ids.length) ∧
      (render kind g).toList.count '\n' = 1 ∧ (render kind g).toList.getLast? = some '\n' ∧
      ∀ kind' nodeKind' es',
        let g' := ((Builder.empty nodeKind').submitAll es').1.graph
        render kind' g' = render kind g → kind' = kind ∧ g'.ids = g.ids ∧ g'.edges = g.edges := by
  intro g ids pairs
  have hcollected : ∀ nodeKind es, let b := ((Builder.empty nodeKind).submitAll es).1
      b.WellFormed ∧ b.graph.edges = es.eraseDups ∧
        b.graph.ids = (es.flatMap Edge.ends).eraseDups := by
    intro nodeKind es
    obtain ⟨h, hedges, hids, -⟩ := (Builder.wellFormed_empty nodeKind).submitAll es
    exact ⟨h, hedges, hids⟩
  obtain ⟨hg, hedges, hids⟩ := hcollected nodeKind es
  have hpairs : g.pairs = pairs := by
    rw [Graph.pairs_eq_map_idxOf hg.joins hg.ids_nodup, hedges, hids]
  refine ⟨?_, ?_, ?_, ?_, ?_⟩
  · have hnodes : g.nodeCount = ids.length := by
      rw [← Graph.length_ids, hids]
    have harcs : g.edgeCount = pairs.length := by
      rw [← hpairs, Graph.pairs, List.length_map, Array.length_toList, Graph.edgeCount]
    rw [read?_render, Value.ofGraph, hpairs, hids, hnodes, harcs]
    rfl
  · intro p hp
    obtain ⟨e, he, rfl⟩ := List.mem_map.mp hp
    have hmem : ∀ id ∈ e.ends, id ∈ ids := fun id hid =>
      List.mem_eraseDups.mpr (List.mem_flatMap.mpr ⟨e, List.mem_eraseDups.mp he, hid⟩)
    exact ⟨List.idxOf_lt_length_of_mem (hmem _ (by simp [Edge.ends])),
      List.idxOf_lt_length_of_mem (hmem _ (by simp [Edge.ends]))⟩
  · obtain ⟨line, hline, hnot⟩ := exists_line_of_render kind g
    rw [hline, String.toList_append, List.count_append, List.count_eq_zero.mpr hnot]
    rfl
  · rw [render, String.toList_append]
    exact List.getLast?_concat
  · intro kind' nodeKind' es' g' htext
    obtain ⟨hg', -, -⟩ := hcollected nodeKind' es'
    have hvalue := congrArg read? htext
    rw [read?_render, read?_render, Option.some.injEq] at hvalue
    obtain ⟨hkind, hids', hpairs'⟩ := Value.ofGraph_inj hvalue
    refine ⟨hkind, hids', ?_⟩
    have hlookup := (Graph.map_edgeAt?_pairs hg'.joins).symm
    rw [hids', hpairs', Graph.map_edgeAt?_pairs hg.joins] at hlookup
    exact List.map_injective_iff.mpr (fun _ _ => Option.some.inj) hlookup

end Json

end ReferenceGraph
