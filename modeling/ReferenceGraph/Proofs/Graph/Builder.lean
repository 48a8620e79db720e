import ReferenceGraph.Graph.Basic
import ReferenceGraph.Proofs.Lists.Distinct

/-!
# What a builder has collected

A `Builder` keeps three things in step: the graph, the index of each name, and the set of index
pairs that are joined. Repetitions are found on index pairs, while the result is described in names,
so the index has to be injective all along.

* `Builder.Consistent`: the three agree. `Consistent.node` and `Consistent.arc` are the two steps
  that keep it.
* `Builder.WellFormed`: between two edges, the nodes are moreover the ends of the arcs, in the order
  of their first mention. `WellFormed.submit` is the step and `WellFormed.submitAll` the run.
* `submitAll_eraseDups`: edges may be submitted without their repetitions, with the same result.
* `builder_refines_first_occurrences`: what a builder holds after any sequence of edges.
-/

namespace ReferenceGraph

private theorem getElem?_concat_eq_some_iff {α : Type} {l : List α} {a x : α} {i : Nat} :
    (l ++ [a])[i]? = some x ↔ l[i]? = some x ∨ i = l.length ∧ a = x := by
  rw [List.getElem?_append]
  split
  · next hi =>
    constructor
    · exact .inl
    · rintro (h | ⟨rfl, -⟩)
      · exact h
      · omega
  · next hi =>
    rw [List.getElem?_singleton, List.getElem?_eq_none (by omega)]
    split
    · simp; omega
    · simp; omega

/-- The two ends of an edge, the source first. -/
def Edge.ends (e : Edge) : List String := [e.source, e.target]

/-- The arc joins the nodes that its edge names. -/
def Graph.Joins (g : Graph) (a : Arc) : Prop :=
  g.ids[a.source]? = some a.edge.source ∧ g.ids[a.target]? = some a.edge.target

theorem Graph.Joins.addNode {g : Graph} {a : Arc} (h : g.Joins a) (n : Node) :
    (g.addNode n).Joins a := by
  simp only [Joins, ids_addNode, getElem?_concat_eq_some_iff]
  exact ⟨.inl h.1, .inl h.2⟩

namespace Builder

/-- The graph, the index and the set of pairs of a builder agree. -/
structure Consistent (b : Builder) : Prop where
  ids_nodup : b.graph.ids.Nodup
  edges_nodup : b.graph.edges.Nodup
  joins : ∀ a ∈ b.graph.arcs, b.graph.Joins a
  kinds : ∀ n ∈ b.graph.nodes, n.kind = b.kind
  index_iff : ∀ (id : String) (i : Nat), b.index[id]? = some i ↔ b.graph.ids[i]? = some id
  mem_seen_iff : ∀ p, p ∈ b.seen ↔ ∃ a ∈ b.graph.arcs, p = (a.source, a.target)

theorem consistent_empty (kind : Granularity) : (empty kind).Consistent where
  ids_nodup := List.nodup_nil
  edges_nodup := List.nodup_nil
  joins a ha := by simp [empty, Graph.empty] at ha
  kinds n hn := by simp [empty, Graph.empty] at hn
  index_iff id i := by simp [empty, Graph.ids, Graph.empty]
  mem_seen_iff p := by simp [empty, Graph.empty]

namespace Consistent

variable {b : Builder}

theorem index_eq_none (h : b.Consistent) {id : String} (hid : id ∉ b.graph.ids) :
    b.index[id]? = none := by
  rw [Option.eq_none_iff_forall_ne_some]
  intro i hi
  exact hid (List.mem_of_getElem? ((h.index_iff id i).mp hi))

/-- The index of a name is the only place of the name. -/
theorem getElem?_inj (h : b.Consistent) {i j : Nat} {id : String}
    (hi : b.graph.ids[i]? = some id) (hj : b.graph.ids[j]? = some id) : i = j := by
  rw [← h.index_iff] at hi hj
  rw [hi] at hj
  exact Option.some.inj hj

/-! ## A node -/

theorem addNode (h : b.Consistent) {id : String} (hid : id ∉ b.graph.ids) :
    Consistent { b with
      graph := b.graph.addNode ⟨id, b.kind⟩
      index := b.index.insert id b.graph.nodeCount } where
  ids_nodup := by
    rw [Graph.ids_addNode, ← List.concat_eq_append]
    exact h.ids_nodup.concat hid
  edges_nodup := h.edges_nodup
  joins a ha := (h.joins a ha).addNode _
  kinds n hn := by
    rcases Array.mem_push.mp hn with hn | rfl
    · exact h.kinds n hn
    · rfl
  index_iff x i := by
    rw [Std.HashMap.getElem?_insert, Graph.ids_addNode, getElem?_concat_eq_some_iff,
      Graph.length_ids]
    by_cases hx : id = x
    · subst hx
      have hi : b.graph.ids[i]? ≠ some id := fun hi => hid (List.mem_of_getElem? hi)
      simp [hi, eq_comm]
    · simp [hx, h.index_iff]
  mem_seen_iff := h.mem_seen_iff

theorem node_of_mem (h : b.Consistent) {id : String} (hid : id ∈ b.graph.ids) :
    ∃ i, b.node id = (b, i) ∧ b.graph.ids[i]? = some id := by
  obtain ⟨i, hi⟩ := List.mem_iff_getElem?.mp hid
  have hx := (h.index_iff id i).mpr hi
  exact ⟨i, by simp [node, hx], hi⟩

/-- Naming a node keeps the builder consistent, adds the name unless it is there, and gives the
index of the name. -/
theorem node (h : b.Consistent) (id : String) :
    ∃ b' i, b.node id = (b', i) ∧ b'.Consistent ∧
      b'.graph.ids = (b.graph.ids ++ [id]).eraseDups ∧ b'.graph.arcs = b.graph.arcs ∧
      b'.kind = b.kind ∧ b'.graph.ids[i]? = some id := by
  by_cases hid : id ∈ b.graph.ids
  · obtain ⟨i, hn, hi⟩ := h.node_of_mem hid
    refine ⟨b, i, hn, h, ?_, rfl, rfl, hi⟩
    rw [eraseDups_concat_of_mem hid, eraseDups_of_nodup h.ids_nodup]
  · refine ⟨_, b.graph.nodeCount, by simp only [Builder.node, h.index_eq_none hid],
      h.addNode hid, ?_, rfl, rfl, ?_⟩
    · rw [eraseDups_concat_of_not_mem hid, eraseDups_of_nodup h.ids_nodup, Graph.ids_addNode]
    · simp [← Graph.length_ids]

/-! ## An arc -/

/-- A pair of indices is joined already exactly if the edge between the names is there: the index
is injective. -/
theorem mem_seen_iff_mem_edges (h : b.Consistent) {a : Arc} (ha : b.graph.Joins a) :
    (a.source, a.target) ∈ b.seen ↔ a.edge ∈ b.graph.edges := by
  rw [h.mem_seen_iff]
  simp only [Graph.edges, List.mem_map, Array.mem_toList_iff]
  constructor
  · rintro ⟨c, hc, he⟩
    obtain ⟨hs, ht⟩ := Prod.mk.inj he
    obtain ⟨hcs, hct⟩ := h.joins c hc
    rw [← hs, ha.1] at hcs
    rw [← ht, ha.2] at hct
    exact ⟨c, hc, (Edge.ext (Option.some.inj hcs) (Option.some.inj hct)).symm⟩
  · rintro ⟨c, hc, he⟩
    obtain ⟨hcs, hct⟩ := h.joins c hc
    rw [he] at hcs hct
    exact ⟨c, hc, by rw [h.getElem?_inj ha.1 hcs, h.getElem?_inj ha.2 hct]⟩

theorem addArc (h : b.Consistent) {a : Arc} (ha : b.graph.Joins a) (he : a.edge ∉ b.graph.edges) :
    Consistent { b with
      graph := b.graph.addArc a
      seen := b.seen.insert (a.source, a.target) } where
  ids_nodup := h.ids_nodup
  edges_nodup := by
    rw [Graph.edges_addArc, ← List.concat_eq_append]
    exact h.edges_nodup.concat he
  joins c hc := by
    rcases Array.mem_push.mp hc with hc | rfl
    · exact h.joins c hc
    · exact ha
  kinds := h.kinds
  index_iff := h.index_iff
  mem_seen_iff p := by
    simp only [Std.HashSet.mem_insert, h.mem_seen_iff, Graph.addArc, Array.mem_push, beq_iff_eq]
    constructor
    · rintro (rfl | ⟨c, hc, rfl⟩)
      · exact ⟨a, .inr rfl, rfl⟩
      · exact ⟨c, .inl hc, rfl⟩
    · rintro ⟨c, hc | rfl, rfl⟩
      · exact .inr ⟨c, hc, rfl⟩
      · exact .inl rfl

/-- Adding an arc between the nodes of its edge keeps the builder consistent, and adds the edge
unless it is there. -/
theorem arc (h : b.Consistent) {a : Arc} (ha : b.graph.Joins a) :
    ∃ b' isNew, b.arc a = (b', isNew) ∧ b'.Consistent ∧
      b'.graph.edges = (b.graph.edges ++ [a.edge]).eraseDups ∧ b'.graph.ids = b.graph.ids ∧
      b'.kind = b.kind ∧ (isNew = true ↔ a.edge ∉ b.graph.edges) := by
  have hseen := h.mem_seen_iff_mem_edges ha
  by_cases he : a.edge ∈ b.graph.edges
  · refine ⟨b, false, by simp [Builder.arc, hseen.mpr he], h, ?_, rfl, rfl, by simp [he]⟩
    rw [eraseDups_concat_of_mem he, eraseDups_of_nodup h.edges_nodup]
  · have hb : b.arc a =
        ({ b with
            graph := b.graph.addArc a
            seen := b.seen.insert (a.source, a.target) }, true) := by
      simp [Builder.arc, mt hseen.mp he]
    refine ⟨_, _, hb, h.addArc ha he, ?_, rfl, rfl, by simp [he]⟩
    rw [eraseDups_concat_of_not_mem he, eraseDups_of_nodup h.edges_nodup, Graph.edges_addArc]

end Consistent

/-! ## An edge -/

/-- A builder between two edges: its parts agree, and its nodes are the ends of its edges in the
order of their first mention. -/
structure WellFormed (b : Builder) : Prop extends b.Consistent where
  ids_eq : b.graph.ids = (b.graph.edges.flatMap Edge.ends).eraseDups

theorem wellFormed_empty (kind : Granularity) : (empty kind).WellFormed where
  toConsistent := consistent_empty kind
  ids_eq := rfl

namespace WellFormed

variable {b : Builder}

/-- Submitting an edge adds it, and its ends as nodes, unless they are there. -/
theorem submit (h : b.WellFormed) (e : Edge) :
    ∃ b' isNew, b.submit e = (b', isNew) ∧ b'.WellFormed ∧
      b'.graph.edges = (b.graph.edges ++ [e]).eraseDups ∧
      b'.graph.ids = (b.graph.ids ++ e.ends).eraseDups ∧
      b'.kind = b.kind ∧ (isNew = true ↔ e ∉ b.graph.edges) := by
  obtain ⟨b₁, i, hn₁, h₁, ids₁, arcs₁, kind₁, hi⟩ := h.toConsistent.node e.source
  obtain ⟨b₂, j, hn₂, h₂, ids₂, arcs₂, kind₂, hj⟩ := h₁.node e.target
  -- The index of the source stays valid when the target becomes a node.
  have hi₂ : b₂.graph.ids[i]? = some e.source := by
    rw [ids₂]
    exact getElem?_eraseDups_append h₁.ids_nodup hi _
  obtain ⟨b₃, isNew, ha, h₃, edges₃, ids₃, kind₃, hnew⟩ := h₂.arc (a := ⟨i, j, e⟩) ⟨hi₂, hj⟩
  have edges₂ : b₂.graph.edges = b.graph.edges := by
    simp only [Graph.edges, arcs₂, arcs₁]
  have ids : b₃.graph.ids = (b.graph.ids ++ e.ends).eraseDups := by
    rw [ids₃, ids₂, ids₁, eraseDups_append_congr (eraseDups_eraseDups _)]
    simp [Edge.ends]
  rw [edges₂] at edges₃ hnew
  refine ⟨b₃, isNew, by simp [Builder.submit, hn₁, hn₂, ha], ⟨h₃, ?_⟩, edges₃, ids,
    kind₃.trans (kind₂.trans kind₁), hnew⟩
  rw [ids, edges₃, eraseDups_flatMap_eraseDups, h.ids_eq,
    eraseDups_append_congr (eraseDups_eraseDups _)]
  simp

theorem mem_ids (h : b.WellFormed) {e : Edge} (he : e ∈ b.graph.edges) {id : String}
    (hid : id ∈ e.ends) : id ∈ b.graph.ids := by
  rw [h.ids_eq, List.mem_eraseDups]
  exact List.mem_flatMap.mpr ⟨e, he, hid⟩

/-- Submitting an edge again changes nothing. -/
theorem submit_of_mem (h : b.WellFormed) {e : Edge} (he : e ∈ b.graph.edges) :
    b.submit e = (b, false) := by
  have hs : e.source ∈ b.graph.ids := h.mem_ids he (by simp [Edge.ends])
  have ht : e.target ∈ b.graph.ids := h.mem_ids he (by simp [Edge.ends])
  obtain ⟨i, hi, hsi⟩ := h.node_of_mem hs
  obtain ⟨j, hj, htj⟩ := h.node_of_mem ht
  have hseen := (h.mem_seen_iff_mem_edges (a := ⟨i, j, e⟩) ⟨hsi, htj⟩).mpr he
  simp [Builder.submit, hi, hj, Builder.arc, hseen]

/-- Every node is an end of some edge. -/
theorem exists_arc (h : b.WellFormed) {i : Nat} (hi : i < b.graph.nodeCount) :
    ∃ a ∈ b.graph.arcs, a.source = i ∨ a.target = i := by
  rw [← Graph.length_ids] at hi
  obtain ⟨id, hid⟩ : ∃ id, b.graph.ids[i]? = some id := ⟨_, List.getElem?_eq_getElem hi⟩
  have hmem := List.mem_of_getElem? hid
  rw [h.ids_eq, List.mem_eraseDups] at hmem
  obtain ⟨e, he, hend⟩ := List.mem_flatMap.mp hmem
  obtain ⟨a, ha, rfl⟩ := List.mem_map.mp he
  obtain ⟨hs, ht⟩ := h.joins a (Array.mem_toList_iff.mp ha)
  refine ⟨a, Array.mem_toList_iff.mp ha, ?_⟩
  simp only [Edge.ends, List.mem_cons, List.not_mem_nil, or_false] at hend
  rcases hend with hend | hend
  · exact .inl (h.getElem?_inj hs (by rw [hid, hend]))
  · exact .inr (h.getElem?_inj ht (by rw [hid, hend]))

end WellFormed

/-! ## A sequence of edges -/

theorem submitAll_append (b : Builder) (es fs : List Edge) :
    b.submitAll (es ++ fs) =
      (((b.submitAll es).1.submitAll fs).1,
        (b.submitAll es).2 ++ ((b.submitAll es).1.submitAll fs).2) := by
  induction es generalizing b with
  | nil => rfl
  | cons e es ih =>
    simp only [List.cons_append, submitAll, ih]
    split <;> rfl

namespace WellFormed

variable {b : Builder}

/-- Submitting edges adds those that are not there yet, each once and in their order, and their
ends likewise. -/
theorem submitAll (h : b.WellFormed) (es : List Edge) :
    (b.submitAll es).1.WellFormed ∧
      (b.submitAll es).1.graph.edges = (b.graph.edges ++ es).eraseDups ∧
      (b.submitAll es).1.graph.ids = (b.graph.ids ++ es.flatMap Edge.ends).eraseDups ∧
      (b.submitAll es).1.kind = b.kind := by
  induction es generalizing b with
  | nil =>
    refine ⟨h, ?_, ?_, rfl⟩
    · simp [Builder.submitAll, eraseDups_of_nodup h.edges_nodup]
    · simp [Builder.submitAll, eraseDups_of_nodup h.ids_nodup]
  | cons e es ih =>
    obtain ⟨b₁, isNew, hs, h₁, edges₁, ids₁, kind₁, -⟩ := h.submit e
    obtain ⟨h₂, edges₂, ids₂, kind₂⟩ := ih h₁
    simp only [Builder.submitAll, hs]
    refine ⟨h₂, edges₂.trans ?_, ids₂.trans ?_, kind₂.trans kind₁⟩
    · rw [edges₁, eraseDups_append_congr (eraseDups_eraseDups _)]
      simp
    · rw [ids₁, eraseDups_append_congr (eraseDups_eraseDups _)]
      simp

/-- Edges may be submitted without their repetitions. -/
theorem submitAll_eraseDups (h : b.WellFormed) (es : List Edge) :
    b.submitAll es.eraseDups = b.submitAll es := by
  induction es using List.reverseRecOn with
  | nil => rfl
  | append_singleton es e ih =>
    by_cases he : e ∈ es
    · obtain ⟨h', edges', -, -⟩ := h.submitAll es
      have hmem : e ∈ (b.submitAll es).1.graph.edges := by
        rw [edges', List.mem_eraseDups]
        exact List.mem_append_right _ he
      rw [eraseDups_concat_of_mem he, ih, submitAll_append]
      simp [Builder.submitAll, h'.submit_of_mem hmem]
    · rw [eraseDups_concat_of_not_mem he, submitAll_append, submitAll_append, ih]

theorem submitAll_congr (h : b.WellFormed) {es fs : List Edge} (he : es.eraseDups = fs.eraseDups) :
    b.submitAll es = b.submitAll fs := by
  rw [← h.submitAll_eraseDups es, he, h.submitAll_eraseDups]

end WellFormed

/-- What a builder holds after any sequence of edges, so also after each prefix of a longer one. Its
edges are the distinct edges in the order of their first submission, and its nodes the distinct ends
in the order of their first mention; arcs, index and pairs agree with both; every node is an end of
an arc. A further edge is new exactly if it has not been submitted, and changes nothing
otherwise. -/
theorem builder_refines_first_occurrences (kind : Granularity) (es : List Edge) :
    let b := ((empty kind).submitAll es).1
    b.graph.edges = es.eraseDups ∧
      b.graph.ids = (es.flatMap Edge.ends).eraseDups ∧
      b.graph.ids.Nodup ∧
      (∀ n ∈ b.graph.nodes, n.kind = kind) ∧
      (∀ a ∈ b.graph.arcs, b.graph.Joins a) ∧
      (∀ i < b.graph.nodeCount, ∃ a ∈ b.graph.arcs, a.source = i ∨ a.target = i) ∧
      (∀ (id : String) (i : Nat), b.index[id]? = some i ↔ b.graph.ids[i]? = some id) ∧
      (∀ p, p ∈ b.seen ↔ ∃ a ∈ b.graph.arcs, p = (a.source, a.target)) ∧
      ∀ e, ((b.submit e).2 = true ↔ e ∉ es) ∧ (e ∈ es → b.submit e = (b, false)) := by
  obtain ⟨h, edges, ids, hkind⟩ := (wellFormed_empty kind).submitAll es
  have hmem : ∀ e, e ∈ ((empty kind).submitAll es).1.graph.edges ↔ e ∈ es := by
    intro e
    rw [edges, List.mem_eraseDups]
    rfl
  refine ⟨edges, ids, h.ids_nodup, ?_, h.joins, fun i => h.exists_arc, h.index_iff,
    h.mem_seen_iff, fun e => ⟨?_, fun he => h.submit_of_mem ((hmem e).mpr he)⟩⟩
  · intro n hn
    rw [h.kinds n hn, hkind]
    rfl
  · obtain ⟨b', isNew, hs, -, -, -, -, hnew⟩ := h.submit e
    rw [hs, hnew, hmem]

end Builder

end ReferenceGraph
