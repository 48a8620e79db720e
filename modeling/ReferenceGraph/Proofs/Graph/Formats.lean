import ReferenceGraph.Graph.Dot
import ReferenceGraph.Proofs.Json.Lossless

/-!
# Both formats describe the same graph

DOT writes the names of an edge between quotes as they are, and compact JSON writes the places of
the names in a list. As long as no name holds a quote, the quotes cut a DOT text into the names and
what stands between them, so the edges can be read back from it, and they are the edges that the
index pairs of the JSON text give.

* `Dot.read`: the edges of a DOT text. `Dot.read_render` for a graph whose names hold no quote.
* `Json.edges?`: the edges of a JSON text, looked up by their index pairs. `Json.edges?_render`
  for a graph whose arcs join the nodes of their edges.
* `formats_agree`: the statement for any sequence of edges.
-/

namespace ReferenceGraph

/-- No end of the edge holds a quote. -/
def Edge.Unquoted (e : Edge) : Prop := '"' ∉ e.source.toList ∧ '"' ∉ e.target.toList

instance (e : Edge) : Decidable e.Unquoted :=
  inferInstanceAs (Decidable ('"' ∉ e.source.toList ∧ '"' ∉ e.target.toList))

namespace Dot

/-- The edges between the names in a text that has been cut at its quotes: of four pieces the second
and the last are names. -/
def edgesOfPieces : List (List Char) → List Edge
  | _ :: source :: _ :: target :: rest =>
    ⟨String.ofList source, String.ofList target⟩ :: edgesOfPieces rest
  | _ => []

/-- The edges of a DOT text. -/
def read (text : String) : List Edge := edgesOfPieces (text.toList.splitOn '"')

theorem statement_toList (e : Edge) :
    (statement e).toList = [' ', ' '] ++ '"' :: (e.source.toList ++ '"' ::
      ([' ', '-', '>', ' '] ++ '"' :: (e.target.toList ++ '"' :: [';', '\n']))) := by
  simp [statement]

/-- A statement behind a text without quotes is read as its edge, and what ends it belongs to the
text in front of the next one. -/
theorem edgesOfPieces_statement {e : Edge} (he : e.Unquoted) {before : List Char}
    (hb : '"' ∉ before) (rest : List Char) :
    edgesOfPieces ((before ++ ((statement e).toList ++ rest)).splitOn '"') =
      e :: edgesOfPieces (([';', '\n'] ++ rest).splitOn '"') := by
  have hindent : '"' ∉ before ++ [' ', ' '] := by simp [hb]
  have harrow : '"' ∉ [' ', '-', '>', ' '] := by decide
  have htext : before ++ ((statement e).toList ++ rest) =
      (before ++ [' ', ' ']) ++ '"' :: (e.source.toList ++ '"' ::
        ([' ', '-', '>', ' '] ++ '"' :: (e.target.toList ++ '"' :: ([';', '\n'] ++ rest)))) := by
    simp [statement_toList]
  rw [htext, List.splitOn_append_cons_self_of_not_mem hindent,
    List.splitOn_append_cons_self_of_not_mem he.1, List.splitOn_append_cons_self_of_not_mem harrow,
    List.splitOn_append_cons_self_of_not_mem he.2, edgesOfPieces, String.ofList_toList,
    String.ofList_toList]

theorem edgesOfPieces_statements {es : List Edge} (h : ∀ e ∈ es, e.Unquoted)
    {before after : List Char} (hb : '"' ∉ before) (ha : '"' ∉ after) :
    edgesOfPieces ((before ++ (es.flatMap (fun e => (statement e).toList) ++ after)).splitOn '"') =
      es := by
  induction es generalizing before with
  | nil =>
    have hpiece : '"' ∉ before ++ after := by simp [hb, ha]
    rw [List.flatMap_nil, List.nil_append, List.splitOn_eq_singleton hpiece]
    rfl
  | cons e es ih =>
    rw [List.flatMap_cons, List.append_assoc, edgesOfPieces_statement (h e (by simp)) hb,
      ih (fun e' he' => h e' (by simp [he'])) (by decide)]

/-- The edges of a graph whose names hold no quote are read from its DOT text. -/
theorem read_render {g : Graph} (h : ∀ e ∈ g.edges, e.Unquoted) : read (render g) = g.edges := by
  have htext : (render g).toList = "digraph G \x7b\n".toList ++
      (g.edges.flatMap (fun e => (statement e).toList) ++ "\x7d\n".toList) := by
    simp [render, List.flatMap_map]
  rw [read, htext]
  exact edgesOfPieces_statements h (by decide) (by decide)

/-- The ends of an edge stand between quotes in the DOT text of its graph. -/
theorem exists_quoted_of_mem_ends {g : Graph} {e : Edge} (he : e ∈ g.edges) {id : String}
    (hid : id ∈ e.ends) : ∃ before after, render g = before ++ "\"" ++ id ++ "\"" ++ after := by
  obtain ⟨before, after, hedges⟩ := List.append_of_mem he
  have hrender : ∃ opening closing, render g = opening ++ statement e ++ closing := by
    refine ⟨"digraph G \x7b\n" ++ String.join (before.map statement),
      String.join (after.map statement) ++ "\x7d\n", ?_⟩
    rw [render, hedges, List.map_append, List.map_cons, String.join_append, String.join_cons]
    simp only [String.append_assoc]
  obtain ⟨opening, closing, hrender⟩ := hrender
  simp only [Edge.ends, List.mem_cons, List.not_mem_nil, or_false] at hid
  rcases hid with rfl | rfl
  · refine ⟨opening ++ "  ", " -> \"" ++ e.target ++ "\";\n" ++ closing, ?_⟩
    rw [hrender, statement]
    simp only [String.append_assoc]
    rfl
  · refine ⟨opening ++ "  \"" ++ e.source ++ "\" -> ", ";\n" ++ closing, ?_⟩
    rw [hrender, statement]
    simp only [String.append_assoc]
    rfl

end Dot

namespace Json

/-! ## The edges of a JSON text -/

/-- The number, if it is a natural one. -/
def Value.nat? : Value → Option Nat
  | .number ⟨false, n, 0⟩ => some n
  | _ => none

def Value.string? : Value → Option String
  | .string s => some s
  | _ => none

/-- The pair of numbers, if the value is an array of two. -/
def Value.pair? : Value → Option (Nat × Nat)
  | .array [v, w] => v.nat?.bind fun i => w.nat?.map fun j => (i, j)
  | _ => none

/-- The values of the array under the key of an object, each read by `item?`. -/
def Value.items? {α : Type} (item? : Value → Option α) (key : String) (v : Value) :
    Option (List α) :=
  match v.member? key with
  | some (.array values) => values.mapM item?
  | _ => none

/-- The edges of a JSON text: its index pairs, looked up in the list of its nodes. -/
def edges? (text : String) : Option (List Edge) := do
  let v ← read? text
  let ids ← v.items? Value.string? "nodes"
  let pairs ← v.items? Value.pair? "edges"
  pairs.mapM (edgeAt? ids)

/-- A list is read element by element if each element is. -/
theorem mapM_of_map_eq {α β : Type} {f : α → Option β} {l : List α} {m : List β}
    (h : l.map f = m.map some) : l.mapM f = some m := by
  calc l.mapM f
      _ = (l.map f).mapM id := by rw [List.mapM_map]; rfl
      _ = (m.map some).mapM id := by rw [h]
      _ = m.mapM fun b => pure b := by rw [List.mapM_map]; rfl
      _ = some m := by rw [List.mapM_pure, List.map_id']; rfl

theorem nodes_ofGraph (kind : Granularity) (g : Graph) :
    (Value.ofGraph kind g).items? Value.string? "nodes" = some g.ids := by
  have hmember : (Value.ofGraph kind g).member? "nodes" = some (.array (g.ids.map .string)) := rfl
  rw [Value.items?, hmember]
  apply mapM_of_map_eq
  rw [List.map_map]
  rfl

theorem edges_ofGraph (kind : Granularity) (g : Graph) :
    (Value.ofGraph kind g).items? Value.pair? "edges" = some g.pairs := by
  have hmember : (Value.ofGraph kind g).member? "edges" = some (.array (g.pairs.map .ofPair)) := rfl
  rw [Value.items?, hmember]
  apply mapM_of_map_eq
  rw [List.map_map]
  rfl

/-- The index pairs of a JSON text give the edges of its graph. -/
theorem edges?_render {g : Graph} (h : ∀ a ∈ g.arcs, g.Joins a) (kind : Granularity) :
    edges? (render kind g) = some g.edges := by
  rw [edges?, read?_render, Option.bind_eq_bind, Option.bind_some, nodes_ofGraph, edges_ofGraph]
  exact mapM_of_map_eq (Graph.map_edgeAt?_pairs h)

end Json

/-! ## Graphs that have been collected -/

/-- Both formats describe the same graph. If no end of an edge holds a quote, the edges are read
from the DOT text, and they are those that the index pairs of the JSON text give; graphs with the
same DOT text have the same edges; and every node stands in the text between quotes. -/
theorem formats_agree {es : List Edge} (h : ∀ e ∈ es, e.Unquoted) (kind nodeKind : Granularity) :
    let g := ((Builder.empty nodeKind).submitAll es).1.graph
    Dot.read (Dot.render g) = es.eraseDups ∧
      Json.edges? (Json.render kind g) = some (Dot.read (Dot.render g)) ∧
      (∀ nodeKind' es', (∀ e ∈ es', e.Unquoted) →
        let g' := ((Builder.empty nodeKind').submitAll es').1.graph
        Dot.render g' = Dot.render g → g'.edges = g.edges) ∧
      ∀ id ∈ g.ids, ∃ before after, Dot.render g = before ++ "\"" ++ id ++ "\"" ++ after := by
  intro g
  have hread : ∀ nodeKind es, (∀ e ∈ es, e.Unquoted) →
      let g := ((Builder.empty nodeKind).submitAll es).1.graph
      Dot.read (Dot.render g) = g.edges := by
    intro nodeKind es hes
    obtain ⟨-, hedges, -⟩ := (Builder.wellFormed_empty nodeKind).submitAll es
    refine Dot.read_render fun e he => hes e ?_
    rw [hedges] at he
    exact List.mem_eraseDups.mp he
  obtain ⟨hg, hedges, -⟩ := (Builder.wellFormed_empty nodeKind).submitAll es
  refine ⟨(hread nodeKind es h).trans hedges, ?_, ?_, ?_⟩
  · rw [Json.edges?_render hg.joins, hread nodeKind es h]
  · intro nodeKind' es' h' g' htext
    rw [← hread nodeKind' es' h', ← hread nodeKind es h, htext]
  · intro id hid
    rw [hg.ids_eq, List.mem_eraseDups] at hid
    obtain ⟨e, he, hend⟩ := List.mem_flatMap.mp hid
    exact Dot.exists_quoted_of_mem_ends he hend

/-- Names that look like DOT, an empty name and a repeated edge. -/
theorem formats_agree_on_dot_like_names :
    let es : List Edge := [⟨"a;\n  b -> c", "\x7d\n"⟩, ⟨"", "\\"⟩, ⟨"a;\n  b -> c", "\x7d\n"⟩]
    let g := ((Builder.empty .classes).submitAll es).1.graph
    (∀ e ∈ es, e.Unquoted) ∧ Dot.read (Dot.render g) = es.take 2 ∧
      Json.edges? (Json.render .packages g) = some (es.take 2) := by
  intro es g
  have hes : ∀ e ∈ es, e.Unquoted := by decide
  have hdups : es.eraseDups = es.take 2 := by decide
  obtain ⟨hdot, hjson, -, -⟩ := formats_agree hes .packages .classes
  rw [hdups] at hdot
  exact ⟨hes, hdot, hjson.trans (congrArg some hdot)⟩

end ReferenceGraph
