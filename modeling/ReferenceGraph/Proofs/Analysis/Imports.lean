import ReferenceGraph.Proofs.Analysis.Collect
import ReferenceGraph.Proofs.Source.Redundancy

/-!
# Imports and the graph

A reading of source files that keeps the import table empty finds fewer references, but the same
distinct ones (`eraseDups_referencesFrom`). The graph takes each edge once, so it is the same graph
for both readings, down to the order of its nodes and arcs.

* `summarizeDirect`: the reading without imports.
* `submitFiles_congr`: readings with the same distinct edges lead to the same builder.
* `graph_independent_of_imports`: the statement for a file and for any list of files.
-/

namespace ReferenceGraph

/-- The reading of a source file that keeps its import table empty, so that only qualified names
refer. -/
def summarizeDirect (relative : Path) (source : Bytes) : Except FileError Summary :=
  (summarize relative source).map fun s =>
    { s with imports := 0, references := directReferences (sourceLines source) }

theorem summarize_cases (relative : Path) (source : Bytes) :
    (∃ e, summarize relative source = .error e ∧ summarizeDirect relative source = .error e) ∨
      ∃ s s', summarize relative source = .ok s ∧ summarizeDirect relative source = .ok s' ∧
        s'.name = s.name ∧ s'.references.eraseDups = s.references.eraseDups := by
  unfold summarizeDirect summarize
  split
  · exact .inl ⟨_, rfl, rfl⟩
  · exact .inr ⟨_, _, rfl, rfl, rfl, (eraseDups_referencesFrom _).symm⟩

theorem eraseDups_edgesBy (kind : Granularity) (f : LoadedFile) :
    (f.edgesBy summarizeDirect kind).eraseDups = (f.edgesBy summarize kind).eraseDups := by
  unfold LoadedFile.edgesBy
  cases f.content with
  | error e => rfl
  | ok source =>
    rcases summarize_cases f.file.relative source with ⟨e, h, h'⟩ | ⟨s, s', h, h', hname, hrefs⟩
    · simp only [h, h']
    · simp only [h, h', Summary.edges, edgesFrom, hname]
      exact eraseDups_map_congr _ hrefs

/-- Two readings that give each file the same distinct edges lead to the same builder. -/
theorem submitFiles_congr {read read' : Path → Bytes → Except FileError Summary}
    {kind : Granularity} {b : Builder} (hb : b.WellFormed) {files : List LoadedFile}
    (h : ∀ f ∈ files, (f.edgesBy read kind).eraseDups = (f.edgesBy read' kind).eraseDups) :
    submitFiles read kind files b = submitFiles read' kind files b := by
  induction files generalizing b with
  | nil => rfl
  | cons f files ih =>
    have hf := hb.submitAll_congr (h f (by simp))
    obtain ⟨hb', -⟩ := hb.submitAll (f.edgesBy read' kind)
    simp only [submitFiles, List.foldl_cons] at ih ⊢
    rw [hf]
    exact ih hb' fun g hg => h g (List.mem_cons_of_mem _ hg)

/-- Imports never change the graph. A file has the same distinct references, in the same order,
whether its imports count or not; and what is collected from any list of files is the same graph as
without imports. -/
theorem graph_independent_of_imports :
    (∀ relative source,
      (summarize relative source).map (·.references.eraseDups) =
        (summarizeDirect relative source).map (·.references.eraseDups)) ∧
      ∀ kind files,
        (collect (.empty kind) files).builder.graph = graphBy summarizeDirect kind files := by
  constructor
  · intro relative source
    rcases summarize_cases relative source with ⟨e, h, h'⟩ | ⟨s, s', h, h', -, hrefs⟩
    · simp only [h, h', Except.map]
    · simp only [h, h', Except.map, hrefs]
  · intro kind files
    have hb := Builder.wellFormed_empty kind
    rw [graphBy, collect_builder hb]
    exact congrArg (·.graph) (submitFiles_congr hb fun f _ => (eraseDups_edgesBy kind f).symm)

end ReferenceGraph
