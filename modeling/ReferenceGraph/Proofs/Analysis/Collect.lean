import ReferenceGraph.Analysis.Run
import ReferenceGraph.Proofs.Graph.Builder

/-!
# What an analysis collects

The files are taken one after the other, and each either adds all of its edges to the builder or
leaves the builder as it is. So the files of a run can be replaced by their edges, in the order of
the files.

* `LoadedFile.edgesBy`: the edges of one file, for any way of reading source files.
* `extract_cases`: the step. A file that is left out has no edges.
* `collect_builder`: the run. The builder is the one after the edges of each file in turn.
* `submitFiles_eq_submitAll`: the same builder after the edges of all files at once.
-/

namespace ReferenceGraph

/-- The edges of a file, with repetitions, when `read` reads source files. A file whose content is
missing or that cannot be read has none. -/
def LoadedFile.edgesBy (read : Path → Bytes → Except FileError Summary) (kind : Granularity)
    (f : LoadedFile) : List Edge :=
  match f.content with
  | .error _ => []
  | .ok source =>
    match read f.file.relative source with
    | .error _ => []
    | .ok s => s.edges kind

/-- The builder after the edges of each file have been submitted in turn. -/
def submitFiles (read : Path → Bytes → Except FileError Summary) (kind : Granularity)
    (files : List LoadedFile) (b : Builder) : Builder :=
  files.foldl (fun b f => (b.submitAll (f.edgesBy read kind)).1) b

/-- The graph of the files, when `read` reads source files. -/
def graphBy (read : Path → Bytes → Except FileError Summary) (kind : Granularity)
    (files : List LoadedFile) : Graph :=
  (submitFiles read kind files (.empty kind)).graph

/-- A file is left out and has no edges, or its edges are submitted. -/
theorem extract_cases (b : Builder) (f : LoadedFile) :
    (∃ e, extract b f.file f.content = .error e ∧ f.edgesBy summarize b.kind = []) ∨
      ∃ x, extract b f.file f.content = .ok x ∧
        x.builder = (b.submitAll (f.edgesBy summarize b.kind)).1 := by
  unfold extract extractAs LoadedFile.edgesBy
  cases f.content with
  | error e => exact .inl ⟨_, rfl, rfl⟩
  | ok source =>
    dsimp only
    cases summarize f.file.relative source with
    | error e => exact .inl ⟨_, rfl, rfl⟩
    | ok s => exact .inr ⟨_, rfl, rfl⟩

theorem collect_builder {b : Builder} (hb : b.WellFormed) (files : List LoadedFile) :
    (collect b files).builder = submitFiles summarize b.kind files b := by
  induction files generalizing b with
  | nil => rfl
  | cons f files ih =>
    rw [submitFiles, List.foldl_cons, ← submitFiles]
    rcases extract_cases b f with ⟨e, he, hnone⟩ | ⟨x, hx, hadded⟩
    · simp only [collect, he, hnone, Builder.submitAll]
      exact ih hb
    · obtain ⟨hb', -, -, hkind⟩ := hb.submitAll (f.edgesBy summarize b.kind)
      simp only [collect, hx, hadded]
      rw [ih hb', hkind]

theorem submitFiles_eq_submitAll (read : Path → Bytes → Except FileError Summary)
    (kind : Granularity) (files : List LoadedFile) (b : Builder) :
    submitFiles read kind files b = (b.submitAll (files.flatMap (·.edgesBy read kind))).1 := by
  induction files generalizing b with
  | nil => rfl
  | cons f files ih =>
    rw [submitFiles, List.foldl_cons, ← submitFiles, ih, List.flatMap_cons,
      Builder.submitAll_append]

end ReferenceGraph
