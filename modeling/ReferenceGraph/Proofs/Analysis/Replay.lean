import ReferenceGraph.Proofs.Analysis.Meaning
import ReferenceGraph.Proofs.Graph.Growth

/-!
# Extracting one file

One builder may take edges and files in any order, and files from several extractors that collapse
names differently. A file that cannot be read, or that has no name, leaves the builder as it is. Any
other file adds those of its edges that are not there yet. From then on they are there, so the same
file adds nothing when it comes again, whatever was done to the builder in between.

* `Builder.extractFile`: what one extraction answers and does. `extractFile_cases` are its three
  ways to end.
* `Builder.perform`, `Builder.performAll`: operations on a builder. `WellFormed.perform` is the step
  that keeps a builder well formed and keeps its edges, `WellFormed.performAll` the run.
* `extraction_atomic`: the statement for a builder after any operations.
-/

namespace ReferenceGraph

/-- Something that is done to a builder. -/
inductive Operation where
  /-- An edge is submitted. -/
  | submit (e : Edge)
  /-- A file of a tree is extracted by an extractor of this granularity. -/
  | extract (kind : Granularity) (t : FileTree) (f : SourceFile)

/-- A file has the same edges in two trees if it has the same content in both, or none. -/
theorem FileTree.edgesOf_congr {t t' : FileTree} {f : SourceFile}
    (h : (t'.read f.path).toOption = (t.read f.path).toOption) (kind : Granularity) :
    t'.edgesOf kind f = t.edgesOf kind f := by
  unfold FileTree.edgesOf
  cases hread : t.read f.path with
  | error e =>
    cases hread' : t'.read f.path with
    | error e' => rfl
    | ok source => simp [hread, hread', Except.toOption] at h
  | ok source =>
    cases hread' : t'.read f.path with
    | error e' => simp [hread, hread', Except.toOption] at h
    | ok source' =>
      obtain rfl : source' = source := by simpa [hread, hread', Except.toOption] using h
      rfl

namespace Builder

/-- Extracts a file of a tree, as an extractor of this granularity does. The answer is the number of
edges that were new. -/
def extractFile (b : Builder) (kind : Granularity) (t : FileTree) (f : SourceFile) :
    Except FileError Nat × Builder :=
  match extractAs kind b f (t.load f).content with
  | .error e => (.error e, b)
  | .ok x => (.ok x.added.length, x.builder)

/-- The builder after an operation. -/
def perform (b : Builder) : Operation → Builder
  | .submit e => (b.submit e).1
  | .extract kind t f => (b.extractFile kind t f).2

/-- The builder after operations in turn. -/
def performAll (b : Builder) (ops : List Operation) : Builder := ops.foldl perform b

/-- The content of the file counts before its name; a file with both has its edges submitted. -/
theorem extractFile_cases (b : Builder) (kind : Granularity) (t : FileTree) (f : SourceFile) :
    (∃ e, t.read f.path = .error e ∧
        b.extractFile kind t f = (.error (.unreadable f.path e), b)) ∨
      (∃ source, t.read f.path = .ok source ∧ f.relative.dottedName? = none ∧
        b.extractFile kind t f = (.error (.unnamed f.relative), b)) ∨
      ∃ source name, t.read f.path = .ok source ∧ f.relative.dottedName? = some name ∧
        b.extractFile kind t f = (.ok (b.submitAll (t.edgesOf kind f)).2.length,
          (b.submitAll (t.edgesOf kind f)).1) := by
  unfold extractFile extractAs FileTree.edgesOf FileTree.load summarize
  cases t.read f.path with
  | error e => exact .inl ⟨e, rfl, rfl⟩
  | ok source =>
    cases f.relative.dottedName? with
    | none => exact .inr (.inl ⟨source, rfl, rfl, rfl⟩)
    | some name => exact .inr (.inr ⟨source, name, rfl, rfl, rfl⟩)

/-- Whatever it answers, an extraction submits the edges of the file. A file that is left out has
none. -/
theorem extractFile_snd (b : Builder) (kind : Granularity) (t : FileTree) (f : SourceFile) :
    (b.extractFile kind t f).2 = (b.submitAll (t.edgesOf kind f)).1 := by
  rcases b.extractFile_cases kind t f with
    ⟨e, hread, h⟩ | ⟨source, hread, hname, h⟩ | ⟨source, name, -, -, h⟩
  · rw [h, FileTree.edgesOf_of_error hread, submitAll]
  · simp only [h, FileTree.edgesOf, hread, hname, submitAll]
  · rw [h]

namespace WellFormed

variable {b : Builder}

/-- One operation keeps a builder well formed and takes no edge away. -/
theorem perform (h : b.WellFormed) (op : Operation) :
    (b.perform op).WellFormed ∧ ∀ e ∈ b.graph.edges, e ∈ (b.perform op).graph.edges := by
  cases op with
  | submit e =>
    obtain ⟨b', isNew, hs, h', -⟩ := h.submit e
    refine ⟨?_, fun e' => (b.extends_submit e).mem_edges⟩
    rw [Builder.perform, hs]
    exact h'
  | extract kind t f =>
    obtain ⟨h', -⟩ := h.submitAll (t.edgesOf kind f)
    rw [Builder.perform, extractFile_snd]
    exact ⟨h', fun e => (b.extends_submitAll _).mem_edges⟩

theorem performAll (h : b.WellFormed) (ops : List Operation) :
    (b.performAll ops).WellFormed ∧ ∀ e ∈ b.graph.edges, e ∈ (b.performAll ops).graph.edges := by
  induction ops generalizing b with
  | nil => exact ⟨h, fun e he => he⟩
  | cons op ops ih =>
    obtain ⟨h', hkeep⟩ := h.perform op
    obtain ⟨h'', hkeep'⟩ := ih h'
    exact ⟨h'', fun e he => hkeep' e (hkeep e he)⟩

end WellFormed

end Builder

/-- The extraction of a file into a builder that has been through any operations. If the file cannot
be read, that is the error, whether or not it has a name; if it can be read but has no name, that is
the error; and in both cases the builder is the one before. Otherwise the answer is a number, and so
many arcs are put behind those that were there, for the edges of the file that were not. After any
further operations the same extractor adds nothing for the same file, as long as the content of the
file is the same. -/
theorem extraction_atomic (start kind : Granularity) (before : List Operation) (t : FileTree)
    (f : SourceFile) :
    let b := (Builder.empty start).performAll before
    (∃ e, t.read f.path = .error e ∧
        b.extractFile kind t f = (.error (.unreadable f.path e), b)) ∨
      (∃ source, t.read f.path = .ok source ∧ f.relative.dottedName? = none ∧
        b.extractFile kind t f = (.error (.unnamed f.relative), b)) ∨
      ∃ source name added b', t.read f.path = .ok source ∧ f.relative.dottedName? = some name ∧
        b.extractFile kind t f = (.ok added.length, b') ∧
        b.graph.Extends added b'.graph ∧
        b'.graph.edges = (b.graph.edges ++ t.edgesOf kind f).eraseDups ∧
        ∀ (later : List Operation) (t' : FileTree), t'.read f.path = t.read f.path →
          (b'.performAll later).extractFile kind t' f = (.ok 0, b'.performAll later) := by
  intro b
  obtain ⟨hb, -⟩ := (Builder.wellFormed_empty start).performAll before
  rcases b.extractFile_cases kind t f with
    hunreadable | hunnamed | ⟨source, name, hread, hname, h⟩
  · exact .inl hunreadable
  · exact .inr (.inl hunnamed)
  · obtain ⟨hb', hedges, -⟩ := hb.submitAll (t.edgesOf kind f)
    refine .inr (.inr ⟨source, name, _, _, hread, hname, h, b.extends_submitAll _, hedges, ?_⟩)
    intro later t' ht'
    obtain ⟨hlater, hkeep⟩ := hb'.performAll later
    -- The edges of the file are all there from now on.
    have hsubset : ∀ e ∈ t'.edgesOf kind f,
        e ∈ ((b.submitAll (t.edgesOf kind f)).1.performAll later).graph.edges := by
      intro e he
      apply hkeep
      rw [hedges, List.mem_eraseDups]
      rw [FileTree.edgesOf_congr (congrArg Except.toOption ht')] at he
      exact List.mem_append_right _ he
    rcases Builder.extractFile_cases _ kind t' f with
      ⟨e, he, -⟩ | ⟨source', -, hnone, -⟩ | ⟨source', name', -, -, h'⟩
    · cases (hread.symm.trans ht'.symm).trans he
    · cases hname.symm.trans hnone
    · rw [h', hlater.submitAll_of_subset hsubset]
      rfl

end ReferenceGraph
