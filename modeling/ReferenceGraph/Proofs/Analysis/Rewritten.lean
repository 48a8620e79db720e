import ReferenceGraph.Proofs.Analysis.Replay
import ReferenceGraph.Proofs.Tree.Root
import ReferenceGraph.Proofs.Tree.Write

/-!
# Analysing a tree after a write

A file is written somewhere in a tree, and the tree is analysed again. The scan can list the new
file, and links that led nowhere can lead to it. But if no listed path leads to the file that was
written, then all other files are found as before and have the content that they had, so the graph
is the same.

* `Entry.ChangedAt.filter_sourcesBelow`: apart from changed files, the same files are found.
* `WrittenAt.read_join_eq_error`: a written file that is listed all the same cannot be read.
* `WrittenAt.outcome_analyze`: the graph is the same.
-/

namespace ReferenceGraph

theorem flatMap_filter_not {α β : Type} {P : α → Prop} [DecidablePred P] {f : α → List β}
    {l : List α} (h : ∀ a ∈ l, P a → f a = []) :
    (l.filter fun a => ¬P a).flatMap f = l.flatMap f := by
  induction l with
  | nil => rfl
  | cons a l ih =>
    have hl := ih fun b hb => h b (.tail _ hb)
    rw [List.filter_cons, List.flatMap_cons]
    by_cases ha : P a
    · rw [if_neg (by simpa using ha), h a (.head _) ha, List.nil_append, hl]
    · rw [if_pos (by simpa using ha), List.flatMap_cons, hl]

/-! ## Source files below a directory -/

namespace Entry

theorem isDirectory_shallow (e : Entry) : e.shallow.isDirectory = e.isDirectory := by
  cases e <;> rfl

/-- Away from the changed files, a source file was there before. -/
theorem ChangedAt.hasSource_of_not {P : Location → Prop} {e e' : Entry} (h : e.ChangedAt P e')
    {l : Location} (hP : ¬P l) (hl : e'.HasSource l) : e.HasSource l := by
  obtain ⟨⟨f', hf', hfile⟩, hlast⟩ := hl
  have hmap := h.elsewhere l hP
  rw [hf'] at hmap
  obtain ⟨f, hf, hs⟩ := Option.map_eq_some_iff.mp hmap
  refine ⟨⟨f, hf, ?_⟩, hlast⟩
  rw [← isDirectory_shallow, hs, isDirectory_shallow, hfile]

section Below

variable {P : Location → Prop} {es es' : List (FileName × Entry)}
  {refusal? : Location → Option PathError}

theorem ChangedAt.sourcesBelow_subset (h : (dir es).ChangedAt P (dir es'))
    (hes : (dir es).WellFormed) (hes' : (dir es').WellFormed) {l : Location}
    (hl : l ∈ sourcesBelow refusal? es) : l ∈ sourcesBelow refusal? es' := by
  obtain ⟨⟨hentry, hlast⟩, hreach⟩ := hes.mem_sourcesBelow.mp hl
  have hentry' : (dir es').Holds refusal? (.file l) := h.holds hentry
  exact hes'.mem_sourcesBelow.mpr ⟨⟨hentry', hlast⟩, hreach⟩

/-- The same source files are found in the same order, apart from the changed ones. -/
theorem ChangedAt.filter_sourcesBelow [DecidablePred P] (h : (dir es).ChangedAt P (dir es'))
    (hes : (dir es).WellFormed) (hes' : (dir es').WellFormed) :
    (sourcesBelow refusal? es).filter (fun l => ¬P l) =
      (sourcesBelow refusal? es').filter (fun l => ¬P l) := by
  refine eq_of_pairwise_lt id ((hes.pairwise_sourcesBelow refusal?).filter _)
    ((hes'.pairwise_sourcesBelow refusal?).filter _) fun l => ?_
  simp only [List.mem_filter, decide_eq_true_eq]
  refine and_congr_left fun hP => ⟨h.sourcesBelow_subset hes hes', fun hl => ?_⟩
  obtain ⟨hsource, hreach⟩ := hes'.mem_sourcesBelow.mp hl
  exact hes.mem_sourcesBelow.mpr ⟨h.hasSource_of_not hP hsource, hreach⟩

end Below

end Entry

/-! ## The whole tree -/

theorem Path.zero_mem_join {root : Path} {l : Location} {name : FileName} (hname : name ∈ l)
    (h : 0 ∈ name) : 0 ∈ (root.join l).bytes :=
  List.mem_append_right _ (mem_intercalate_of_mem hname h)

namespace FileTree

/-- No path that a scan of the root lists leads to this place. -/
def ScanAvoids (t : FileTree) (root : Path) (place : Location) : Prop :=
  ∀ files, t.scan root = .ok files →
    ∀ f ∈ files, ∀ e, t.resolve .follow f.path ≠ .ok (.entry place e)

namespace WrittenAt

variable {t t' : FileTree} {place : Location} {content : Bytes} {root : Path} {location : Location}
  {es : List (FileName × Entry)}

/-- A file below the root that no path leads to has a name with a zero byte on its way, so it cannot
be read. -/
theorem read_join_eq_error (hroot : t.resolve .follow root = .ok (.entry location (.dir es)))
    (hes : (Entry.dir es).WellFormed) {l : Location} (hl : l ≠ [])
    (hfile : (Entry.dir es).at? l = some (.file content))
    (havoid : ∀ e, t.resolve .follow (root.join l) ≠ .ok (.entry (location ++ l) e)) :
    ∃ e, t.read (root.join l) = .error e := by
  by_cases hzero : 0 ∈ (root.join l).bytes
  · exact ⟨.zeroByte, by rw [read, resolve, if_pos hzero]⟩
  · have hnames : ∀ name ∈ l, name.IsEntryName := fun name => hes.isEntryName_of_at? hfile
    have hlink : ∀ target, Entry.file content ≠ .link target := by simp
    exact absurd
      (resolve_join hroot hnames (fun name hname h => hzero (Path.zero_mem_join hname h)) hl hfile
        hlink)
      (havoid _)

/-- After a write, an analysis has the same outcome, if no path that the scan lists leads to the
file that was written. -/
theorem outcome_analyze (h : t.WrittenAt place content t') (ht : t.WellFormed)
    (ht' : t'.WellFormed) {files : List SourceFile} (hscan : t.scan root = .ok files)
    (havoid : t'.ScanAvoids root place) (kind : Granularity) :
    (t'.analyze root kind).outcome = (t.analyze root kind).outcome := by
  obtain ⟨location, es, hroot, rfl⟩ := scan_eq_ok hscan
  obtain ⟨es', hroot'⟩ := h.changedAt.resolve_of_dir hroot
  have hscan' := scan_of_resolve hroot'
  have hes := ht.of_resolve hroot
  have hes' := ht'.of_resolve hroot'
  have hchanged := h.changedAt.top.below (at?_of_resolve hroot) (at?_of_resolve hroot')
  rw [h.changedAt.refusalBelow] at hscan'
  -- A listed path does not lead to the written file, so it finds what it found before.
  have hsame : ∀ f ∈ (if t'.isSourceLink root then [rootFile root] else []) ++
      sourceFiles root (t.refusalBelow location) es', t'.edgesOf kind f = t.edgesOf kind f := by
    intro f hf
    refine edgesOf_congr (h.changedAt.read fun l e hl hplace => ?_) kind
    exact havoid _ hscan' f hf e (hplace ▸ hl)
  have hnone : ∀ l ∈ sourcesBelow (t.refusalBelow location) es', location ++ l = place →
      t.edgesOf kind ⟨root.join l, .ofNames l⟩ = [] := by
    rintro l hl rfl
    have hf : ⟨root.join l, .ofNames l⟩ ∈
        (if t'.isSourceLink root then [rootFile root] else []) ++
          sourceFiles root (t.refusalBelow location) es' :=
      List.mem_append_right _ (List.mem_map_of_mem hl)
    have hfile : (Entry.dir es').at? l = some (.file content) := by
      rw [← h.after, at?_append, at?_of_resolve hroot', Option.bind_some]
    have hne : l ≠ [] := by
      rintro rfl
      cases hfile
    obtain ⟨e, he⟩ := read_join_eq_error hroot' hes' hne hfile (havoid _ hscan' _ hf)
    rw [← hsame _ hf, edgesOf_of_error he]
  have hbelow : (sourceFiles root (t.refusalBelow location) es').flatMap (t.edgesOf kind) =
      (sourceFiles root (t.refusalBelow location) es).flatMap (t.edgesOf kind) := by
    rw [sourceFiles, sourceFiles, List.flatMap_map, List.flatMap_map, ← flatMap_filter_not hnone,
      ← hchanged.filter_sourcesBelow hes hes', flatMap_filter_not]
    exact fun l hl => hnone l (hchanged.sourcesBelow_subset hes hes' hl)
  rw [outcome_of_scan hscan, outcome_of_scan hscan', List.flatMap_congr hsame,
    ← h.changedAt.isSourceLink, List.flatMap_append, List.flatMap_append, hbelow]

end WrittenAt

end FileTree

end ReferenceGraph
