import ReferenceGraph.Proofs.Analysis.Ends
import ReferenceGraph.Proofs.Analysis.Rewritten
import ReferenceGraph.Proofs.Path.Strip

/-!
# The spelling of a root

A directory can be the root of an analysis under many paths: with dots and slashes put in, through
its parents, or through a link. A file below it is listed under the root as it was spelled and the
names that lead to the file, and both parts come apart again. The names depend on the directory
alone, and so does what is read, as long as no link has to be followed below the root: how many
links may still be followed does depend on the spelling.

* `FileTree.Lists`: a scan that lists files under these relative paths. `lists_of_resolve` says that
  they depend on the directory only.
* `FileTree.read_join_congr`: a file is read alike under two spellings of the root.
* `graph_independent_of_spelling`: the statement for every two spellings.
-/

namespace ReferenceGraph

namespace FileTree

/-- A scan of the root lists files under these relative paths, in their order. If the root is itself
a link with the name of a source file, it comes first, under an empty path. The relative path of a
listed file is what is left of its path when the root is taken away. -/
def Lists (t : FileTree) (root : Path) (relatives : List Path) : Prop :=
  ∃ files, t.scan root = .ok files ∧
    (files.map (·.relative) = relatives ∨ files.map (·.relative) = ⟨[]⟩ :: relatives) ∧
    ∀ f ∈ files, f.path.strip? root = some f.relative

variable {t : FileTree} {root root' : Path} {location : Location} {es : List (FileName × Entry)}

theorem lists_of_resolve (ht : t.WellFormed)
    (hroot : t.resolve .follow root = .ok (.entry location (.dir es))) :
    t.Lists root ((sourcesBelow (t.refusalBelow location) es).map .ofNames) := by
  have hes := ht.of_resolve hroot
  refine ⟨_, scan_of_resolve hroot, ?_, fun f hf => ?_⟩
  · have hbelow : (sourceFiles root (t.refusalBelow location) es).map (·.relative) =
        (sourcesBelow (t.refusalBelow location) es).map .ofNames := by
      rw [sourceFiles, List.map_map]
      rfl
    rw [List.map_append, hbelow]
    split
    · exact .inr rfl
    · exact .inl rfl
  · rcases List.mem_append.mp hf with hf | hf
    · split at hf
      · rw [List.mem_singleton.mp hf]
        exact root.strip?_self
      · cases hf
    · obtain ⟨l, hl, rfl⟩ := List.mem_map.mp hf
      have hsource := (hes.mem_sourcesBelow.mp hl).1
      exact Path.strip?_join (resolve_eq_ok_iff.mp hroot).2.1 (hsource.isSource hes).names
        hsource.ne_nil

/-- A file below the root is read alike under two spellings of the root, or cannot be read under
either of them. -/
theorem read_join_congr (ht : t.WellFormed)
    (hroot : t.resolve .follow root = .ok (.entry location (.dir es)))
    (hroot' : t.resolve .follow root' = .ok (.entry location (.dir es))) {l : Location}
    (hl : l ≠ []) {content : Bytes} (hfile : (Entry.dir es).at? l = some (.file content)) :
    t.read (root.join l) = t.read (root'.join l) := by
  have hes := ht.of_resolve hroot
  have hnames : ∀ name ∈ l, name.IsEntryName := fun name => hes.isEntryName_of_at? hfile
  by_cases hzero : ∃ name ∈ l, 0 ∈ name
  · obtain ⟨name, hname, hzero⟩ := hzero
    rw [read, read, resolve, resolve, if_pos (Path.zero_mem_join hname hzero),
      if_pos (Path.zero_mem_join hname hzero)]
  · have hzero : ∀ name ∈ l, 0 ∉ name := fun name hname h => hzero ⟨name, hname, h⟩
    rw [read_join hroot hnames hzero hl hfile, read_join hroot' hnames hzero hl hfile]

/-- The edges of all files of a scan are those of the files below the root. -/
theorem flatMap_edgesOf_scan (hroot : t.resolve .follow root = .ok (.entry location (.dir es)))
    {files : List SourceFile} (hscan : t.scan root = .ok files) (kind : Granularity) :
    files.flatMap (t.edgesOf kind) =
      (sourceFiles root (t.refusalBelow location) es).flatMap (t.edgesOf kind) := by
  obtain rfl := Except.ok.inj (hscan.symm.trans (scan_of_resolve hroot))
  have hself : (if t.isSourceLink root then [rootFile root] else []).flatMap (t.edgesOf kind) =
      [] := by
    split
    · simp [edgesOf_of_error (read_rootFile hroot) kind]
    · rfl
  rw [List.flatMap_append, hself, List.nil_append]

/-- The edges below a root are the same under two spellings of it, if every source file is a regular
file. -/
theorem flatMap_edgesOf_spelling (ht : t.WellFormed)
    (hroot : t.resolve .follow root = .ok (.entry location (.dir es)))
    (hroot' : t.resolve .follow root' = .ok (.entry location (.dir es)))
    (hfiles : ∀ l, (Entry.dir es).HasSource l →
      ∃ content, (Entry.dir es).at? l = some (.file content)) (kind : Granularity) :
    (sourceFiles root (t.refusalBelow location) es).flatMap (t.edgesOf kind) =
      (sourceFiles root' (t.refusalBelow location) es).flatMap (t.edgesOf kind) := by
  have hes := ht.of_resolve hroot
  rw [sourceFiles, sourceFiles, List.flatMap_map, List.flatMap_map]
  refine List.flatMap_congr fun l hl => ?_
  have hsource := (hes.mem_sourcesBelow.mp hl).1
  obtain ⟨content, hfile⟩ := hfiles l hsource
  simp only [edgesOf, read_join_congr ht hroot hroot' hsource.ne_nil hfile]

/-- The graph of an analysis is built from the edges of the files below the root. -/
theorem outcome_of_resolve (hroot : t.resolve .follow root = .ok (.entry location (.dir es)))
    (kind : Granularity) :
    (t.analyze root kind).outcome = .ok
      ((Builder.empty kind).submitAll
        ((sourceFiles root (t.refusalBelow location) es).flatMap (t.edgesOf kind))).1.graph := by
  rw [outcome_of_scan (scan_of_resolve hroot), flatMap_edgesOf_scan hroot (scan_of_resolve hroot)]

end FileTree

/-- The spelling of a root does not matter. Under two paths that lead to the same directory, both
scans list files under the same relative paths in the same order, apart from an empty one for the
root itself, and the relative path of a listed file is always what is left of its path behind the
root. If everything below the directory with the name of a source file is a regular file or a
directory, both analyses have the same graph, and its edges begin at the names that these relative
paths give. -/
theorem graph_independent_of_spelling {t : FileTree} (ht : t.WellFormed) {root root' : Path}
    {location : Location} {es : List (FileName × Entry)}
    (hroot : t.resolve .follow root = .ok (.entry location (.dir es)))
    (hroot' : t.resolve .follow root' = .ok (.entry location (.dir es)))
    (hfiles : ∀ l, (Entry.dir es).HasSource l →
      ∃ content, (Entry.dir es).at? l = some (.file content)) :
    ∃ relatives, ⟨[]⟩ ∉ relatives ∧ t.Lists root relatives ∧ t.Lists root' relatives ∧
      ∀ kind, ∃ g, (t.analyze root kind).outcome = .ok g ∧
        (t.analyze root' kind).outcome = .ok g ∧
        ∀ e ∈ g.edges, ∃ relative ∈ relatives, ∃ name,
          relative.dottedName? = some name ∧ e.source = kind.collapse name := by
  have hes := ht.of_resolve hroot
  refine ⟨(sourcesBelow (t.refusalBelow location) es).map .ofNames, fun hnil => ?_,
    FileTree.lists_of_resolve ht hroot, FileTree.lists_of_resolve ht hroot', fun kind => ?_⟩
  · obtain ⟨l, hl, hbytes⟩ := List.mem_map.mp hnil
    have hbelow := below_of_mem_sourceFiles hes
      (List.mem_map_of_mem (f := fun l => SourceFile.mk (root.join l) (.ofNames l)) hl)
    exact hbelow.relative_ne_nil (congrArg Path.bytes hbytes)
  · have hgraph' := FileTree.outcome_of_resolve hroot' kind
    rw [← FileTree.flatMap_edgesOf_spelling ht hroot hroot' hfiles kind] at hgraph'
    refine ⟨_, FileTree.outcome_of_resolve hroot kind, hgraph', fun e he => ?_⟩
    rw [(represents_submitAll kind _).edges, List.mem_eraseDups] at he
    obtain ⟨f, hf, he⟩ := List.mem_flatMap.mp he
    obtain ⟨l, hl, rfl⟩ := List.mem_map.mp hf
    obtain ⟨content, name, -, hname, n, -, rfl⟩ := FileTree.mem_edgesOf.mp he
    exact ⟨_, List.mem_map_of_mem hl, name, hname, rfl⟩

/-- A directory with a source file, and a link to it that has the name of a source file. -/
def manySpellings : FileTree where
  entries := [
    (Utf8.encodeString "a", .dir [
      (Utf8.encodeString "B.java", .file (Utf8.encodeString "c.D d;"))]),
    (Utf8.encodeString "L.java", .link (.ofString "a"))]
  working := []

/-- The entries of the directory in `manySpellings`. -/
def spelledEntries : List (FileName × Entry) :=
  [(Utf8.encodeString "B.java", .file (Utf8.encodeString "c.D d;"))]

theorem wellFormed_manySpellings : manySpellings.WellFormed := by
  refine .dir (by decide) (by decide) ?_
  simp only [manySpellings, List.forall_mem_cons]
  refine ⟨.dir (by decide) (by decide) ?_, .link _, by simp⟩
  simp only [List.forall_mem_cons]
  exact ⟨.file _, by simp⟩

/-- The way through the parent comes back to the directory. -/
theorem resolve_manySpellings_parent :
    manySpellings.resolve .follow (.ofString "./a/..//a/") =
      .ok (.entry [Utf8.encodeString "a"] (.dir spelledEntries)) := by
  have hsteps : (Path.ofString "./a/..//a/").steps =
      [FileName.here, Utf8.encodeString "a", FileName.above, Utf8.encodeString "a", []] := by
    decide
  have hname : FileName.IsEntryName (Utf8.encodeString "a") := by decide
  have hdir : manySpellings.entries.lookup (Utf8.encodeString "a") = some (.dir spelledEntries) :=
    rfl
  refine FileTree.resolve_eq_ok_iff.mpr ⟨by decide, by decide, ?_⟩
  rw [hsteps, walk_stay rfl rfl,
    walk_entry rfl hname.not_isStay hname.ne_above (by simp) hdir (by simp), walk_above rfl,
    walk_entry rfl hname.not_isStay hname.ne_above (by simp) hdir (by simp),
    walk_stay rfl rfl, walk]
  rfl

/-- The way of the link goes on with the steps of its target. -/
theorem resolve_manySpellings_link :
    manySpellings.resolve .follow (.ofString "L.java") =
      .ok (.entry [Utf8.encodeString "a"] (.dir spelledEntries)) := by
  have htarget : (Path.ofString "a").steps = [Utf8.encodeString "a"] := by decide
  have hlink : manySpellings.entries.lookup (Utf8.encodeString "L.java") =
    some (.link (.ofString "a")) := rfl
  rw [Path.ofString, FileTree.resolve_link (by simp) (by decide) (by decide) rfl
    hlink (by decide), if_neg (by decide), htarget]
  exact walk_names (by decide) rfl (by simp)

theorem hasSource_spelledEntries {l : Location} (h : (Entry.dir spelledEntries).HasSource l) :
    l = [Utf8.encodeString "B.java"] := by
  obtain ⟨⟨e, he, hfile⟩, -⟩ := h
  cases l with
  | nil => cases (Option.some.inj he) ▸ hfile
  | cons name rest =>
    obtain ⟨e', hmem, he⟩ := (Entry.at?_dir_cons (by decide)).mp he
    obtain ⟨rfl, rfl⟩ := Prod.mk.inj (List.mem_singleton.mp hmem)
    rw [((Entry.at?_of_not_isDirectory rfl).mp he).1]

/-- Through its parent and through the link, the directory has the same graph, with an edge from its
file. -/
theorem graph_of_many_spellings :
    ∃ relatives, ⟨[]⟩ ∉ relatives ∧
      manySpellings.Lists (.ofString "./a/..//a/") relatives ∧
      manySpellings.Lists (.ofString "L.java") relatives ∧
      ∃ g, (manySpellings.analyze (.ofString "./a/..//a/") .classes).outcome = .ok g ∧
        (manySpellings.analyze (.ofString "L.java") .classes).outcome = .ok g ∧
        ⟨"B", "c.D"⟩ ∈ g.edges := by
  have hfiles : ∀ l, (Entry.dir spelledEntries).HasSource l →
      ∃ content, (Entry.dir spelledEntries).at? l = some (.file content) := by
    intro l hl
    rw [hasSource_spelledEntries hl]
    exact ⟨_, rfl⟩
  obtain ⟨relatives, hne, hlists, hlists', hgraph⟩ :=
    graph_independent_of_spelling wellFormed_manySpellings resolve_manySpellings_parent
      resolve_manySpellings_link hfiles
  obtain ⟨g, hg, hg', -⟩ := hgraph .classes
  refine ⟨relatives, hne, hlists, hlists', g, hg, hg', ?_⟩
  rw [FileTree.outcome_of_resolve resolve_manySpellings_link] at hg'
  obtain rfl := Except.ok.inj hg'
  rw [(represents_submitAll .classes _).edges, List.mem_eraseDups, List.mem_flatMap]
  have hread : manySpellings.read ((Path.ofString "L.java").join [Utf8.encodeString "B.java"]) =
      .ok (Utf8.encodeString "c.D d;") :=
    FileTree.read_join resolve_manySpellings_link (by decide +kernel) (by decide +kernel)
      (by simp) rfl
  have hes := wellFormed_manySpellings.of_resolve resolve_manySpellings_link
  have hsource : (Entry.dir spelledEntries).HasSource [Utf8.encodeString "B.java"] :=
    ⟨⟨_, rfl, rfl⟩, _, rfl, by decide +kernel⟩
  have hlisted : [Utf8.encodeString "B.java"] ∈
      sourcesBelow (manySpellings.refusalBelow [Utf8.encodeString "a"]) spelledEntries :=
    hes.mem_sourcesBelow.mpr ⟨hsource, hsource.reachable fun _ _ _ => rfl⟩
  exact ⟨_, List.mem_map_of_mem hlisted,
    FileTree.mem_edgesOf.mpr ⟨_, "B", hread, by decide +kernel, by decide +kernel⟩⟩

end ReferenceGraph
