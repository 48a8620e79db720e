import ReferenceGraph.Proofs.Analysis.Meaning
import ReferenceGraph.Proofs.Name.Grammar
import ReferenceGraph.Proofs.Path.Name
import ReferenceGraph.Proofs.Source.Redundancy

/-!
# The ends of an edge

The two ends of an edge are names of different kinds. The target is a name that was read in a text,
so it keeps to the grammar of names. The source comes from the names of directories and files, which
can be almost any bytes, so all that can be said of it is which file it belongs to and how that file
is called.

* `FileTree.mem_edgesOf`: the edges of a scanned file.
* `IsClassEdge`, `IsPackageEdge`: what an edge is at either granularity. `isClassEdge_of_mem` and
  `isPackageEdge_of_mem` show it for the edges of one file.
* `ends_of_edges`: the statement for all edges of an analysed graph.
-/

namespace ReferenceGraph

/-- Between classes, an edge leads from the name of a scanned file that can be read to a qualified
name outside the standard library. -/
structure IsClassEdge (t : FileTree) (files : List SourceFile) (e : Edge) : Prop where
  source : ∃ f ∈ files, (∃ content, t.read f.path = .ok content) ∧
    f.relative.dottedName? = some e.source
  target : (QualifiedName.parse? e.target).isSome = true
  not_reserved : ¬"java".toList <+: e.target.toList

/-- Between packages, an edge leads from the package of a scanned file to nonempty segments of
lower-case letters and digits with dots between them, outside the standard library. The place of the
file below the root tells the name of its package, unless the stem of the file holds a dot. -/
structure IsPackageEdge (t : FileTree) (root : Path) (es : List (FileName × Entry))
    (files : List SourceFile) (e : Edge) : Prop where
  origin : ∃ f ∈ files, e ∈ t.edgesOf .packages f
  source : ∀ f ∈ files, e ∈ t.edgesOf .packages f →
    ∃ dirs stem, f.At root es dirs stem ∧
      (FileName.dotByte ∉ stem →
        (dirs ≠ [] → e.source = ".".intercalate (dirs.map Utf8.decodeString)) ∧
        (dirs = [] → e.source = Utf8.decodeString stem))
  target : ∃ segments, segments ≠ [] ∧ (∀ s ∈ segments, IsPackageText s) ∧
    e.target = String.ofList (['.'].intercalate segments)
  not_reserved : ¬"java".toList <+: e.target.toList

/-! ## Targets -/

/-- No reference is a name of the standard library. -/
theorem not_isReserved_of_mem_directReferences {lines : List (List Char)} {n : QualifiedName}
    (h : n ∈ directReferences lines) : n.isReserved = false := by
  obtain ⟨line, -, hline⟩ := List.mem_flatMap.mp h
  simpa using (List.mem_filter.mp hline).2

theorem not_prefix_chars {n : QualifiedName} (h : n.isReserved = false) :
    ¬"java".toList <+: n.chars := by
  intro hjava
  have hreserved := QualifiedName.isReserved_iff.mpr hjava
  rw [h] at hreserved
  cases hreserved

/-- The package of a name is what the name begins with. -/
theorem package_prefix_chars (n : QualifiedName) : ['.'].intercalate n.package <+: n.chars := by
  rw [n.chars_eq]
  exact List.prefix_append _ _

theorem not_prefix_package {n : QualifiedName} (h : n.isReserved = false) :
    ¬"java".toList <+: ['.'].intercalate n.package := fun hjava =>
  not_prefix_chars h (hjava.trans (package_prefix_chars n))

/-! ## Edges of a file -/

/-- The edges of a file that can be read and has a name lead to the qualified names in its text. -/
theorem FileTree.mem_edgesOf {t : FileTree} {kind : Granularity} {f : SourceFile} {e : Edge} :
    e ∈ t.edgesOf kind f ↔
      ∃ content name, t.read f.path = .ok content ∧ f.relative.dottedName? = some name ∧
        ∃ n ∈ directReferences (sourceLines content),
          (⟨kind.collapse name, kind.collapse n.text⟩ : Edge) = e := by
  unfold FileTree.edgesOf
  split
  · next content name hread hname =>
    rw [List.mem_map]
    simp only [mem_referencesFrom_iff]
    constructor
    · intro h
      exact ⟨content, name, hread, hname, h⟩
    · rintro ⟨content', name', hread', hname', h⟩
      obtain rfl := Except.ok.inj (hread.symm.trans hread')
      obtain rfl := Option.some.inj (hname.symm.trans hname')
      exact h
  · next hnone =>
    refine iff_of_false List.not_mem_nil ?_
    rintro ⟨content, name, hread, hname, -⟩
    exact hnone content name hread hname

theorem isClassEdge_of_mem {t : FileTree} {files : List SourceFile} {f : SourceFile}
    (hf : f ∈ files) {e : Edge} (he : e ∈ t.edgesOf .classes f) : IsClassEdge t files e := by
  obtain ⟨content, name, hread, hname, n, hn, rfl⟩ := FileTree.mem_edgesOf.mp he
  refine ⟨⟨f, hf, ⟨content, hread⟩, hname⟩, ?_, ?_⟩
  · simp
  · show ¬"java".toList <+: n.text.toList
    rw [QualifiedName.toList_text]
    exact not_prefix_chars (not_isReserved_of_mem_directReferences hn)

theorem isPackageEdge_of_mem {t : FileTree} (ht : t.WellFormed) {root : Path} {location : Location}
    {es : List (FileName × Entry)}
    (hroot : t.resolve .follow root = .ok (.entry location (.dir es))) {files : List SourceFile}
    (hscan : t.scan root = .ok files) {f : SourceFile} (hf : f ∈ files) {e : Edge}
    (he : e ∈ t.edgesOf .packages f) : IsPackageEdge t root es files e := by
  have hes := ht.of_resolve hroot
  refine ⟨⟨f, hf, he⟩, ?_, ?_, ?_⟩
  · intro f' hf' he'
    obtain ⟨content, name, -, hname, n, -, rfl⟩ := FileTree.mem_edgesOf.mp he'
    obtain ⟨dirs, stem, hat⟩ := exists_at_of_scan ht hroot hscan hf' hname
    refine ⟨dirs, stem, hat, fun hdot => ?_⟩
    obtain rfl := Option.some.inj (hname.symm.trans (hat.dottedName? hes))
    rw [Granularity.collapse_packages, parentName_dotted hdot]
    exact ⟨fun hne => if_neg hne, fun hnil => if_pos hnil⟩
  · obtain ⟨content, name, -, -, n, -, rfl⟩ := FileTree.mem_edgesOf.mp he
    exact ⟨n.package, n.package_ne_nil, fun s hs => n.isPackageText_of_mem_package hs,
      parentName_text n⟩
  · obtain ⟨content, name, -, -, n, hn, rfl⟩ := FileTree.mem_edgesOf.mp he
    have htarget : (parentName n.text).toList = ['.'].intercalate n.package := by
      rw [parentName_text, String.toList_ofList]
    show ¬"java".toList <+: (parentName n.text).toList
    rw [htarget]
    exact not_prefix_package (not_isReserved_of_mem_directReferences hn)

/-! ## Edges of a graph -/

/-- The edges of a graph are those of the scanned files. -/
theorem Graph.Represents.mem_edges {g : Graph} {kind : Granularity} {t : FileTree}
    {files : List SourceFile} (h : g.Represents kind (files.flatMap (t.edgesOf kind))) {e : Edge} :
    e ∈ g.edges ↔ ∃ f ∈ files, e ∈ t.edgesOf kind f := by
  rw [h.edges, List.mem_eraseDups, List.mem_flatMap]

/-- Both ends of every edge of an analysed graph are well formed. Between classes, the source is the
name of a scanned file that can be read, and the target a qualified name outside the standard
library. Between packages, the target is a package outside the standard library, and the source is
the way to a scanned file, or the stem of a file that lies in the root. -/
theorem ends_of_edges {t : FileTree} (ht : t.WellFormed) {root : Path} {kind : Granularity}
    {g : Graph} (hg : (t.analyze root kind).outcome = .ok g) :
    ∃ files location es, t.scan root = .ok files ∧
      t.resolve .follow root = .ok (.entry location (.dir es)) ∧
      (kind = .classes → ∀ e ∈ g.edges, IsClassEdge t files e) ∧
      (kind = .packages → ∀ e ∈ g.edges, IsPackageEdge t root es files e) := by
  rcases analyze_cases t root with ⟨e, -, houtcome⟩ | ⟨files, hscan, houtcome⟩
  · cases hg.symm.trans (houtcome kind)
  · obtain ⟨g', hg', hrep⟩ := houtcome kind
    obtain rfl := Except.ok.inj (hg.symm.trans hg')
    obtain ⟨location, es, hroot⟩ := (scan_eq_ok_iff t root).mp ⟨files, hscan⟩
    refine ⟨files, location, es, hscan, hroot, ?_, ?_⟩
    · rintro rfl e he
      obtain ⟨f, hf, he⟩ := hrep.mem_edges.mp he
      exact isClassEdge_of_mem hf he
    · rintro rfl e he
      obtain ⟨f, hf, he⟩ := hrep.mem_edges.mp he
      exact isPackageEdge_of_mem ht hroot hscan hf he

/-- A file in the root, which also refers to the standard library, and a file in directories of
which one has a name that is no text. -/
def nestedTree : FileTree where
  entries := [
    (Utf8.encodeString "A.java", .file (Utf8.encodeString "x.B(java.util.List)")),
    (Utf8.encodeString "p", .dir [
      ([0xFF], .dir [
        (Utf8.encodeString "C.java", .file (Utf8.encodeString "import q.r.D;\nD d;"))])])]
  working := []

theorem wellFormed_nestedTree : nestedTree.WellFormed := by
  refine .dir (by decide) (by decide) ?_
  simp only [nestedTree, List.forall_mem_cons]
  refine ⟨.file _, .dir (by decide) (by decide) ?_, by simp⟩
  simp only [List.forall_mem_cons]
  refine ⟨.dir (by decide) (by decide) ?_, by simp⟩
  simp only [List.forall_mem_cons]
  exact ⟨.file _, by simp⟩

theorem resolve_nestedTree :
    nestedTree.resolve .follow ⟨FileName.here⟩ = .ok (.entry [] (.dir nestedTree.entries)) :=
  FileTree.resolve_here rfl .follow

/-- The source file at this place of `nestedTree`. -/
def nestedFile (l : Location) : SourceFile := ⟨(Path.mk FileName.here).join l, .ofNames l⟩

/-- The file in the root. -/
def outerPlace : Location := [Utf8.encodeString "A.java"]

/-- The file in the directories. -/
def innerPlace : Location := [Utf8.encodeString "p", [0xFF], Utf8.encodeString "C.java"]

theorem mem_nestedTree {files : List SourceFile}
    (hscan : nestedTree.scan ⟨FileName.here⟩ = .ok files) :
    nestedFile outerPlace ∈ files ∧ nestedFile innerPlace ∈ files := by
  have hmem : ∀ l, (Entry.dir nestedTree.entries).HasSource l → nestedFile l ∈ files := by
    intro l hl
    obtain rfl := Except.ok.inj (hscan.symm.trans (FileTree.scan_of_resolve resolve_nestedTree))
    have hbelow : l ∈ sourcesBelow (nestedTree.refusalBelow []) nestedTree.entries :=
      wellFormed_nestedTree.mem_sourcesBelow.mpr ⟨hl, hl.reachable fun _ _ _ => rfl⟩
    exact List.mem_append_right _ (List.mem_map.mpr ⟨l, hbelow, rfl⟩)
  exact ⟨hmem _ ⟨⟨_, rfl, rfl⟩, _, rfl, by decide⟩,
    hmem _ ⟨⟨_, rfl, rfl⟩, _, rfl, by decide⟩⟩

theorem outerPlace_edge : ⟨"A", "x"⟩ ∈ nestedTree.edgesOf .packages (nestedFile outerPlace) := by
  have hread : nestedTree.read (nestedFile outerPlace).path =
      .ok (Utf8.encodeString "x.B(java.util.List)") :=
    FileTree.read_join resolve_nestedTree (by decide) (by decide) (by decide) rfl
  refine FileTree.mem_edgesOf.mpr ⟨_, "A", hread, ?_, ?_⟩ <;> decide

theorem innerPlace_edges :
    ⟨"p.\uFFFD.C", "q.r.D"⟩ ∈ nestedTree.edgesOf .classes (nestedFile innerPlace) ∧
      ⟨"p.\uFFFD", "q.r"⟩ ∈ nestedTree.edgesOf .packages (nestedFile innerPlace) := by
  have hread : nestedTree.read (nestedFile innerPlace).path =
      .ok (Utf8.encodeString "import q.r.D;\nD d;") :=
    FileTree.read_join resolve_nestedTree (by decide) (by decide) (by decide) rfl
  have hname : (nestedFile innerPlace).relative.dottedName? = some "p.\uFFFD.C" := by
    decide
  constructor
  · exact FileTree.mem_edgesOf.mpr ⟨_, _, hread, hname, by decide⟩
  · exact FileTree.mem_edgesOf.mpr ⟨_, _, hread, hname, by decide⟩

/-- The file in the root is its own package, and the other one is in the package of its directories,
with a replacement character for the name that is no text. -/
theorem ends_of_edges_nestedTree :
    ∃ gc gp files es,
      (nestedTree.analyze ⟨FileName.here⟩ .classes).outcome = .ok gc ∧
      (nestedTree.analyze ⟨FileName.here⟩ .packages).outcome = .ok gp ∧
      ⟨"p.\uFFFD.C", "q.r.D"⟩ ∈ gc.edges ∧
      ⟨"A", "x"⟩ ∈ gp.edges ∧ ⟨"p.\uFFFD", "q.r"⟩ ∈ gp.edges ∧
      (∀ e ∈ gc.edges, IsClassEdge nestedTree files e) ∧
      ∀ e ∈ gp.edges, IsPackageEdge nestedTree ⟨FileName.here⟩ es files e := by
  rcases analyze_cases nestedTree ⟨FileName.here⟩ with ⟨e, hscan, -⟩ | ⟨files, hscan, houtcome⟩
  · cases hscan.symm.trans (FileTree.scan_of_resolve resolve_nestedTree)
  · obtain ⟨gc, hgc, hc⟩ := houtcome .classes
    obtain ⟨gp, hgp, hp⟩ := houtcome .packages
    obtain ⟨files', -, -, hfiles, -, hclass, -⟩ := ends_of_edges wellFormed_nestedTree hgc
    obtain rfl := Except.ok.inj (hscan.symm.trans hfiles)
    obtain ⟨files', -, es, hfiles, -, -, hpackage⟩ := ends_of_edges wellFormed_nestedTree hgp
    obtain rfl := Except.ok.inj (hscan.symm.trans hfiles)
    obtain ⟨houter, hinner⟩ := mem_nestedTree hscan
    obtain ⟨hclassEdge, hpackageEdge⟩ := innerPlace_edges
    refine ⟨gc, gp, files, es, hgc, hgp, ?_, ?_, ?_, hclass rfl, hpackage rfl⟩
    · exact hc.mem_edges.mpr ⟨_, hinner, hclassEdge⟩
    · exact hp.mem_edges.mpr ⟨_, houter, outerPlace_edge⟩
    · exact hp.mem_edges.mpr ⟨_, hinner, hpackageEdge⟩

end ReferenceGraph
