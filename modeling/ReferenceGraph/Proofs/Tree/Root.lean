import ReferenceGraph.Proofs.Tree.Scan
import ReferenceGraph.Proofs.Tree.Walk

/-!
# The root among the files of a scan

A scan is meant to list entries strictly below its root, each under a relative path that gives the
file its name. It does so unless the root is itself a link with the name of a source file. Such a
root is listed in front of the files below it, with an empty relative path, because the name is
looked for in the whole path of an entry and not in what is left of it below the root. It is a
directory, so it can neither be named nor read.

* `SourceFile.Below`: what a scan is meant to list. `below_of_mem_sourceFiles` shows it for what is
  listed below the root.
* `scan_below_root_iff`: when it lists nothing else, and what else it lists.
* `scan_lists_root`: a root that is listed.
-/

namespace ReferenceGraph

/-- The file is an entry strictly below a root with these entries, and its path below the root gives
it a name. -/
structure SourceFile.Below (f : SourceFile) (root : Path) (es : List (FileName × Entry)) :
    Prop where
  entry : ∃ l e, l ≠ [] ∧ (Entry.dir es).at? l = some e ∧ f = ⟨root.join l, .ofNames l⟩
  relative_ne_nil : f.relative.bytes ≠ []
  named : ∃ name, f.relative.dottedName? = some name

theorem dottedName?_rootFile (root : Path) : (rootFile root).relative.dottedName? = none := by
  have h : (Path.mk []).dottedName? = none := by decide
  exact h

theorem not_below_rootFile (root : Path) (es : List (FileName × Entry)) :
    ¬(rootFile root).Below root es := fun h => h.relative_ne_nil rfl

theorem below_of_mem_sourceFiles {es : List (FileName × Entry)} (h : (Entry.dir es).WellFormed)
    {root : Path} {refusal? : Location → Option PathError} {f : SourceFile}
    (hf : f ∈ sourceFiles root refusal? es) : f.Below root es := by
  obtain ⟨l, hl, rfl⟩ := List.mem_map.mp hf
  have hsource := (h.mem_sourcesBelow.mp hl).1
  obtain ⟨e, he, -⟩ := hsource.entry
  have hnamed := (hsource.isSource h).isSome_dottedName?
  refine ⟨⟨l, e, hsource.ne_nil, he, rfl⟩, ?_, Option.isSome_iff_exists.mp hnamed⟩
  intro hnil
  rw [show Path.ofNames l = ⟨[]⟩ from congrArg Path.mk hnil] at hnamed
  exact absurd hnamed (by decide)

theorem FileTree.isSourceLink_iff {t : FileTree} {root : Path} :
    t.isSourceLink root = true ↔
      (∃ place target, t.resolve .keep root = .ok (.entry place (.link target))) ∧
        root.isSource = true := by
  unfold isSourceLink
  split
  · next place target h => simp [h]
  · next h =>
    refine iff_of_false (by simp) ?_
    rintro ⟨⟨place, target, hlink⟩, -⟩
    exact h place target hlink

/-- What a scan lists is an entry strictly below the root that its relative path gives a name, or it
is the root. The root is listed exactly if it is a link with the name of a source file, so in all
other cases every listed file is below the root and has a name. A root that is listed has no name,
and as a file it cannot be read. -/
theorem scan_below_root_iff {t : FileTree} (ht : t.WellFormed) {root : Path}
    {files : List SourceFile} (hscan : t.scan root = .ok files) :
    ∃ location es, t.resolve .follow root = .ok (.entry location (.dir es)) ∧
      (∀ f ∈ files, f.Below root es ∨ f = rootFile root) ∧
      ((∀ f ∈ files, f.Below root es) ↔
        ¬((∃ place target, t.resolve .keep root = .ok (.entry place (.link target))) ∧
          root.isSource = true)) ∧
      (rootFile root).relative.dottedName? = none ∧
      t.read (rootFile root).path = .error ((t.refusal? location).getD .isDirectory) := by
  obtain ⟨location, es, hroot, rfl⟩ := FileTree.scan_eq_ok hscan
  have hes := ht.of_resolve hroot
  have hbelow : ∀ f ∈ sourceFiles root (t.refusalBelow location) es, f.Below root es :=
    fun f hf => below_of_mem_sourceFiles hes hf
  refine ⟨location, es, hroot, fun f hf => ?_, ?_, dottedName?_rootFile root,
    FileTree.read_rootFile hroot⟩
  · rcases List.mem_append.mp hf with hf | hf
    · split at hf
      · exact .inr (List.mem_singleton.mp hf)
      · cases hf
    · exact .inl (hbelow f hf)
  · rw [← FileTree.isSourceLink_iff]
    constructor
    · intro h hlink
      rw [if_pos hlink] at h
      exact not_below_rootFile root es (h _ (by simp))
    · intro hlink f hf
      rw [if_neg hlink, List.nil_append] at hf
      exact hbelow f hf

/-- A directory, and a link to it that has the name of a source file. -/
def linkedRoot : FileTree where
  entries := [
    (Utf8.encodeString "a", .dir [(Utf8.encodeString "B.java", .file [])]),
    (Utf8.encodeString "L.java", .link (.ofString "a"))]
  working := []

theorem wellFormed_linkedRoot : linkedRoot.WellFormed := by
  refine .dir (by decide) (by decide) ?_
  simp only [linkedRoot, List.forall_mem_cons]
  refine ⟨.dir (by decide) (by decide) ?_, .link _, by simp⟩
  simp only [List.forall_mem_cons]
  exact ⟨.file _, by simp⟩

theorem resolve_linkedRoot_directory :
    linkedRoot.resolve .follow (.ofString "a") =
      .ok (.entry [Utf8.encodeString "a"] (.dir [(Utf8.encodeString "B.java", .file [])])) := by
  rw [Path.ofString, FileTree.resolve_name _ _ (by decide) (by decide)]
  exact walk_names (by decide) rfl (by simp)

/-- The way of the link goes on with the steps of its target. -/
theorem resolve_linkedRoot_link :
    linkedRoot.resolve .follow (.ofString "L.java") =
      .ok (.entry [Utf8.encodeString "a"] (.dir [(Utf8.encodeString "B.java", .file [])])) := by
  have htarget : (Path.ofString "a").steps = [Utf8.encodeString "a"] := by decide
  have hlink : linkedRoot.entries.lookup (Utf8.encodeString "L.java") =
    some (.link (.ofString "a")) := rfl
  rw [Path.ofString, FileTree.resolve_link (by simp) (by decide) (by decide) rfl
    hlink (by decide), if_neg (by decide), htarget]
  exact walk_names (by decide) rfl (by simp)

theorem keep_linkedRoot_link :
    linkedRoot.resolve .keep (.ofString "L.java") =
      .ok (.entry [Utf8.encodeString "L.java"] (.link (.ofString "a"))) := by
  rw [Path.ofString, FileTree.resolve_name _ _ (by decide) (by decide)]
  exact walk_keep rfl (by decide) (by decide) rfl

theorem sourceFiles_linkedRoot (root : Path) (location : Location) :
    sourceFiles root (linkedRoot.refusalBelow location) [(Utf8.encodeString "B.java", .file [])] =
      [⟨root.join [Utf8.encodeString "B.java"], .ofNames [Utf8.encodeString "B.java"]⟩] := by
  have hsource : FileName.isSource (Utf8.encodeString "B.java") = true := by decide
  simp [sourceFiles, sourcesBelow, inNameOrder, findingsOfEach, Entry.findings, Finding.under,
    Finding.source?, FileTree.refusalBelow, FileTree.refusal?, linkedRoot, hsource]

/-- Scanned through the directory itself, every file is below the root and has a name. -/
theorem scan_below_plain_root :
    ∃ files es, linkedRoot.scan (.ofString "a") = .ok files ∧ files ≠ [] ∧
      ∀ f ∈ files, f.Below (.ofString "a") es := by
  have hself : ¬linkedRoot.isSourceLink (.ofString "a") = true := fun h =>
    absurd (FileTree.isSourceLink_iff.mp h).2 (by decide +kernel)
  have hscan := FileTree.scan_of_resolve resolve_linkedRoot_directory
  rw [if_neg hself, sourceFiles_linkedRoot] at hscan
  obtain ⟨location, es, -, -, hiff, -⟩ := scan_below_root_iff wellFormed_linkedRoot hscan
  refine ⟨_, es, hscan, by simp, hiff.mpr ?_⟩
  rintro ⟨-, hsource⟩
  exact absurd hsource (by decide +kernel)

/-- Scanned through the link, the root is one of the files, with an empty relative path that gives
it no name. -/
theorem scan_lists_root :
    linkedRoot.WellFormed ∧
      linkedRoot.scan (.ofString "L.java") =
        .ok [⟨.ofString "L.java", ⟨[]⟩⟩, ⟨.ofString "L.java/B.java", .ofString "B.java"⟩] ∧
      (Path.mk []).dottedName? = none := by
  have hself : linkedRoot.isSourceLink (.ofString "L.java") = true :=
    FileTree.isSourceLink_iff.mpr ⟨⟨_, _, keep_linkedRoot_link⟩, by decide +kernel⟩
  have hscan := FileTree.scan_of_resolve resolve_linkedRoot_link
  rw [if_pos hself, sourceFiles_linkedRoot] at hscan
  refine ⟨wellFormed_linkedRoot, hscan.trans ?_, by decide +kernel⟩
  decide +kernel

end ReferenceGraph
