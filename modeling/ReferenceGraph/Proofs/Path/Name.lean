import ReferenceGraph.Name.Granularity
import ReferenceGraph.Proofs.Text.Ascii
import ReferenceGraph.Proofs.Tree.Root

/-!
# The names of scanned files

The names of a file and of its package follow the way to the file below the root. The file is named
after its directories and its stem, with dots between them. If the stem holds no dot, the last dot
of that name is the one in front of the stem, so the package is named after the directories. A file
that lies in the root itself has no dot in its name then, and is its own package.

* `Path.LeadsTo`: a path whose last piece is the name of a source file; `Path.LeadsTo.dottedName?`
  is what the file is called then.
* `SourceFile.At`: a file with this stem in these directories below a root.
* `exists_at_of_scan`: every scanned file that has a name is in such a place.
* `dottedName?_ofNames`, `parentName_dotted`: the name of the file in a place, and of its package.
-/

namespace ReferenceGraph

/-! ## Parents -/

/-- Without a dot there is no parent to name. -/
theorem parentName_of_not_mem {name : String} (h : '.' ∉ name.toList) : parentName name = name := by
  rw [parentName, List.splitOn_eq_singleton h]
  rfl

/-- The parent is what stands before the last dot. -/
theorem parentName_append (parent : List Char) {last : List Char} (h : '.' ∉ last) :
    parentName (String.ofList (parent ++ '.' :: last)) = String.ofList parent := by
  rw [parentName, String.toList_ofList, splitOn_append_last parent h, List.dropLast_concat]
  split
  · next hnil => exact absurd hnil (List.splitOn_ne_nil '.' parent)
  · next hcons => rw [← hcons, List.intercalate_splitOn]

theorem parentName_concat {parents : List String} (hne : parents ≠ []) {last : String}
    (h : '.' ∉ last.toList) :
    parentName (".".intercalate (parents ++ [last])) = ".".intercalate parents := by
  have hdot : ".".intercalate (parents ++ [last]) =
      String.ofList ((".".intercalate parents).toList ++ '.' :: last.toList) := by
    rw [String.intercalate_append_of_ne_nil hne (by simp), String.intercalate_singleton,
      ← String.toList_inj, String.toList_ofList, String.append_assoc, String.toList_append,
      String.toList_append]
    rfl
  rw [hdot, parentName_append _ h, String.ofList_toList]

/-! ## Names of files -/

/-- The name of the source file with this stem. -/
def sourceName (stem : Bytes) : FileName := stem ++ FileName.dotByte :: FileName.sourceExtension

theorem stem_sourceName {stem : Bytes} (h : stem ≠ []) : (sourceName stem).stem = stem := by
  have hext : FileName.dotByte ∉ FileName.sourceExtension := by decide
  rw [FileName.stem, sourceName, FileName.beforeLastDot_append stem hext, if_neg h]

/-- The name of the file with this stem in these directories, the outermost one first. -/
def dotted (dirs : List FileName) (stem : Bytes) : String :=
  ".".intercalate ((dirs ++ [stem]).map Utf8.decodeString)

/-- The pieces of the path are these, and behind them the name of the source file with this stem. -/
structure Path.LeadsTo (p : Path) (dirs : List FileName) (stem : Bytes) : Prop where
  stem_ne_nil : stem ≠ []
  pieces : p.pieces = dirs ++ [sourceName stem]

theorem sourceName_ne_above {stem : Bytes} (h : stem ≠ []) : sourceName stem ≠ FileName.above := by
  intro habove
  have hsource : (sourceName stem).isSource = true := FileName.isSource_iff.mpr ⟨stem, h, rfl⟩
  rw [habove] at hsource
  exact absurd hsource (by decide)

namespace Path

theorem LeadsTo.fileName? {p : Path} {dirs : List FileName} {stem : Bytes}
    (h : p.LeadsTo dirs stem) : p.fileName? = some (sourceName stem) := by
  rw [Path.fileName?, h.pieces, List.getLast?_concat]
  simpa using sourceName_ne_above h.stem_ne_nil

/-- The file is named after the pieces in front of it that do not point upwards. -/
theorem LeadsTo.dottedName? {p : Path} {dirs : List FileName} {stem : Bytes}
    (h : p.LeadsTo dirs stem) :
    p.dottedName? = some (dotted (dirs.filter (· ≠ FileName.above)) stem) := by
  have hsource : (sourceName stem).isSource = true :=
    FileName.isSource_iff.mpr ⟨stem, h.stem_ne_nil, rfl⟩
  rw [Path.dottedName?, h.fileName?]
  simp only [hsource, if_true, h.pieces, List.dropLast_concat, stem_sourceName h.stem_ne_nil,
    dotted]

end Path

theorem dottedName?_ofNames {dirs : List FileName} {stem : Bytes} (hstem : stem ≠ [])
    (hnames : ∀ name ∈ dirs ++ [sourceName stem], name.IsEntryName) :
    (Path.ofNames (dirs ++ [sourceName stem])).dottedName? = some (dotted dirs stem) := by
  have hleads : (Path.ofNames (dirs ++ [sourceName stem])).LeadsTo dirs stem :=
    ⟨hstem, Path.pieces_ofNames hnames (by simp)⟩
  have hdirs : dirs.filter (· ≠ FileName.above) = dirs :=
    List.filter_eq_self.mpr fun name h => by simpa using (hnames name (by simp [h])).ne_above
  rw [hleads.dottedName?, hdirs]

/-- Where the stem holds no dot, the package of a file is named after its directories, if there are
any, and otherwise after the file itself. -/
theorem parentName_dotted {dirs : List FileName} {stem : Bytes} (h : FileName.dotByte ∉ stem) :
    parentName (dotted dirs stem) =
      if dirs = [] then Utf8.decodeString stem
      else ".".intercalate (dirs.map Utf8.decodeString) := by
  have hstem : '.' ∉ (Utf8.decodeString stem).toList := by
    rw [Utf8.decodeString, String.toList_ofList]
    exact fun hmem => h (Utf8.mem_of_mem_decode (by decide) (by decide) hmem)
  rw [dotted, List.map_append, List.map_singleton]
  split
  · next hnil =>
    rw [hnil, List.map_nil, List.nil_append, String.intercalate_singleton,
      parentName_of_not_mem hstem]
  · next hne => exact parentName_concat (by simpa using hne) hstem

/-! ## Places below a root -/

/-- The file has this stem and is in these directories below a root that has these entries. -/
structure SourceFile.At (f : SourceFile) (root : Path) (es : List (FileName × Entry))
    (dirs : List FileName) (stem : Bytes) : Prop where
  stem_ne_nil : stem ≠ []
  entry : ∃ e, (Entry.dir es).at? (dirs ++ [sourceName stem]) = some e ∧ e.isDirectory = false
  path : f.path = root.join (dirs ++ [sourceName stem])
  relative : f.relative = .ofNames (dirs ++ [sourceName stem])

theorem SourceFile.At.dottedName? {f : SourceFile} {root : Path} {es : List (FileName × Entry)}
    {dirs : List FileName} {stem : Bytes} (h : f.At root es dirs stem)
    (hes : (Entry.dir es).WellFormed) : f.relative.dottedName? = some (dotted dirs stem) := by
  obtain ⟨e, he, -⟩ := h.entry
  rw [h.relative]
  exact dottedName?_ofNames h.stem_ne_nil fun name => hes.isEntryName_of_at? he

/-- A scanned file that has a name is in some directories below the root. Only the root itself can
be listed without being in such a place, and it has no name. -/
theorem exists_at_of_scan {t : FileTree} (ht : t.WellFormed) {root : Path} {location : Location}
    {es : List (FileName × Entry)}
    (hroot : t.resolve .follow root = .ok (.entry location (.dir es))) {files : List SourceFile}
    (hscan : t.scan root = .ok files) {f : SourceFile} (hf : f ∈ files) {name : String}
    (hname : f.relative.dottedName? = some name) : ∃ dirs stem, f.At root es dirs stem := by
  obtain ⟨location', es', hroot', rfl⟩ := FileTree.scan_eq_ok hscan
  obtain ⟨rfl, hdir⟩ := Place.entry.inj (Except.ok.inj (hroot.symm.trans hroot'))
  obtain rfl := Entry.dir.inj hdir
  have hes := ht.of_resolve hroot
  rcases List.mem_append.mp hf with hf | hf
  · split at hf
    · rw [List.mem_singleton.mp hf, dottedName?_rootFile] at hname
      cases hname
    · cases hf
  · obtain ⟨l, hl, rfl⟩ := List.mem_map.mp hf
    obtain ⟨hentry, last, hlast, hsource⟩ := (hes.mem_sourcesBelow.mp hl).1
    obtain ⟨dirs, rfl⟩ := List.getLast?_eq_some_iff.mp hlast
    obtain ⟨stem, hstem, rfl⟩ := FileName.isSource_iff.mp hsource
    exact ⟨dirs, stem, hstem, hentry, rfl, rfl⟩

end ReferenceGraph
