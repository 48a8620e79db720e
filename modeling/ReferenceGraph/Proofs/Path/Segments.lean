import ReferenceGraph.Analysis.Extract
import ReferenceGraph.Proofs.Name.Grammar
import ReferenceGraph.Proofs.Path.Name
import ReferenceGraph.Proofs.Source.Boundary
import ReferenceGraph.Proofs.Text.Encoded

/-!
# Names that are paths

The same segments make a dotted name and the path of a source file: with dots between them, or with
slashes between them and the extension behind them. As long as no segment is empty or holds a slash
or a dot, the file at the path has the name, and the name gives back the segments. So files whose
paths have different segments have different names.

The segments of a qualified name are of this kind. So there is a file for each qualified name, and
what refers to the name and what the file refers to meet in one node of the graph.

* `OrdinaryName`: the segments, their dotted name and their path.
* `OrdinaryName.dottedName?_path`: the name of the file at the path.
* `OrdinaryName.splitOn_text`, `OrdinaryName.text_injective`: the name has the segments.
* `QualifiedName.ordinary`: a qualified name as such a name. `QualifiedName.path_ordinary` is its
  path, with slashes in place of its dots.
* `ordinary_names_of_files`: the statement for all segments and all qualified names.
-/

namespace ReferenceGraph

/-- Segments that can be parts of a dotted name as well as names of directories and the stem of a
file: there is one at least, and none of them is empty or holds a slash or a dot. -/
structure OrdinaryName where
  segments : List String
  segments_ne_nil : segments ≠ []
  ordinary : ∀ s ∈ segments, s ≠ "" ∧ '/' ∉ s.toList ∧ '.' ∉ s.toList

namespace OrdinaryName

/-- The segments with dots between them. -/
def text (n : OrdinaryName) : String := ".".intercalate n.segments

/-- The path of the source file with this name: the segments with slashes between them, and the
extension. -/
def path (n : OrdinaryName) : Path := .ofString ("/".intercalate n.segments ++ ".java")

theorem toList_text (n : OrdinaryName) :
    n.text.toList = ['.'].intercalate (n.segments.map String.toList) := String.toList_intercalate

/-- The name gives back its segments. -/
theorem splitOn_text (n : OrdinaryName) :
    n.text.toList.splitOn '.' = n.segments.map String.toList := by
  rw [toList_text]
  refine List.splitOn_intercalate '.' ?_ (by simpa using n.segments_ne_nil)
  intro cs hcs
  obtain ⟨s, hs, rfl⟩ := List.mem_map.mp hcs
  exact (n.ordinary s hs).2.2

/-- Different segments make different names. -/
theorem text_injective {m n : OrdinaryName} (h : m.text = n.text) : m.segments = n.segments := by
  have hlists : m.segments.map String.toList = n.segments.map String.toList := by
    rw [← m.splitOn_text, h, n.splitOn_text]
  exact (List.map_injective_iff.mpr fun _ _ => String.toList_inj.mp) hlists

end OrdinaryName

/-! ## Segments as names of entries -/

section Entries

variable {s : String}

theorem encodeString_ne_nil (h : s ≠ "") : Utf8.encodeString s ≠ [] := by
  intro hnil
  have htext := Utf8.decodeString_encodeString s
  rw [hnil] at htext
  exact h htext.symm

theorem slash_not_mem_encodeString (h : '/' ∉ s.toList) : Path.slash ∉ Utf8.encodeString s :=
  mt (Utf8.mem_encode_iff (by decide) (by decide)).mp h

theorem dotByte_not_mem_encodeString (h : '.' ∉ s.toList) :
    FileName.dotByte ∉ Utf8.encodeString s :=
  mt (Utf8.mem_encode_iff (by decide) (by decide)).mp h

/-- A segment without slashes and dots is the name of an entry. -/
theorem isEntryName_encodeString (hne : s ≠ "") (hslash : '/' ∉ s.toList) (hdot : '.' ∉ s.toList) :
    FileName.IsEntryName (Utf8.encodeString s) := by
  have hbyte := dotByte_not_mem_encodeString hdot
  refine ⟨encodeString_ne_nil hne, slash_not_mem_encodeString hslash, ?_, ?_⟩
  · intro hhere
    exact hbyte (hhere ▸ List.mem_cons_self)
  · intro habove
    exact hbyte (habove ▸ List.mem_cons_self)

/-- A name with the extension of source files is the name of an entry, if it holds no slash. -/
theorem isEntryName_sourceName {stem : Bytes} (hne : stem ≠ []) (hslash : Path.slash ∉ stem) :
    (sourceName stem).IsEntryName := by
  have hrest : Path.slash ∉ FileName.dotByte :: FileName.sourceExtension := by decide
  refine ⟨by simp [sourceName], ?_, ?_, sourceName_ne_above hne⟩
  · intro hmem
    exact (List.mem_append.mp hmem).elim hslash hrest
  · intro hhere
    have hlength := congrArg List.length hhere
    have hext : FileName.sourceExtension.length = 4 := by decide
    simp only [sourceName, FileName.here, List.length_append, List.length_cons, hext,
      List.length_nil] at hlength
    omega

end Entries

namespace OrdinaryName

variable (n : OrdinaryName)

theorem exists_stem : ∃ dirs stem, n.segments = dirs ++ [stem] := by
  obtain h | ⟨dirs, stem, h⟩ := List.eq_nil_or_concat' n.segments
  · exact absurd h n.segments_ne_nil
  · exact ⟨dirs, stem, h⟩

/-- The segments with slashes between them are a path, and the extension belongs to the last one. -/
theorem path_eq_ofNames {dirs : List String} {stem : String} (h : n.segments = dirs ++ [stem]) :
    n.path =
      .ofNames (dirs.map Utf8.encodeString ++ [sourceName (Utf8.encodeString stem)]) := by
  have hext : Utf8.encode ".java".toList = FileName.dotByte :: FileName.sourceExtension := by
    decide
  have hslash : Utf8.encode "/".toList = [Path.slash] := by decide
  have hmap : ((dirs ++ [stem]).map String.toList).map Utf8.encode =
      dirs.map Utf8.encodeString ++ [Utf8.encodeString stem] := by
    rw [List.map_map, List.map_append]
    rfl
  rw [path, h, Path.ofString, Utf8.encodeString, String.toList_append, String.toList_intercalate,
    Utf8.encode_append, hext]
  show Path.mk (Utf8.encode (['/'].intercalate _) ++ _) = _
  rw [Utf8.encode_intercalate, hmap, show Utf8.encode ['/'] = [Path.slash] from hslash,
    intercalate_concat_append]
  rfl

/-- The file at the path has the name. -/
theorem dottedName?_path : n.path.dottedName? = some n.text := by
  obtain ⟨dirs, stem, h⟩ := n.exists_stem
  obtain ⟨hdirs, hstem⟩ := List.forall_mem_append.mp (h ▸ n.ordinary)
  obtain ⟨hne, hslash, -⟩ := hstem stem List.mem_cons_self
  have hnames : ∀ name ∈ dirs.map Utf8.encodeString ++ [sourceName (Utf8.encodeString stem)],
      FileName.IsEntryName name := by
    refine List.forall_mem_append.mpr ⟨?_, ?_⟩
    · intro name hname
      obtain ⟨s, hs, rfl⟩ := List.mem_map.mp hname
      obtain ⟨hs₁, hs₂, hs₃⟩ := hdirs s hs
      exact isEntryName_encodeString hs₁ hs₂ hs₃
    · intro name hname
      rw [List.mem_singleton.mp hname]
      exact isEntryName_sourceName (encodeString_ne_nil hne) (slash_not_mem_encodeString hslash)
  have htexts : (dirs.map Utf8.encodeString ++ [Utf8.encodeString stem]).map Utf8.decodeString =
      dirs ++ [stem] := by
    rw [← List.map_singleton, ← List.map_append, List.map_map]
    exact (List.map_congr_left fun s _ => Utf8.decodeString_encodeString s).trans (List.map_id _)
  rw [n.path_eq_ofNames h, dottedName?_ofNames (encodeString_ne_nil hne) hnames, dotted, htexts,
    text, h]

end OrdinaryName

/-! ## Qualified names -/

namespace QualifiedName

variable (n : QualifiedName)

/-- A slash in place of a dot. -/
def slashForDot (c : Char) : Char := if c = '.' then '/' else c

/-- The path of the source file for the name: the name with slashes in place of its dots, and the
extension. -/
def path : Path := .ofString (String.ofList (n.chars.map slashForDot) ++ ".java")

theorem ne_nil_of_mem_segments {s : List Char} (h : s ∈ n.segments) : s ≠ [] := by
  rcases List.mem_append.mp h with h | h
  · exact (n.isPackageText_of_mem_package h).1
  · rw [List.mem_singleton.mp h]
    intro hnil
    have hsimple := n.isSimpleName_simple
    rw [hnil] at hsimple
    cases hsimple

/-- A slash may stand in front of a name, so no name holds one. -/
theorem slash_not_mem_of_mem_segments {s : List Char} (h : s ∈ n.segments) : '/' ∉ s := by
  intro hslash
  have hboundary := isBoundary_of_mem_chars (mem_intercalate_of_mem h hslash)
  exact absurd hboundary (by decide +kernel)

theorem map_slashForDot_chars : n.chars.map slashForDot = ['/'].intercalate n.segments := by
  have hjoin : n.chars.map slashForDot =
      ['/'].intercalate (n.segments.map (List.map slashForDot)) :=
    apply_intercalate (a := '.') rfl (by simp [slashForDot]) n.segments
  have hsegments : n.segments.map (List.map slashForDot) = n.segments := by
    refine (List.map_congr_left fun s hs => ?_).trans (List.map_id _)
    refine (List.map_congr_left fun c hc => if_neg ?_).trans (List.map_id s)
    rintro rfl
    exact dot_not_mem hs hc
  rw [hjoin, hsegments]

/-- The name as segments that can be parts of a path. -/
def ordinary : OrdinaryName where
  segments := n.segments.map String.ofList
  segments_ne_nil := by simp [segments]
  ordinary := by
    intro s hs
    obtain ⟨cs, hcs, rfl⟩ := List.mem_map.mp hs
    rw [String.toList_ofList]
    refine ⟨?_, n.slash_not_mem_of_mem_segments hcs, dot_not_mem hcs⟩
    intro hempty
    exact n.ne_nil_of_mem_segments hcs (String.ofList_eq_empty_iff.mp hempty)

theorem map_toList_ordinary : n.ordinary.segments.map String.toList = n.segments := by
  rw [ordinary, List.map_map]
  exact (List.map_congr_left fun _ _ => String.toList_ofList).trans (List.map_id _)

theorem text_ordinary : n.ordinary.text = n.text := by
  rw [← String.toList_inj, n.ordinary.toList_text, map_toList_ordinary, n.toList_text]
  rfl

theorem path_ordinary : n.ordinary.path = n.path := by
  have htext : "/".intercalate n.ordinary.segments = String.ofList (n.chars.map slashForDot) := by
    rw [← String.toList_inj, String.toList_intercalate, map_toList_ordinary, map_slashForDot_chars]
    exact String.toList_ofList.symm
  rw [OrdinaryName.path, htext, path]

end QualifiedName

/-- The file at the path of some segments is named after them, and the name gives back the segments,
so files with different segments have different classes as their nodes. For every qualified name
there is a file that is called so, at the path that has slashes in place of the dots, whatever the
file says. Its edges begin at the node of the name, and at the same node ends an edge of everything
that refers to the name. -/
theorem ordinary_names_of_files (n : OrdinaryName) :
    n.path.dottedName? = some n.text ∧
      n.text.toList.splitOn '.' = n.segments.map String.toList ∧
      (∀ m : OrdinaryName, m.segments ≠ n.segments → ∀ name name',
        m.path.dottedName? = some name → n.path.dottedName? = some name' →
          Granularity.classes.collapse name ≠ Granularity.classes.collapse name') ∧
      ∀ q : QualifiedName,
        q.path.dottedName? = some q.text ∧
          ∀ source, ∃ file, summarize q.path source = .ok file ∧ file.name = q.text ∧
            ∀ kind, (∀ e ∈ file.edges kind, e.source = kind.collapse q.text) ∧
              ∀ other : Summary, q ∈ other.references →
                ⟨kind.collapse other.name, kind.collapse q.text⟩ ∈ other.edges kind := by
  refine ⟨n.dottedName?_path, n.splitOn_text, ?_, fun q => ?_⟩
  · intro m hne name name' hname hname' heq
    obtain rfl := Option.some.inj (m.dottedName?_path.symm.trans hname)
    obtain rfl := Option.some.inj (n.dottedName?_path.symm.trans hname')
    exact hne (OrdinaryName.text_injective heq)
  · have hname : q.path.dottedName? = some q.text := by
      rw [← q.path_ordinary, q.ordinary.dottedName?_path, q.text_ordinary]
    refine ⟨hname, fun source => ?_⟩
    have hfile : ∃ file, summarize q.path source = .ok file ∧ file.name = q.text := by
      simp only [summarize, hname]
      exact ⟨_, rfl, rfl⟩
    obtain ⟨file, hfile, htext⟩ := hfile
    refine ⟨file, hfile, htext, fun kind => ⟨fun e he => ?_, fun other hother => ?_⟩⟩
    · rw [edges_map_source kind file he, htext]
    · exact List.mem_map.mpr ⟨q, hother, rfl⟩

/-- A blank and a letter beyond ASCII in names of directories, another class in the same directory,
and a file that has the form of a qualified name. -/
theorem names_of_nearby_files :
    (Path.ofString "a b/ñ/C$.java").dottedName? = some "a b.ñ.C$" ∧
      Granularity.classes.collapse "a b.ñ.D" ≠ Granularity.classes.collapse "a b.ñ.C$" ∧
      (Path.ofString "q/r/D.java").dottedName? = some "q.r.D" := by
  have hother := ordinary_names_of_files ⟨["a b", "ñ", "D"], by decide, by decide⟩
  obtain ⟨hname, -, hdistinct, hqualified⟩ :=
    ordinary_names_of_files ⟨["a b", "ñ", "C$"], by decide, by decide⟩
  have hq := hqualified ⟨["q".toList, "r".toList], "D".toList, by decide, by decide, by decide⟩
  refine ⟨hname, ?_, hq.1⟩
  exact hdistinct ⟨["a b", "ñ", "D"], by decide, by decide⟩ (by decide) _ _ hother.1 hname

end ReferenceGraph
