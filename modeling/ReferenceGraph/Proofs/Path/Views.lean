import ReferenceGraph.Proofs.Path.Name
import ReferenceGraph.Proofs.Path.Strip
import ReferenceGraph.Source.Summary

/-!
# The views of a path

The name of a source file can also be put together from views of its path: from the components of
the path, from what is left of them without the last one, and from the stem and the extension of the
last one. Each view has its own rule for what does not count. The components leave out what says
nothing, but keep the beginning of an absolute path and a single dot at the beginning of another;
the last component has a stem and an extension only if it is a name; and the directories are the
names among the other components. Between them the views say no more than the pieces of the path:
the last piece is the name of a source file, and the others that do not point upwards are its
directories.

* `Path.components`: the components of a path. `Path.lastName?_eq_fileName?` and
  `Path.directories_eq` are what the views make of the pieces.
* `Path.viewedName?_eq_dottedName?`: the views and the pieces give the same name. A last component
  with the extension of a source file has a stem, so the views never fail on an empty one.
* `Path.dottedName?_eq_some_iff`: the name comes from the pieces only, and in which way.
* `Path.dottedName?_insert_stay`, `Path.dottedName?_insert_above`: what makes no difference.
-/

namespace ReferenceGraph

/-! ## Components -/

namespace Path

/-- What a path consists of. -/
inductive Component where
  /-- The beginning of an absolute path. -/
  | top
  /-- A single dot at the beginning of the path. -/
  | here
  | above
  | named (name : FileName)

namespace Component

/-- The component that a piece makes which says something. -/
def ofPiece (piece : FileName) : Component :=
  if piece = FileName.above then above else named piece

/-- The component that a piece makes, if it makes one. -/
def ofPiece? (piece : FileName) : Option Component :=
  if isStay piece then none else some (ofPiece piece)

/-- The name that a component is, if it is one. -/
def name? : Component → Option FileName
  | named name => some name
  | _ => none

theorem name?_ofPiece (piece : FileName) :
    (ofPiece piece).name? = if piece = FileName.above then none else some piece := by
  rw [ofPiece]
  split <;> rfl

end Component

/-- How the path begins, if that is a component of its own. -/
def beginning (p : Path) : List Component :=
  if p.isAbsolute then [.top] else if p.beginsHere then [.here] else []

/-- The components of the path. -/
def components (p : Path) : List Component :=
  p.beginning ++ (p.bytes.splitOn slash).filterMap Component.ofPiece?

/-- The last component, if it is a name. -/
def lastName? (p : Path) : Option FileName := p.components.getLast?.bind Component.name?

/-- The names among the components of the parent, which are all but the last. -/
def directories (p : Path) : List FileName := p.components.dropLast.filterMap Component.name?

/-- The extension of the last name. -/
def extension? (p : Path) : Option Bytes := p.lastName?.bind FileName.extension?

/-- The last name without its extension. -/
def stem? (p : Path) : Option Bytes := p.lastName?.map FileName.stem

/-- The name of a source file, put together from the views of its path. An empty stem is no name. -/
def viewedName? (p : Path) : Option String :=
  if p.extension? = some FileName.sourceExtension then
    ((p.stem?.map Utf8.decodeString).filter (· ≠ "")).map fun stem =>
      ".".intercalate (p.directories.map Utf8.decodeString ++ [stem])
  else none

/-! ## Views and pieces -/

theorem name?_of_mem_beginning {p : Path} {c : Component} (h : c ∈ p.beginning) :
    c.name? = none := by
  unfold beginning at h
  split at h
  · rw [List.mem_singleton.mp h]
    rfl
  · split at h
    · rw [List.mem_singleton.mp h]
      rfl
    · cases h

theorem components_eq (p : Path) :
    p.components = p.beginning ++ p.pieces.map Component.ofPiece := by
  rw [components, pieces_eq_filter, ← List.filterMap_eq_map, List.filterMap_filter]
  congr 1
  refine List.filterMap_congr fun piece _ => ?_
  rw [Component.ofPiece?]
  cases isStay piece <;> rfl

theorem lastName?_eq_fileName? (p : Path) : p.lastName? = p.fileName? := by
  rw [lastName?, fileName?, components_eq]
  rcases List.eq_nil_or_concat' p.pieces with hnil | ⟨dirs, last, hlast⟩
  · -- All there is then is the beginning, which is no name.
    rw [hnil, List.map_nil, List.append_nil, List.getLast?_nil, Option.filter_none]
    cases hbegin : p.beginning.getLast? with
    | none => rfl
    | some c => exact name?_of_mem_beginning (List.mem_of_getLast? hbegin)
  · rw [hlast, List.map_append, List.map_singleton, ← List.append_assoc, List.getLast?_concat,
      List.getLast?_concat, Option.bind_some, Component.name?_ofPiece, Option.filter_some]
    by_cases habove : last = FileName.above <;> simp [habove]

theorem directories_eq (p : Path) :
    p.directories = p.pieces.dropLast.filter (· ≠ FileName.above) := by
  have hbegin : ∀ c ∈ p.beginning, c.name? = none := fun c => name?_of_mem_beginning
  rw [directories, components_eq]
  rcases List.eq_nil_or_concat' p.pieces with hnil | ⟨dirs, last, hlast⟩
  · rw [hnil, List.map_nil, List.append_nil, List.dropLast_nil, List.filter_nil]
    exact List.filterMap_eq_nil_iff.mpr fun c hc => hbegin c (List.dropLast_subset _ hc)
  · rw [hlast, List.map_append, List.map_singleton, ← List.append_assoc, List.dropLast_concat,
      List.dropLast_concat, List.filterMap_append, List.filterMap_eq_nil_iff.mpr hbegin,
      List.nil_append, List.filterMap_map, ← List.filterMap_eq_filter]
    refine List.filterMap_congr fun piece _ => ?_
    rw [Function.comp_apply, Component.name?_ofPiece]
    by_cases habove : piece = FileName.above <;> simp [habove, Option.guard]

/-- The extension as a view tells the source files from the rest. -/
theorem isSource_iff_extension? (p : Path) :
    p.isSource = true ↔ p.extension? = some FileName.sourceExtension := by
  rw [isSource, extension?, lastName?_eq_fileName?]
  cases p.fileName? with
  | none => simp
  | some name => simp [FileName.isSource]

/-! ## Pieces of a path with a name -/

/-- A path is that of a source file exactly if its last piece is the name of one. -/
theorem isSource_iff_leadsTo {p : Path} :
    p.isSource = true ↔ ∃ dirs stem, p.LeadsTo dirs stem := by
  rw [isSource, Option.any_eq_true]
  constructor
  · rintro ⟨last, hlast, hsource⟩
    obtain ⟨stem, hstem, rfl⟩ := FileName.isSource_iff.mp hsource
    obtain ⟨dirs, hdirs⟩ := List.getLast?_eq_some_iff.mp (Option.eq_some_of_filter_eq_some hlast)
    exact ⟨dirs, stem, hstem, hdirs⟩
  · rintro ⟨dirs, stem, h⟩
    exact ⟨_, h.fileName?, FileName.isSource_iff.mpr ⟨stem, h.stem_ne_nil, rfl⟩⟩

theorem dottedName?_eq_none_iff {p : Path} :
    p.dottedName? = none ↔ ¬∃ dirs stem, p.LeadsTo dirs stem := by
  rw [← isSource_iff_leadsTo, ← isSome_dottedName?, Option.not_isSome_iff_eq_none]

/-- The name of a path comes from its pieces only. -/
theorem dottedName?_eq_some_iff {p : Path} {name : String} :
    p.dottedName? = some name ↔
      ∃ dirs stem, p.LeadsTo dirs stem ∧
        name = dotted (dirs.filter (· ≠ FileName.above)) stem := by
  constructor
  · intro h
    have hsource : p.isSource = true := by rw [← isSome_dottedName?, h, Option.isSome_some]
    obtain ⟨dirs, stem, hleads⟩ := isSource_iff_leadsTo.mp hsource
    rw [hleads.dottedName?] at h
    exact ⟨dirs, stem, hleads, (Option.some.inj h).symm⟩
  · rintro ⟨dirs, stem, hleads, rfl⟩
    exact hleads.dottedName?

/-! ## The name from the views -/

/-- The stem as a view is never empty where it counts. -/
theorem LeadsTo.stem? {p : Path} {dirs : List FileName} {stem : Bytes} (h : p.LeadsTo dirs stem) :
    p.stem? = some stem := by
  rw [Path.stem?, lastName?_eq_fileName?, h.fileName?, Option.map_some,
    stem_sourceName h.stem_ne_nil]

theorem LeadsTo.viewedName? {p : Path} {dirs : List FileName} {stem : Bytes}
    (h : p.LeadsTo dirs stem) :
    p.viewedName? = some (dotted (dirs.filter (· ≠ FileName.above)) stem) := by
  have hext := p.isSource_iff_extension?.mp (isSource_iff_leadsTo.mpr ⟨dirs, stem, h⟩)
  have htext := Utf8.decodeString_ne_empty h.stem_ne_nil
  rw [Path.viewedName?, if_pos hext, h.stem?, Option.map_some,
    Option.filter_some_pos (by simpa using htext), Option.map_some, directories_eq, h.pieces,
    List.dropLast_concat, dotted, List.map_append, List.map_singleton]

/-- The views and the pieces of a path give the same name. -/
theorem viewedName?_eq_dottedName? (p : Path) : p.viewedName? = p.dottedName? := by
  by_cases hleads : ∃ dirs stem, p.LeadsTo dirs stem
  · obtain ⟨dirs, stem, h⟩ := hleads
    rw [h.viewedName?, h.dottedName?]
  · rw [dottedName?_eq_none_iff.mpr hleads, viewedName?, if_neg]
    rwa [← isSource_iff_extension?, isSource_iff_leadsTo]

/-! ## What makes no difference -/

/-- The name depends on the last piece and on the others that do not point upwards. -/
theorem dottedName?_congr {p q : Path} (hlast : p.pieces.getLast? = q.pieces.getLast?)
    (hdirs : p.pieces.dropLast.filter (· ≠ FileName.above) =
      q.pieces.dropLast.filter (· ≠ FileName.above)) : p.dottedName? = q.dottedName? := by
  simp only [dottedName?, fileName?, hlast, hdirs]

section Insert

variable {p : Path} {xs ys : List FileName} {piece : FileName}

/-- The pieces of a path in which one more is put between two of them. -/
theorem pieces_insert (hp : p.bytes.splitOn slash = xs ++ ys) (hpiece : slash ∉ piece) :
    (ofNames (xs ++ piece :: ys)).pieces =
      (xs.filter fun s => !isStay s) ++ (if isStay piece then [] else [piece]) ++
        ys.filter fun s => !isStay s := by
  have hslash : ∀ s ∈ xs ++ piece :: ys, slash ∉ s := by
    intro s hs
    rcases List.mem_append.mp hs with hs | hs
    · exact not_mem_of_mem_splitOn (hp ▸ List.mem_append_left ys hs)
    · rcases List.mem_cons.mp hs with rfl | hs
      · exact hpiece
      · exact not_mem_of_mem_splitOn (hp ▸ List.mem_append_right xs hs)
  rw [pieces_eq_filter, ofNames, List.splitOn_intercalate slash hslash (by simp),
    List.filter_append, List.filter_cons, List.append_assoc]
  cases isStay piece <;> simp

theorem pieces_eq_append (hp : p.bytes.splitOn slash = xs ++ ys) :
    p.pieces = (xs.filter fun s => !isStay s) ++ ys.filter fun s => !isStay s := by
  rw [pieces_eq_filter, hp, List.filter_append]

/-- Another slash or another single dot, wherever it stands in the path. -/
theorem dottedName?_insert_stay (hp : p.bytes.splitOn slash = xs ++ ys)
    (hpiece : isStay piece = true) :
    (ofNames (xs ++ piece :: ys)).dottedName? = p.dottedName? := by
  have hslash : slash ∉ piece := by
    rcases of_decide_eq_true hpiece with rfl | rfl
    · exact List.not_mem_nil
    · decide
  have hpieces : (ofNames (xs ++ piece :: ys)).pieces = p.pieces := by
    rw [pieces_insert hp hslash, pieces_eq_append hp, if_pos hpiece, List.append_nil]
  exact dottedName?_congr (by rw [hpieces]) (by rw [hpieces])

/-- Another piece that points upwards, in front of the last one. -/
theorem dottedName?_insert_above (hp : p.bytes.splitOn slash = xs ++ ys)
    (hys : ∃ name ∈ ys, isStay name = false) :
    (ofNames (xs ++ FileName.above :: ys)).dottedName? = p.dottedName? := by
  have hne : (ys.filter fun s => !isStay s) ≠ [] := by
    obtain ⟨name, hname, hstay⟩ := hys
    exact List.ne_nil_of_mem (List.mem_filter.mpr ⟨hname, by simp [hstay]⟩)
  have hslash : slash ∉ FileName.above := by decide
  have hpieces := pieces_insert hp hslash
  rw [if_neg (by decide)] at hpieces
  refine dottedName?_congr ?_ ?_
  · rw [hpieces, pieces_eq_append hp, List.getLast?_append_of_ne_nil _ hne,
      List.getLast?_append_of_ne_nil _ hne]
  · rw [hpieces, pieces_eq_append hp, List.dropLast_append_of_ne_nil hne,
      List.dropLast_append_of_ne_nil hne]
    simp

end Insert

end Path

/-- That the path is not that of a source file is all that can go wrong with a source. -/
theorem summarize_eq_error_iff {p : Path} {source : Bytes} {e : FileError} :
    summarize p source = .error e ↔ e = .unnamed p ∧ ¬∃ dirs stem, p.LeadsTo dirs stem := by
  rw [← Path.dottedName?_eq_none_iff, summarize]
  cases p.dottedName? with
  | none => simp [eq_comm]
  | some name => simp

/-- A path has a name exactly if its last piece is that of a source file, and then it is named after
this piece and those in front of it that do not point upwards; otherwise there is an error for the
path. The views of the path agree with this, on the name and on what a source file is, and with the
right extension there is always a stem. More slashes and single dots anywhere change nothing, nor do
pieces in front of the last one that point upwards. -/
theorem source_path_name (p : Path) :
    (∀ name, p.dottedName? = some name ↔
      ∃ dirs stem, p.LeadsTo dirs stem ∧
        name = dotted (dirs.filter (· ≠ FileName.above)) stem) ∧
    (∀ source e, summarize p source = .error e ↔
      e = .unnamed p ∧ ¬∃ dirs stem, p.LeadsTo dirs stem) ∧
    p.viewedName? = p.dottedName? ∧
    p.dottedName?.isSome = p.isSource ∧
    (p.isSource = true ↔ p.extension? = some FileName.sourceExtension) ∧
    (p.isSource = true → ∃ stem, p.stem? = some stem ∧ Utf8.decodeString stem ≠ "") ∧
    (∀ xs piece ys, p.bytes.splitOn Path.slash = xs ++ ys → isStay piece = true →
      (Path.ofNames (xs ++ piece :: ys)).dottedName? = p.dottedName?) ∧
    (∀ xs ys, p.bytes.splitOn Path.slash = xs ++ ys → (∃ name ∈ ys, isStay name = false) →
      (Path.ofNames (xs ++ FileName.above :: ys)).dottedName? = p.dottedName?) := by
  refine ⟨fun name => Path.dottedName?_eq_some_iff, fun source e => summarize_eq_error_iff,
    p.viewedName?_eq_dottedName?, p.isSome_dottedName?, p.isSource_iff_extension?, ?_,
    fun xs piece ys => Path.dottedName?_insert_stay, fun xs ys => Path.dottedName?_insert_above⟩
  intro hsource
  obtain ⟨dirs, stem, h⟩ := Path.isSource_iff_leadsTo.mp hsource
  exact ⟨stem, h.stem?, Utf8.decodeString_ne_empty h.stem_ne_nil⟩

example : (Path.ofString "/a//b/./../..java/").dottedName? = some "a.b.." := by decide

end ReferenceGraph
