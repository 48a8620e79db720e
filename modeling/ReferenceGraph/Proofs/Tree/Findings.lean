import Mathlib.Data.List.Sort
import ReferenceGraph.Path.Name
import ReferenceGraph.Proofs.Tree.WellFormed
import ReferenceGraph.Tree.Access
import ReferenceGraph.Tree.Scan

/-!
# What a walk through a tree finds

A walk through a well-formed tree comes to whatever it can reach through directories that can be
listed: to every file and every link there, and to every directory that cannot be listed itself. It
comes to each of them once, in an order that the tree itself gives: that of the names on the way to
them, compared name by name. The source files among the findings have a relative path that leads
through exactly the names on the way.

* `Location.Reachable`: every directory on the way to a location can be listed.
* `Entry.Holds`: what a finding says about an entry. `Entry.WellFormed.mem_findings` says that the
  findings are what the entry holds at reachable locations, by induction on the entry.
* `Entry.WellFormed.pairwise_findings`: they are found in the order of their names, by the same
  induction; `pairwise_inNameOrder` is what one directory adds to it.
* `Entry.WellFormed.mem_sourcesBelow`, `Entry.WellFormed.mem_refusedBelow`: the source files and
  the directories among them.
* `FileTree.scan_eq_ok`: what a scan lists, the root itself included.
* `exists_dottedName_of_read`: a scanned file that can be read has a name.
-/

namespace ReferenceGraph

/-- Every directory on the way to the location can be listed. -/
def Location.Reachable (refusal? : Location → Option PathError) (l : Location) : Prop :=
  ∀ m, m <+: l → m ≠ l → refusal? m = none

theorem Location.reachable_nil (refusal? : Location → Option PathError) :
    Reachable refusal? [] := fun _ hm hne => absurd (List.prefix_nil.mp hm) hne

/-- The way to a location through a name starts in the directory of the name, and goes on from
there. -/
theorem Location.reachable_cons {refusal? : Location → Option PathError} {name : FileName}
    {l : Location} :
    Reachable refusal? (name :: l) ↔
      refusal? [] = none ∧ Reachable (fun m => refusal? (name :: m)) l := by
  constructor
  · intro h
    refine ⟨h [] List.nil_prefix (by simp), fun m hm hne => ?_⟩
    exact h _ (List.cons_prefix_cons.mpr ⟨rfl, hm⟩) (by simpa using hne)
  · rintro ⟨hfirst, hrest⟩ m hm hne
    cases m with
    | nil => exact hfirst
    | cons k m =>
      obtain ⟨rfl, hrest'⟩ := List.cons_prefix_cons.mp hm
      exact hrest m hrest' (by simpa using hne)

namespace Finding

/-- The place of the finding below the start of the walk. -/
def location : Finding → Location
  | file l => l
  | unlistable l _ => l

@[simp] theorem location_under (name : FileName) (x : Finding) :
    (x.under name).location = name :: x.location := by
  cases x <;> rfl

/-- What is not found at the start of the walk is found under the first name on the way. -/
theorem exists_under {x : Finding} (hx : x.location ≠ []) :
    ∃ name, ∃ y : Finding, x = y.under name := by
  obtain ⟨name, rest, hl⟩ := List.exists_cons_of_ne_nil hx
  cases x with
  | file l => exact ⟨name, file rest, congrArg file hl⟩
  | unlistable l cause => exact ⟨name, unlistable rest cause, congrArg (unlistable · cause) hl⟩

end Finding

/-! ## The findings at and below an entry -/

/-- Whether the entry itself is a directory. A link to a directory is none. -/
def Entry.isDirectory : Entry → Bool
  | .dir _ => true
  | _ => false

/-- What is found is there: a file or a link, or a directory, and then this is why it cannot be
listed. -/
def Entry.Holds (refusal? : Location → Option PathError) (e : Entry) : Finding → Prop
  | .file l => ∃ e', e.at? l = some e' ∧ e'.isDirectory = false
  | .unlistable l cause => (∃ es, e.at? l = some (.dir es)) ∧ refusal? l = some cause

theorem mem_inNameOrder {found : List (FileName × List Finding)} {x : Finding} :
    x ∈ inNameOrder found ↔ ∃ p ∈ found, x ∈ p.2 := by
  simp only [inNameOrder, List.mem_flatMap, List.mem_mergeSort]

theorem findingsOfEach_eq_map (refusal? : Location → Option PathError)
    (es : List (FileName × Entry)) :
    findingsOfEach refusal? es = es.map fun p =>
      (p.1, (p.2.findings fun l => refusal? (p.1 :: l)).map (.under p.1)) := by
  induction es with
  | nil => rfl
  | cons p es ih => rw [findingsOfEach, ih, List.map_cons]

namespace Entry

variable {refusal? : Location → Option PathError}

theorem findings_of_not_isDirectory {e : Entry} (he : e.isDirectory = false) :
    e.findings refusal? = [.file []] := by
  cases e with
  | file => rw [findings]
  | link => rw [findings]
  | dir => cases he

theorem findings_of_refusal {es : List (FileName × Entry)} {cause : PathError}
    (h : refusal? [] = some cause) : (dir es).findings refusal? = [.unlistable [] cause] := by
  rw [findings, h]

theorem findings_dir (h : refusal? [] = none) (es : List (FileName × Entry)) :
    (dir es).findings refusal? = inNameOrder (findingsOfEach refusal? es) := by
  rw [findings, h]

theorem at?_dir_cons {es : List (FileName × Entry)} (nodup : (es.map (·.1)).Nodup)
    {name : FileName} {rest : Location} {e : Entry} :
    (dir es).at? (name :: rest) = some e ↔ ∃ e', (name, e') ∈ es ∧ e'.at? rest = some e := by
  rw [at?, Option.bind_eq_some_iff]
  simp only [lookup_eq_some_iff_mem nodup]

theorem at?_of_not_isDirectory {e : Entry} (he : e.isDirectory = false) {l : Location}
    {e' : Entry} : e.at? l = some e' ↔ l = [] ∧ e = e' := by
  cases l with
  | nil => simp [at?]
  | cons name rest =>
    cases e with
    | file => simp [at?]
    | link => simp [at?]
    | dir => cases he

theorem holds_of_not_isDirectory {e : Entry} (he : e.isDirectory = false) {x : Finding} :
    e.Holds refusal? x ↔ x = .file [] := by
  cases x with
  | file l =>
    simp only [Holds, at?_of_not_isDirectory he, Finding.file.injEq]
    constructor
    · rintro ⟨e', ⟨rfl, -⟩, -⟩
      rfl
    · rintro rfl
      exact ⟨e, ⟨rfl, rfl⟩, he⟩
  | unlistable l cause =>
    simp only [Holds, at?_of_not_isDirectory he, reduceCtorEq, iff_false]
    rintro ⟨⟨es, -, rfl⟩, -⟩
    cases he

/-- At its own place, a directory holds nothing but the reason why it cannot be listed. -/
theorem holds_dir_nil {es : List (FileName × Entry)} {x : Finding} (hx : x.location = []) :
    (dir es).Holds refusal? x ↔ ∃ cause, refusal? [] = some cause ∧ x = .unlistable [] cause := by
  cases x with
  | file l =>
    obtain rfl : l = [] := hx
    simp [Holds, at?, isDirectory]
  | unlistable l cause =>
    obtain rfl : l = [] := hx
    simp [Holds, at?]

/-- Under a name, a directory holds what the entry of this name holds. -/
theorem holds_under {es : List (FileName × Entry)} (nodup : (es.map (·.1)).Nodup)
    {name : FileName} {x : Finding} :
    (dir es).Holds refusal? (x.under name) ↔
      ∃ e, (name, e) ∈ es ∧ e.Holds (fun l => refusal? (name :: l)) x := by
  cases x with
  | file l =>
    simp only [Holds, Finding.under, at?_dir_cons nodup]
    constructor
    · rintro ⟨e', ⟨e, hmem, he⟩, hfile⟩
      exact ⟨e, hmem, e', he, hfile⟩
    · rintro ⟨e, hmem, e', he, hfile⟩
      exact ⟨e', ⟨e, hmem, he⟩, hfile⟩
  | unlistable l cause =>
    simp only [Holds, Finding.under, at?_dir_cons nodup]
    constructor
    · rintro ⟨⟨es', e, hmem, he⟩, hcause⟩
      exact ⟨e, hmem, ⟨es', he⟩, hcause⟩
    · rintro ⟨e, hmem, ⟨es', he⟩, hcause⟩
      exact ⟨⟨es', e, hmem, he⟩, hcause⟩

theorem mem_findings_of_not_isDirectory {e : Entry} (he : e.isDirectory = false) {x : Finding} :
    x ∈ e.findings refusal? ↔ e.Holds refusal? x ∧ Location.Reachable refusal? x.location := by
  rw [findings_of_not_isDirectory he, holds_of_not_isDirectory he, List.mem_singleton]
  refine ⟨?_, And.left⟩
  rintro rfl
  exact ⟨rfl, Location.reachable_nil _⟩

/-- Of a directory that cannot be listed, nothing can be reached but its own place. -/
theorem mem_findings_of_refusal {es : List (FileName × Entry)} {cause : PathError}
    (h : refusal? [] = some cause) {x : Finding} :
    x ∈ (dir es).findings refusal? ↔
      (dir es).Holds refusal? x ∧ Location.Reachable refusal? x.location := by
  rw [findings_of_refusal h, List.mem_singleton]
  constructor
  · rintro rfl
    exact ⟨⟨⟨es, rfl⟩, h⟩, Location.reachable_nil _⟩
  · rintro ⟨hholds, hreach⟩
    have hx : x.location = [] := by
      by_contra hne
      cases h.symm.trans (hreach [] List.nil_prefix (Ne.symm hne))
    obtain ⟨cause', hcause, rfl⟩ := (holds_dir_nil hx).mp hholds
    rw [Option.some.inj (hcause.symm.trans h)]

/-- A walk finds what the entry holds at the locations that it can reach. -/
theorem WellFormed.mem_findings {e : Entry} (h : e.WellFormed) {x : Finding} :
    x ∈ e.findings refusal? ↔ e.Holds refusal? x ∧ Location.Reachable refusal? x.location := by
  induction h generalizing refusal? x with
  | file => exact mem_findings_of_not_isDirectory rfl
  | link => exact mem_findings_of_not_isDirectory rfl
  | @dir es nodup _ _ ih =>
    cases hfirst : refusal? [] with
    | some cause => exact mem_findings_of_refusal hfirst
    | none =>
      rw [findings_dir hfirst, mem_inNameOrder, findingsOfEach_eq_map]
      simp only [List.mem_map, exists_exists_and_eq_and]
      constructor
      · rintro ⟨⟨name, e⟩, hmem, y, hy, rfl⟩
        obtain ⟨hholds, hreach⟩ := (ih _ hmem).mp hy
        rw [Finding.location_under, Location.reachable_cons]
        exact ⟨(holds_under nodup).mpr ⟨e, hmem, hholds⟩, hfirst, hreach⟩
      · rintro ⟨hholds, hreach⟩
        have hx : x.location ≠ [] := fun hnil => by
          obtain ⟨cause, hcause, -⟩ := (holds_dir_nil hnil).mp hholds
          cases hfirst.symm.trans hcause
        obtain ⟨name, y, rfl⟩ := Finding.exists_under hx
        obtain ⟨e, hmem, hholds⟩ := (holds_under nodup).mp hholds
        rw [Finding.location_under, Location.reachable_cons] at hreach
        exact ⟨_, hmem, y, (ih _ hmem).mpr ⟨hholds, hreach.2⟩, rfl⟩

end Entry

/-! ## The order of a walk -/

theorem pairwise_mergeSort_fst {found : List (FileName × List Finding)}
    (nodup : (found.map (·.1)).Nodup) :
    (found.mergeSort fun x y => decide (x.1 ≤ y.1)).Pairwise (·.1 < ·.1) := by
  have hle : (found.mergeSort fun x y => decide (x.1 ≤ y.1)).Pairwise
      fun x y => decide (x.1 ≤ y.1) = true :=
    List.pairwise_mergeSort
      (fun x y z hxy hyz => by
        simp only [decide_eq_true_eq] at hxy hyz ⊢
        exact List.le_trans hxy hyz)
      (fun x y => by simpa using List.le_total x.1 y.1) found
  have hperm := List.mergeSort_perm found fun x y => decide (x.1 ≤ y.1)
  have hne := (hperm.map (·.1)).nodup_iff.mpr nodup
  exact (hle.and (List.pairwise_map.mp hne)).imp fun h =>
    Std.lt_of_le_of_ne (of_decide_eq_true h.1) h.2

/-- One directory puts the findings at its entries in order: they are in order for each entry, and
their locations start with the name of the entry. -/
theorem pairwise_inNameOrder {found : List (FileName × List Finding)}
    (nodup : (found.map (·.1)).Nodup)
    (sorted : ∀ p ∈ found, p.2.Pairwise (·.location < ·.location))
    (heads : ∀ p ∈ found, ∀ x ∈ p.2, ∃ rest, x.location = p.1 :: rest) :
    (inNameOrder found).Pairwise (·.location < ·.location) := by
  rw [inNameOrder, List.pairwise_flatMap]
  refine ⟨fun p hp => sorted p (List.mem_mergeSort.mp hp), ?_⟩
  refine (pairwise_mergeSort_fst nodup).imp_of_mem fun {p q} hp hq hlt x hx y hy => ?_
  obtain ⟨l, hl⟩ := heads p (List.mem_mergeSort.mp hp) x hx
  obtain ⟨m, hm⟩ := heads q (List.mem_mergeSort.mp hq) y hy
  rw [hl, hm]
  exact List.cons_lt_cons_iff.mpr (.inl hlt)

/-- A walk comes to its findings in the order of the names that lead to them. -/
theorem Entry.WellFormed.pairwise_findings {e : Entry} (h : e.WellFormed)
    (refusal? : Location → Option PathError) :
    (e.findings refusal?).Pairwise (·.location < ·.location) := by
  induction h generalizing refusal? with
  | file => simp [findings]
  | link => simp [findings]
  | @dir es nodup _ _ ih =>
    cases hfirst : refusal? [] with
    | some cause => simp [findings_of_refusal hfirst]
    | none =>
      rw [findings_dir hfirst, findingsOfEach_eq_map]
      refine pairwise_inNameOrder ?_ (List.forall_mem_map.mpr fun p hp => ?_)
        (List.forall_mem_map.mpr fun p _ => List.forall_mem_map.mpr fun y _ => ?_)
      · rwa [List.map_map]
      · rw [List.pairwise_map]
        simpa using ih p hp fun l => refusal? (p.1 :: l)
      · exact ⟨y.location, Finding.location_under ..⟩

/-! ## Source files, and directories that cannot be listed -/

/-- Below the entry, the location leads through directories to a file or a link, and the last name
is that of a source file. -/
structure Entry.HasSource (e : Entry) (l : Location) : Prop where
  entry : ∃ e', e.at? l = some e' ∧ e'.isDirectory = false
  last : ∃ name, l.getLast? = some name ∧ name.isSource = true

theorem Entry.HasSource.ne_nil {e : Entry} {l : Location} (h : e.HasSource l) : l ≠ [] := by
  rintro rfl
  obtain ⟨name, hname, -⟩ := h.last
  cases hname

theorem Finding.source?_eq_some_iff {x : Finding} {l : Location} :
    x.source? = some l ↔ x = .file l ∧ ∃ name, l.getLast? = some name ∧ name.isSource = true := by
  cases x with
  | file m =>
    have hlast : m.getLast?.any FileName.isSource = true ↔
        ∃ name, m.getLast? = some name ∧ name.isSource = true := by
      cases m.getLast? <;> simp
    rw [source?]
    constructor
    · intro h
      split at h
      · next hs =>
        obtain rfl := Option.some.inj h
        exact ⟨rfl, hlast.mp hs⟩
      · cases h
    · rintro ⟨hm, hs⟩
      obtain rfl := file.inj hm
      exact if_pos (hlast.mpr hs)
  | unlistable m cause => simp [source?]

theorem Finding.refused?_eq_some_iff {x : Finding} {u : Location × PathError} :
    x.refused? = some u ↔ x = .unlistable u.1 u.2 := by
  obtain ⟨l, cause⟩ := u
  cases x <;> simp [refused?]

namespace Entry.WellFormed

variable {refusal? : Location → Option PathError} {es : List (FileName × Entry)}

/-- The source files below a directory are those that can be reached. -/
theorem mem_sourcesBelow (h : (Entry.dir es).WellFormed) {l : Location} :
    l ∈ sourcesBelow refusal? es ↔
      (Entry.dir es).HasSource l ∧ Location.Reachable refusal? l := by
  rw [sourcesBelow, List.mem_filterMap]
  constructor
  · rintro ⟨x, hx, hl⟩
    obtain ⟨rfl, hlast⟩ := Finding.source?_eq_some_iff.mp hl
    obtain ⟨hholds, hreach⟩ := h.mem_findings.mp hx
    exact ⟨⟨hholds, hlast⟩, hreach⟩
  · rintro ⟨⟨hentry, hlast⟩, hreach⟩
    exact ⟨.file l, h.mem_findings.mpr ⟨hentry, hreach⟩,
      Finding.source?_eq_some_iff.mpr ⟨rfl, hlast⟩⟩

theorem pairwise_sourcesBelow (h : (Entry.dir es).WellFormed)
    (refusal? : Location → Option PathError) : (sourcesBelow refusal? es).Pairwise (· < ·) := by
  rw [sourcesBelow, List.pairwise_filterMap]
  refine (h.pairwise_findings refusal?).imp fun {x y} hlt l hl m hm => ?_
  obtain ⟨rfl, -⟩ := Finding.source?_eq_some_iff.mp hl
  obtain ⟨rfl, -⟩ := Finding.source?_eq_some_iff.mp hm
  exact hlt

/-- The directories that are left out are those that can be reached and cannot be listed. -/
theorem mem_refusedBelow (h : (Entry.dir es).WellFormed) {l : Location} {cause : PathError} :
    (l, cause) ∈ refusedBelow refusal? es ↔
      ((∃ es', (Entry.dir es).at? l = some (.dir es')) ∧ refusal? l = some cause) ∧
        Location.Reachable refusal? l := by
  rw [refusedBelow, List.mem_filterMap]
  simp only [Finding.refused?_eq_some_iff, exists_eq_right, h.mem_findings]
  exact Iff.rfl

theorem pairwise_refusedBelow (h : (Entry.dir es).WellFormed)
    (refusal? : Location → Option PathError) :
    (refusedBelow refusal? es).Pairwise (·.1 < ·.1) := by
  rw [refusedBelow, List.pairwise_filterMap]
  refine (h.pairwise_findings refusal?).imp fun {x y} hlt u hu v hv => ?_
  rw [Finding.refused?_eq_some_iff.mp hu, Finding.refused?_eq_some_iff.mp hv] at hlt
  exact hlt

end Entry.WellFormed

/-- Where all directories can be listed, every source file can be reached. -/
theorem Entry.HasSource.reachable {e : Entry} {l : Location} (h : e.HasSource l)
    {refusal? : Location → Option PathError}
    (hlist : ∀ m es, e.at? m = some (.dir es) → refusal? m = none) :
    Location.Reachable refusal? l := by
  rintro m ⟨rest, rfl⟩ hne
  obtain ⟨name, names, rfl⟩ : ∃ name names, rest = name :: names :=
    List.exists_cons_of_ne_nil fun hnil => hne (by rw [hnil, List.append_nil])
  obtain ⟨e', he, -⟩ := h.entry
  obtain ⟨d, hd, he⟩ := Option.bind_eq_some_iff.mp ((at?_append e m _).symm.trans he)
  obtain ⟨es, -, rfl, -⟩ := exists_lookup_of_at? he
  exact hlist m es hd

/-! ## Names of files -/

/-- The names that lead to a source file: names of entries, the last one that of a source file. -/
structure Location.IsSource (l : Location) : Prop where
  names : ∀ name ∈ l, name.IsEntryName
  last : ∃ name, l.getLast? = some name ∧ name.isSource = true

/-- In a well-formed tree the names that lead to a source file are names of entries. -/
theorem Entry.HasSource.isSource {e : Entry} {l : Location} (h : e.HasSource l)
    (he : e.WellFormed) : l.IsSource where
  names name hname := by
    obtain ⟨e', he', -⟩ := h.entry
    exact he.isEntryName_of_at? he' hname
  last := h.last

/-- The pieces of a path made of names of entries are these names. -/
theorem Path.pieces_ofNames {l : Location} (h : ∀ name ∈ l, name.IsEntryName) (hl : l ≠ []) :
    (ofNames l).pieces = l := by
  have hsplit : ([slash].intercalate l).splitOn slash = l :=
    List.splitOn_intercalate slash (fun name hn => (h name hn).slash_not_mem) hl
  rw [pieces, ofNames, hsplit, List.filter_eq_self]
  intro name hn
  simpa using ⟨(h name hn).ne_nil, (h name hn).ne_here⟩

theorem Location.IsSource.isSome_dottedName? {l : Location} (h : l.IsSource) :
    (Path.ofNames l).dottedName?.isSome = true := by
  obtain ⟨name, hlast, hs⟩ := h.last
  have hl : l ≠ [] := by
    rintro rfl
    cases hlast
  have hname := h.names name (List.mem_of_getLast? hlast)
  have hfile : (Path.ofNames l).fileName? = some name := by
    rw [Path.fileName?, Path.pieces_ofNames h.names hl, hlast]
    simp [hname.ne_above]
  rw [Path.isSome_dottedName?, Path.isSource, hfile, Option.any_some, hs]

/-! ## The root of a scan -/

/-- The root as a scan would list it. -/
def rootFile (root : Path) : SourceFile := ⟨root, ⟨[]⟩⟩

theorem FileTree.scan_of_resolve {t : FileTree} {root : Path} {location : Location}
    {es : List (FileName × Entry)}
    (h : t.resolve .follow root = .ok (.entry location (.dir es))) :
    t.scan root =
      .ok ((if t.isSourceLink root then [rootFile root] else []) ++
        sourceFiles root (t.refusalBelow location) es) := by
  rw [scan, h]
  rfl

/-- What a scan that succeeds has listed: the root if it is a link with the name of a source file,
and the source files below it. -/
theorem FileTree.scan_eq_ok {t : FileTree} {root : Path} {files : List SourceFile}
    (h : t.scan root = .ok files) :
    ∃ location es, t.resolve .follow root = .ok (.entry location (.dir es)) ∧
      files = (if t.isSourceLink root then [rootFile root] else []) ++
        sourceFiles root (t.refusalBelow location) es := by
  unfold scan at h
  split at h
  · cases h
  · next location es hroot => exact ⟨location, es, hroot, (Except.ok.inj h).symm⟩
  · cases h

/-- The root is a directory, so it cannot be read as a file. -/
theorem FileTree.read_rootFile {t : FileTree} {root : Path} {location : Location}
    {es : List (FileName × Entry)}
    (h : t.resolve .follow root = .ok (.entry location (.dir es))) :
    t.read (rootFile root).path = .error ((t.refusal? location).getD .isDirectory) := by
  simp [read, rootFile, h]

/-- A scanned file of a well-formed tree has a name, if it can be read. Only the root itself can be
listed without a name, and it is a directory. -/
theorem exists_dottedName_of_read {t : FileTree} (ht : t.WellFormed) {root : Path}
    {files : List SourceFile} (hscan : t.scan root = .ok files) {f : SourceFile} (hf : f ∈ files)
    {source : Bytes} (hread : t.read f.path = .ok source) :
    ∃ name, f.relative.dottedName? = some name := by
  obtain ⟨location, es, hroot, rfl⟩ := FileTree.scan_eq_ok hscan
  rcases List.mem_append.mp hf with hf | hf
  · split at hf
    · rw [List.mem_singleton.mp hf, FileTree.read_rootFile hroot] at hread
      cases hread
    · cases hf
  · obtain ⟨l, hl, rfl⟩ := List.mem_map.mp hf
    have hes := ht.of_resolve hroot
    have hsource := (hes.mem_sourcesBelow.mp hl).1.isSource hes
    exact Option.isSome_iff_exists.mp hsource.isSome_dottedName?

end ReferenceGraph
