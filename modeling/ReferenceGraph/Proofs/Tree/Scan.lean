import ReferenceGraph.Proofs.Lists.Joined
import ReferenceGraph.Proofs.Tree.Alike
import ReferenceGraph.Proofs.Tree.Build

/-!
# What a scan finds

A scan of a well-formed tree finds exactly the source files below its root that are reached through
directories which can be listed, each once, and in the order of the names on the way to them,
compared name by name. So the contents of a directory come where its name comes, and not where a
whole path would: `a/B.java` is before `a.java`, although a slash is after a dot. What it cannot
list it reports.

* `FileName.isSource_iff`: the names of source files.
* `Entry.ChangedAt.holds`: what a walk can find is still there when files have been put into a tree.
* `FileTree.Alike.scan`, `FileTree.Alike.unlisted`: the order in which the entries were made does
  not matter.
* `scan_canonical`: all of it for a root that is a directory.
-/

namespace ReferenceGraph

/-! ## Names of source files -/

namespace FileName

theorem beforeLastDot_append (stem : Bytes) {ext : Bytes} (h : dotByte ∉ ext) :
    beforeLastDot (stem ++ dotByte :: ext) = stem := by
  rw [beforeLastDot, splitOn_append_last stem h, List.dropLast_concat,
    List.intercalate_splitOn]

/-- The extension is what follows the last dot, if something stands before this dot. -/
theorem extension?_eq_some_iff {name : FileName} {ext : Bytes} :
    name.extension? = some ext ↔
      dotByte ∉ ext ∧ ∃ stem, stem ≠ [] ∧ name = stem ++ dotByte :: ext := by
  rw [extension?]
  constructor
  · intro h
    split at h
    · cases h
    · next hstem =>
      obtain ⟨pieces, hpieces⟩ := List.getLast?_eq_some_iff.mp h
      have hbefore : name.beforeLastDot = [dotByte].intercalate pieces := by
        rw [beforeLastDot, hpieces, List.dropLast_concat]
      have hne : pieces ≠ [] := by
        rintro rfl
        exact hstem hbefore
      have hext : dotByte ∉ ext := not_mem_of_mem_splitOn (hpieces ▸ List.mem_concat_self)
      refine ⟨hext, name.beforeLastDot, hstem, ?_⟩
      calc name = [dotByte].intercalate (name.splitOn dotByte) :=
            (List.intercalate_splitOn dotByte).symm
        _ = name.beforeLastDot ++ dotByte :: ext := by
            rw [hpieces, intercalate_concat _ hne, hbefore, List.append_assoc,
              List.singleton_append]
  · rintro ⟨hext, stem, hstem, rfl⟩
    rw [beforeLastDot_append stem hext, if_neg hstem, splitOn_append_last stem hext,
      List.getLast?_concat]

/-- The name of a source file is something, then a dot, then the extension. -/
theorem isSource_iff {name : FileName} :
    name.isSource = true ↔ ∃ stem, stem ≠ [] ∧ name = stem ++ dotByte :: sourceExtension := by
  have hext : dotByte ∉ sourceExtension := by decide
  rw [isSource, decide_eq_true_eq, extension?_eq_some_iff]
  exact and_iff_right hext

end FileName

/-! ## Changed and alike trees -/

theorem Entry.ChangedAt.holds {P : Location → Prop} {e e' : Entry} (h : e.ChangedAt P e')
    {refusal? : Location → Option PathError} {x : Finding} (hx : e.Holds refusal? x) :
    e'.Holds refusal? x := by
  cases x with
  | file l =>
    obtain ⟨f, hf, hfile⟩ := hx
    cases f with
    | file =>
      obtain ⟨content', hf'⟩ := h.at?_of_file hf
      exact ⟨_, hf', rfl⟩
    | link => exact ⟨_, h.at?_of_link hf, rfl⟩
    | dir => cases hfile
  | unlistable l cause =>
    obtain ⟨⟨es, hes⟩, hcause⟩ := hx
    exact ⟨h.at?_of_dir hes, hcause⟩

/-- What is in the order of its locations, and each of them once, is given by what there is. -/
theorem eq_of_pairwise_lt {α : Type} (f : α → Location) {xs ys : List α}
    (hxs : xs.Pairwise (f · < f ·)) (hys : ys.Pairwise (f · < f ·)) (h : ∀ a, a ∈ xs ↔ a ∈ ys) :
    xs = ys := by
  have : Std.Asymm fun a b : α => f a < f b :=
    ⟨fun a _ hab hba => List.lt_irrefl (f a) (List.lt_trans hab hba)⟩
  exact List.Pairwise.eq_of_mem_iff hxs hys h

/-- Walks through alike entries find the same in the same order. -/
theorem Entry.Alike.findings_eq {e e' : Entry} (h : e.Alike e') (he : e.WellFormed)
    (he' : e'.WellFormed) (refusal? : Location → Option PathError) :
    e.findings refusal? = e'.findings refusal? := by
  refine eq_of_pairwise_lt Finding.location (he.pairwise_findings _) (he'.pairwise_findings _)
    fun x => ?_
  rw [he.mem_findings, he'.mem_findings]
  exact and_congr_left' ⟨h.changedAt.holds, h.symm.changedAt.holds⟩

namespace FileTree.Alike

variable {t t' : FileTree}

theorem refusalBelow (h : t.Alike t') (location : Location) :
    t.refusalBelow location = t'.refusalBelow location := funext fun _ => h.refusal _

/-- A root leads to directories in which walks find the same, or it is no directory in either
tree. -/
theorem root_cases (h : t.Alike t') (ht : t.WellFormed) (ht' : t'.WellFormed) (root : Path) :
    (∃ location es es', t.resolve .follow root = .ok (.entry location (.dir es)) ∧
        t'.resolve .follow root = .ok (.entry location (.dir es')) ∧
        (Entry.dir es).findings (t.refusalBelow location) =
          (Entry.dir es').findings (t'.refusalBelow location)) ∨
      t.scan root = t'.scan root ∧ t.unlisted root = [] ∧ t'.unlisted root = [] := by
  unfold FileTree.scan FileTree.unlisted
  rcases h.resolve_cases .follow root with
    ⟨err, hp, hp'⟩ | ⟨place, hp, hp'⟩ | ⟨location, e, e', hp, hp', he⟩
  · rw [hp, hp']
    exact .inr ⟨rfl, rfl, rfl⟩
  · rw [hp, hp']
    exact .inr ⟨rfl, rfl, rfl⟩
  · have hs : e.shallow = e'.shallow := Option.some.inj (he [])
    have hfind := he.findings_eq (ht.of_resolve hp) (ht'.of_resolve hp') (t.refusalBelow location)
    cases e <;> cases e' <;> simp only [Entry.shallow, reduceCtorEq] at hs
    · rw [hp, hp']
      exact .inr ⟨rfl, rfl, rfl⟩
    · rw [hp, hp']
      exact .inr ⟨rfl, rfl, rfl⟩
    · exact .inl ⟨location, _, _, hp, hp', by rw [hfind, h.refusalBelow]⟩

/-- Scans of alike trees find the same files in the same order, or fail in the same way. -/
theorem scan (h : t.Alike t') (ht : t.WellFormed) (ht' : t'.WellFormed) (root : Path) :
    t.scan root = t'.scan root := by
  rcases h.root_cases ht ht' root with ⟨location, es, es', hp, hp', hfind⟩ | ⟨hscan, -⟩
  · rw [scan_of_resolve hp, scan_of_resolve hp', h.isSourceLink, sourceFiles, sourceFiles,
      sourcesBelow, sourcesBelow, hfind]
  · exact hscan

/-- They leave out the same directories. -/
theorem unlisted (h : t.Alike t') (ht : t.WellFormed) (ht' : t'.WellFormed) (root : Path) :
    t.unlisted root = t'.unlisted root := by
  rcases h.root_cases ht ht' root with ⟨location, es, es', hp, hp', hfind⟩ | ⟨-, hnone, hnone'⟩
  · simp only [FileTree.unlisted, hp, hp', refusedBelow, hfind]
  · rw [hnone, hnone']

end FileTree.Alike

/-! ## The whole scan -/

/-- A source file is a file or a link with a name before the extension. -/
theorem Entry.hasSource_iff {e : Entry} {l : Location} :
    e.HasSource l ↔ (∃ e', e.at? l = some e' ∧ e'.isDirectory = false) ∧
      ∃ stem, stem ≠ [] ∧
        l.getLast? = some (stem ++ FileName.dotByte :: FileName.sourceExtension) := by
  constructor
  · rintro ⟨hentry, name, hlast, hs⟩
    obtain ⟨stem, hstem, rfl⟩ := FileName.isSource_iff.mp hs
    exact ⟨hentry, stem, hstem, hlast⟩
  · rintro ⟨hentry, stem, hstem, hlast⟩
    exact ⟨hentry, _, hlast, FileName.isSource_iff.mpr ⟨stem, hstem, rfl⟩⟩

/-- The scan of a root that is a directory, and not a link with the name of a source file. It finds
the files and the links that have the extension of source files, a name before it included, and that
are reached through directories alone, all of which can be listed, the root among them: all of
these, each once, and in the order of the names on the way, compared name by name and each by its
bytes. So where every directory can be listed it finds every source file. The relative path of a
file is the names on the way to it, and its path is the root joined with them. Each directory that
is reached and cannot be listed is reported with the reason, in the same order. The order in which
the entries were made does not matter. -/
theorem scan_canonical {t : FileTree} (ht : t.WellFormed) {root : Path} {location : Location}
    {es : List (FileName × Entry)}
    (hroot : t.resolve .follow root = .ok (.entry location (.dir es)))
    (hlink : ∀ place target, t.resolve .keep root = .ok (.entry place (.link target)) →
      root.isSource = false) :
    ∃ ls : List Location,
      t.scan root = .ok (ls.map fun l => ⟨root.join l, .ofNames l⟩) ∧
        (∀ l, l ∈ ls ↔
          ((∃ e, (Entry.dir es).at? l = some e ∧ e.isDirectory = false) ∧
            ∃ stem, stem ≠ [] ∧
              l.getLast? = some (stem ++ FileName.dotByte :: FileName.sourceExtension)) ∧
          ∀ m, m <+: l → m ≠ l → t.refusal? (location ++ m) = none) ∧
        ((∀ m es', (Entry.dir es).at? m = some (.dir es') → t.refusal? (location ++ m) = none) →
          ∀ l, l ∈ ls ↔
            (∃ e, (Entry.dir es).at? l = some e ∧ e.isDirectory = false) ∧
              ∃ stem, stem ≠ [] ∧
                l.getLast? = some (stem ++ FileName.dotByte :: FileName.sourceExtension)) ∧
        ls.Pairwise (· < ·) ∧
        (∀ l ∈ ls, (Path.ofNames l).pieces = l) ∧
        (∃ refused : List (Location × PathError),
          t.unlisted root =
              refused.map (fun (m, cause) => (if m = [] then root else root.join m, cause)) ∧
            (∀ m cause, (m, cause) ∈ refused ↔
              ((∃ es', (Entry.dir es).at? m = some (.dir es')) ∧
                t.refusal? (location ++ m) = some cause) ∧
              ∀ k, k <+: m → k ≠ m → t.refusal? (location ++ k) = none) ∧
            refused.Pairwise (·.1 < ·.1)) ∧
        ∀ t' : FileTree, t'.WellFormed → t.Alike t' →
          t'.scan root = t.scan root ∧ t'.unlisted root = t.unlisted root := by
  have hes := ht.of_resolve hroot
  have hself : t.isSourceLink root = false := by
    unfold FileTree.isSourceLink
    split
    · next place target h => exact hlink place target h
    · rfl
  have hmem (l : Location) : l ∈ sourcesBelow (t.refusalBelow location) es ↔
      (Entry.dir es).HasSource l ∧ Location.Reachable (t.refusalBelow location) l :=
    hes.mem_sourcesBelow
  refine ⟨sourcesBelow (t.refusalBelow location) es, ?_, fun l => ?_, fun hlist l => ?_,
    hes.pairwise_sourcesBelow _, fun l hl => ?_,
    ⟨refusedBelow (t.refusalBelow location) es, ?_, fun m cause => hes.mem_refusedBelow,
      hes.pairwise_refusedBelow _⟩,
    fun t' ht' h => ⟨(h.scan ht ht' root).symm, (h.unlisted ht ht' root).symm⟩⟩
  · simp only [FileTree.scan, hroot, hself, sourceFiles, Bool.false_eq_true, if_false,
      List.nil_append]
  · rw [hmem, Entry.hasSource_iff]
    exact Iff.rfl
  · rw [hmem, ← Entry.hasSource_iff]
    exact ⟨And.left, fun h => ⟨h, h.reachable hlist⟩⟩
  · have hsource := ((hmem l).mp hl).1
    exact Path.pieces_ofNames (hsource.isSource hes).names hsource.ne_nil
  · simp only [FileTree.unlisted, hroot, unlistedPaths]

theorem FileTree.resolve_here {t : FileTree} {es : List (FileName × Entry)}
    (h : t.top.at? t.working = some (.dir es)) (purpose : Purpose) :
    t.resolve purpose ⟨FileName.here⟩ = .ok (.entry t.working (.dir es)) := by
  have hstart : t.start ⟨FileName.here⟩ = t.working := if_neg (by decide)
  have hsteps : (Path.mk FileName.here).steps = [FileName.here] := by decide
  rw [resolve, if_neg (by decide), if_neg (by decide), hstart, hsteps, walk, h]
  simp only [isStay, or_true, decide_true, if_true, walk, h]

/-- A scan of the current directory does not list the directory itself. -/
theorem FileTree.scan_here {t : FileTree} {es : List (FileName × Entry)}
    (h : t.top.at? t.working = some (.dir es)) :
    t.scan ⟨FileName.here⟩ =
      .ok (sourceFiles ⟨FileName.here⟩ (t.refusalBelow t.working) es) := by
  simp only [scan, isSourceLink, resolve_here h, Bool.false_eq_true, if_false, List.nil_append]

/-- It leaves out what cannot be listed in the current directory or below it. -/
theorem FileTree.unlisted_here {t : FileTree} {es : List (FileName × Entry)}
    (h : t.top.at? t.working = some (.dir es)) :
    t.unlisted ⟨FileName.here⟩ =
      unlistedPaths ⟨FileName.here⟩ (refusedBelow (t.refusalBelow t.working) es) := by
  simp only [unlisted, resolve_here h]

/-- A tree with a directory that is named like a source file, a name that has nothing but the
extension, a directory that is named like the beginning of a file, and one that cannot be listed. -/
def lookalikes : FileTree where
  entries := [
    (Utf8.encodeString "a.java", .file []),
    (Utf8.encodeString "X.java", .dir [(Utf8.encodeString "C.java", .link (.ofString "nowhere"))]),
    (Utf8.encodeString "a", .dir [
      (Utf8.encodeString "B.java", .file []),
      (Utf8.encodeString ".java", .file [])]),
    (Utf8.encodeString "u", .dir [(Utf8.encodeString "D.java", .file [])]),
    (Utf8.encodeString "s", .link (.ofString "a"))]
  working := []
  unlistable := [([Utf8.encodeString "u"], .permissionDenied)]

theorem wellFormed_lookalikes : lookalikes.WellFormed := by
  refine .dir (by decide) (by decide) ?_
  simp only [lookalikes, List.forall_mem_cons]
  refine ⟨.file _, .dir (by decide) (by decide) ?_, .dir (by decide) (by decide) ?_,
    .dir (by decide) (by decide) ?_, .link _, by simp⟩
  · simp only [List.forall_mem_cons]
    exact ⟨.link _, by simp⟩
  · simp only [List.forall_mem_cons]
    exact ⟨.file _, .file _, by simp⟩
  · simp only [List.forall_mem_cons]
    exact ⟨.file _, by simp⟩

/-- The contents of `a` come before `a.java`; and nothing is found under the names that only look
like one, through the link, or in the directory that cannot be listed, which is reported. With its
entries turned round, the tree is scanned alike. -/
theorem scan_lookalikes :
    ∃ ls : List Location,
      lookalikes.scan ⟨FileName.here⟩ =
          .ok (ls.map fun l => ⟨(Path.mk FileName.here).join l, .ofNames l⟩) ∧
        ls.Pairwise (· < ·) ∧
        [Utf8.encodeString "X.java", Utf8.encodeString "C.java"] ∈ ls ∧
        [Utf8.encodeString "a", Utf8.encodeString "B.java"] ∈ ls ∧
        [Utf8.encodeString "a.java"] ∈ ls ∧
        [Utf8.encodeString "X.java"] ∉ ls ∧
        [Utf8.encodeString "a", Utf8.encodeString ".java"] ∉ ls ∧
        [Utf8.encodeString "s", Utf8.encodeString "B.java"] ∉ ls ∧
        [Utf8.encodeString "u", Utf8.encodeString "D.java"] ∉ ls ∧
        (.ofString "./u", .permissionDenied) ∈ lookalikes.unlisted ⟨FileName.here⟩ ∧
        ({ lookalikes with entries := lookalikes.entries.reverse } : FileTree).scan
          ⟨FileName.here⟩ = lookalikes.scan ⟨FileName.here⟩ := by
  have hroot := FileTree.resolve_here (t := lookalikes) rfl
  obtain ⟨ls, hscan, hmem, -, hsorted, -, ⟨refused, hunlisted, hrefused, -⟩, hother⟩ :=
    scan_canonical wellFormed_lookalikes (hroot .follow) fun place target h => by
      cases (hroot .keep).symm.trans h
  have hone {name : FileName} : Location.Reachable lookalikes.refusal? [name] :=
    Location.reachable_cons.mpr ⟨by decide +kernel, Location.reachable_nil _⟩
  have htwo {first last : FileName} (h : lookalikes.refusal? [first] = none) :
      Location.Reachable lookalikes.refusal? [first, last] :=
    Location.reachable_cons.mpr
      ⟨by decide +kernel, Location.reachable_cons.mpr ⟨h, Location.reachable_nil _⟩⟩
  refine ⟨ls, hscan, hsorted, ?_, ?_, ?_, ?_, ?_, ?_, ?_, ?_, ?_⟩
  · refine (hmem _).mpr ⟨⟨⟨_, rfl, rfl⟩, Utf8.encodeString "C", ?_, ?_⟩, htwo ?_⟩ <;>
      decide +kernel
  · refine (hmem _).mpr ⟨⟨⟨_, rfl, rfl⟩, Utf8.encodeString "B", ?_, ?_⟩, htwo ?_⟩ <;>
      decide +kernel
  · refine (hmem _).mpr ⟨⟨⟨_, rfl, rfl⟩, Utf8.encodeString "a", ?_, ?_⟩, hone⟩ <;> decide +kernel
  · intro h
    obtain ⟨⟨⟨e, he, hfile⟩, -⟩, -⟩ := (hmem _).mp h
    obtain rfl := Option.some.inj he
    cases hfile
  · intro h
    obtain ⟨⟨-, stem, hstem, hlast⟩, -⟩ := (hmem _).mp h
    have hsource := FileName.isSource_iff.mpr ⟨stem, hstem, Option.some.inj hlast⟩
    exact absurd hsource (by decide +kernel)
  · intro h
    obtain ⟨⟨⟨e, he, -⟩, -⟩, -⟩ := (hmem _).mp h
    cases he
  · intro h
    have hlisted := ((hmem _).mp h).2 [Utf8.encodeString "u"] ⟨_, rfl⟩ (by simp)
    exact absurd hlisted (by decide +kernel)
  · have hu := (hrefused [Utf8.encodeString "u"] .permissionDenied).mpr
      ⟨⟨⟨_, rfl⟩, by decide +kernel⟩, hone⟩
    rw [hunlisted]
    exact List.mem_map.mpr ⟨_, hu, by decide +kernel⟩
  · have hperm := (List.reverse_perm lookalikes.entries).symm
    have halike := Entry.alike_of_perm hperm (by decide +kernel)
    exact (hother { lookalikes with entries := lookalikes.entries.reverse }
      (Entry.WellFormed.perm wellFormed_lookalikes hperm) ⟨halike, rfl, fun _ => rfl⟩).1

end ReferenceGraph
