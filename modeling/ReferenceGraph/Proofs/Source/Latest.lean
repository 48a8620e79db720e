import ReferenceGraph.Proofs.Lists.Distinct
import ReferenceGraph.Proofs.Text.Lines
import ReferenceGraph.Source.Summary

/-!
# The latest import counts

An import table is overwritten while the lines are read. What it holds at a line depends only on the
lines so far: a simple name stands for the name that the latest of them imports under it. So each
line can be read by itself, with the lines in front of it, and no later line changes what an earlier
one refers to.

The invariant is `ImportTable.Latest`: a table holds the latest imports of some lines. A line that
is observed joins these lines (`Latest.observe`), so the table after any lines holds the latest
imports of these (`Latest.foldl`).

* `latestImport?`: what a simple name stands for after some lines. `latestImport?_take_eq_some_iff`
  says it by the numbers of the lines.
* `referencesWith`: what a line refers to, for any meaning of simple names.
* `references_of_latest_imports`: the references of a whole file.
-/

namespace ReferenceGraph

/-- The name that the line imports, if it imports one under this simple name. -/
def importUnder? (simple line : List Char) : Option QualifiedName :=
  (declaredImport? line).filter (·.simple = simple)

/-- The name that the latest of the lines imports under the simple name. -/
def latestImport? (lines : List (List Char)) (simple : List Char) : Option QualifiedName :=
  lines.findSomeRev? (importUnder? simple)

/-- The simple names under which the lines import, each once. -/
def importedSimpleNames (lines : List (List Char)) : List (List Char) :=
  ((lines.filterMap declaredImport?).map (·.simple)).eraseDups

/-- One of the first `k` lines imports the name under the simple name, and no later one of them
imports under it. -/
def IsLatestImport (lines : List (List Char)) (k : Nat) (simple : List Char)
    (n : QualifiedName) : Prop :=
  ∃ j < k, lines[j]?.bind (importUnder? simple) = some n ∧
    ∀ i, j < i → i < k → lines[i]?.bind (importUnder? simple) = none

/-- What is found on a line by the two scans, in the order of the offsets and without the names of
the standard library. -/
def inOffsetOrder (qualified imported : List (Nat × QualifiedName)) : List QualifiedName :=
  ((qualified.merge imported fun x y => decide (x.1 ≤ y.1)).map (·.2)).filter fun n => !n.isReserved

/-- The names that a line refers to when `meaning?` tells what a simple name stands for. -/
def referencesWith (meaning? : List Char → Option QualifiedName) (line : List Char) :
    List QualifiedName :=
  inOffsetOrder (qualifiedReferences line) (importedReferences meaning? line)

/-! ## The latest import -/

theorem importUnder?_eq_some_iff {simple line : List Char} {n : QualifiedName} :
    importUnder? simple line = some n ↔ declaredImport? line = some n ∧ n.simple = simple := by
  simp [importUnder?]

@[simp] theorem latestImport?_nil (simple : List Char) : latestImport? [] simple = none := rfl

theorem latestImport?_concat (lines : List (List Char)) (line simple : List Char) :
    latestImport? (lines ++ [line]) simple =
      (importUnder? simple line).or (latestImport? lines simple) := by
  simp only [latestImport?, List.findSomeRev?_eq_findSome?_reverse, List.reverse_append,
    List.reverse_singleton, List.singleton_append, List.findSome?_cons]
  cases importUnder? simple line <;> rfl

theorem exists_line_of_latestImport? {lines : List (List Char)} {simple : List Char}
    {n : QualifiedName} (h : latestImport? lines simple = some n) :
    ∃ line ∈ lines, declaredImport? line = some n ∧ n.simple = simple := by
  rw [latestImport?, List.findSomeRev?_eq_findSome?_reverse] at h
  obtain ⟨line, hline, hn⟩ := List.exists_of_findSome?_eq_some h
  exact ⟨line, List.mem_reverse.mp hline, importUnder?_eq_some_iff.mp hn⟩

theorem isSome_latestImport? {lines : List (List Char)} {simple : List Char} :
    (latestImport? lines simple).isSome = true ↔ simple ∈ importedSimpleNames lines := by
  simp only [importedSimpleNames, List.mem_eraseDups, List.mem_map, List.mem_filterMap]
  constructor
  · intro h
    obtain ⟨n, hn⟩ := Option.isSome_iff_exists.mp h
    obtain ⟨line, hline, himport, hsimple⟩ := exists_line_of_latestImport? hn
    exact ⟨n, ⟨line, hline, himport⟩, hsimple⟩
  · rintro ⟨n, ⟨line, hline, himport⟩, hsimple⟩
    rw [latestImport?, List.findSomeRev?_eq_findSome?_reverse, List.findSome?_isSome_iff]
    exact ⟨line, List.mem_reverse.mpr hline, by
      rw [importUnder?_eq_some_iff.mpr ⟨himport, hsimple⟩, Option.isSome_some]⟩

/-- A further line either imports under the simple name, and then it is the latest one, or it leaves
the latest import as it was. -/
theorem isLatestImport_succ_iff {lines : List (List Char)} {k : Nat} {simple : List Char}
    {n : QualifiedName} :
    IsLatestImport lines (k + 1) simple n ↔
      (lines[k]?.bind (importUnder? simple)).elim (IsLatestImport lines k simple n) (· = n) := by
  cases hk : lines[k]?.bind (importUnder? simple) with
  | some m =>
    rw [Option.elim_some]
    constructor
    · rintro ⟨j, hj, hn, hlater⟩
      by_cases hjk : j = k
      · rw [hjk, hk] at hn
        exact Option.some.inj hn
      · rw [hlater k (by omega) (by omega)] at hk
        cases hk
    · rintro rfl
      exact ⟨k, by omega, hk, fun i h1 h2 => by omega⟩
  | none =>
    rw [Option.elim_none]
    constructor
    · rintro ⟨j, hj, hn, hlater⟩
      have hjk : j ≠ k := by
        rintro rfl
        rw [hk] at hn
        cases hn
      exact ⟨j, by omega, hn, fun i h1 h2 => hlater i h1 (by omega)⟩
    · rintro ⟨j, hj, hn, hlater⟩
      refine ⟨j, by omega, hn, fun i h1 h2 => ?_⟩
      by_cases hik : i = k
      · exact hik ▸ hk
      · exact hlater i h1 (by omega)

/-- The latest import by the numbers of the lines: it is on the greatest of the first `k` lines that
imports under the simple name. -/
theorem latestImport?_take_eq_some_iff {lines : List (List Char)} {k : Nat} {simple : List Char}
    {n : QualifiedName} :
    latestImport? (lines.take k) simple = some n ↔ IsLatestImport lines k simple n := by
  induction k with
  | zero => simp [IsLatestImport]
  | succ k ih =>
    rw [isLatestImport_succ_iff, ← ih, List.take_add_one]
    cases hk : lines[k]? with
    | none => simp
    | some line =>
      rw [Option.toList_some, latestImport?_concat, Option.bind_some]
      cases importUnder? simple line <;> simp

theorem latestImport?_eq_none_iff {lines : List (List Char)} {simple : List Char} :
    latestImport? lines simple = none ↔ ∀ line ∈ lines, importUnder? simple line = none := by
  simp [latestImport?, List.findSomeRev?_eq_findSome?_reverse]

/-! ## The table -/

namespace ImportTable

/-- The table holds the latest imports of the lines: one entry for each simple name under which they
import, and each under the simple name of its value. -/
structure Latest (t : ImportTable) (lines : List (List Char)) : Prop where
  imported : ∀ simple, t.imported? simple = latestImport? lines simple
  keys : t.entries.keys.Perm (importedSimpleNames lines)
  simple : ∀ simple n, t.imported? simple = some n → n.simple = simple

/-- A table is determined by what it holds. -/
theorem Latest.of_imported {t : ImportTable} {lines : List (List Char)}
    (h : ∀ simple, t.imported? simple = latestImport? lines simple) : t.Latest lines where
  imported := h
  keys := by
    apply (List.perm_ext_iff_of_nodup Std.HashMap.nodup_keys (nodup_eraseDups _)).mpr
    intro simple
    rw [Std.HashMap.mem_keys, ← importedSimpleNames, ← isSome_latestImport?, ← h simple, imported?,
      Std.HashMap.isSome_getElem?_iff_mem]
  simple := by
    intro simple n hn
    obtain ⟨line, -, -, hs⟩ := exists_line_of_latestImport? ((h simple).symm.trans hn)
    exact hs

theorem latest_empty : (∅ : ImportTable).Latest [] := .of_imported fun _ => by simp

theorem Latest.observe {t : ImportTable} {lines : List (List Char)} (h : t.Latest lines)
    (line : List Char) : (t.observe line).Latest (lines ++ [line]) := by
  refine .of_imported fun simple => ?_
  rw [imported?_observe, latestImport?_concat, importUnder?, h.imported]
  cases declaredImport? line with
  | none => rfl
  | some n => by_cases hn : n.simple = simple <;> simp [Option.filter, hn]

theorem Latest.foldl {t : ImportTable} {seen : List (List Char)} (h : t.Latest seen)
    (lines : List (List Char)) : (lines.foldl ImportTable.observe t).Latest (seen ++ lines) := by
  induction lines generalizing t seen with
  | nil => simpa using h
  | cons line lines ih => simpa using ih (h.observe line)

end ImportTable

/-! ## References -/

/-- Before the first import, too, the names of both kinds are merged: no simple name of the line
stands for anything then. -/
theorem allReferences_eq_merge (t : ImportTable) (line : List Char) :
    allReferences t line = (qualifiedReferences line).merge (importedReferences t.imported? line)
      fun x y => decide (x.1 ≤ y.1) := by
  unfold allReferences
  split
  · next h =>
    have hnone : importedReferences t.imported? line = [] := by
      simp only [importedReferences, List.filterMap_eq_nil_iff]
      intro x _
      simp [ImportTable.imported?, Std.HashMap.getElem?_of_isEmpty h]
    rw [hnone, List.merge_right]
  · rfl

theorem references_eq_referencesWith (t : ImportTable) (line : List Char) :
    references t line = referencesWith t.imported? line := by
  rw [references, allReferences_eq_merge]
  rfl

/-- The references of the lines, line by line, when the table holds the imports of the lines seen
before. -/
theorem referencesFrom_eq_flatMap {t : ImportTable} {seen : List (List Char)} (h : t.Latest seen)
    (lines : List (List Char)) :
    referencesFrom t lines = lines.zipIdx.flatMap fun (line, k) =>
      referencesWith (latestImport? (seen ++ lines.take (k + 1))) line := by
  induction lines generalizing t seen with
  | nil => rfl
  | cons line lines ih =>
    have hline := h.observe line
    have hmeaning : (t.observe line).imported? = latestImport? (seen ++ [line]) :=
      funext hline.imported
    rw [referencesFrom, ih hline, references_eq_referencesWith, hmeaning, List.zipIdx_cons',
      List.flatMap_cons, List.flatMap_map]
    simp

theorem referencesFrom_append (t : ImportTable) (xs ys : List (List Char)) :
    referencesFrom t (xs ++ ys) =
      referencesFrom t xs ++ referencesFrom (xs.foldl ImportTable.observe t) ys := by
  induction xs generalizing t with
  | nil => rfl
  | cons x xs ih => simp [referencesFrom, ih]

/-- The first lines refer to the same names whatever follows them. -/
theorem referencesFrom_prefix (t : ImportTable) {xs ys : List (List Char)} (h : xs <+: ys) :
    referencesFrom t xs <+: referencesFrom t ys := by
  obtain ⟨zs, rfl⟩ := h
  rw [referencesFrom_append]
  exact List.prefix_append _ _

/-- What a source file refers to. Each of its lines refers to what it refers to when a simple name
stands for its latest import, on this line or in front of it. After any number of lines the table
holds exactly these imports. A file with the first lines only refers to the first of the names, and
a file that is cut off at the end of a line is such a file. -/
theorem references_of_latest_imports {relative : Path} {name : String}
    (hname : relative.dottedName? = some name) (source : Bytes) :
    let lines := sourceLines source
    ∃ s, summarize relative source = .ok s ∧
      s.references = (lines.zipIdx.flatMap fun (line, k) =>
        referencesWith (latestImport? (lines.take (k + 1))) line) ∧
      (∀ k simple n,
        latestImport? (lines.take k) simple = some n ↔ IsLatestImport lines k simple n) ∧
      (∀ k simple, latestImport? (lines.take k) simple = none ↔
        ∀ line ∈ lines.take k, importUnder? simple line = none) ∧
      (∀ k, ((lines.take k).foldl ImportTable.observe ∅).Latest (lines.take k)) ∧
      s.imports = (importedSimpleNames lines).length ∧
      (∀ part, sourceLines part <+: lines →
        ∃ p, summarize relative part = .ok p ∧ p.references <+: s.references) ∧
      ∀ text rest, source = text ++ 0x0A :: rest →
        sourceLines text <+: lines ∧ sourceLines (text ++ [0x0A]) <+: lines := by
  intro lines
  have hsummary : ∀ bytes, ∃ s, summarize relative bytes = .ok s ∧
      s.references = referencesFrom ∅ (sourceLines bytes) ∧
      s.imports = ((sourceLines bytes).foldl ImportTable.observe ∅).size := by
    intro bytes
    simp only [summarize, hname]
    exact ⟨_, rfl, rfl, rfl⟩
  obtain ⟨s, hs, hrefs, himports⟩ := hsummary source
  have htable : ∀ k, ((lines.take k).foldl ImportTable.observe ∅).Latest (lines.take k) :=
    fun k => ImportTable.latest_empty.foldl (lines.take k)
  refine ⟨s, hs, ?_, fun k simple n => latestImport?_take_eq_some_iff,
    fun k simple => latestImport?_eq_none_iff, htable, ?_, fun part hpart => ?_, ?_⟩
  · rw [hrefs]
    exact referencesFrom_eq_flatMap ImportTable.latest_empty lines
  · have hkeys := (ImportTable.latest_empty.foldl lines).keys.length_eq
    rw [Std.HashMap.length_keys] at hkeys
    exact himports.trans hkeys
  · obtain ⟨p, hp, hprefs, -⟩ := hsummary part
    refine ⟨p, hp, ?_⟩
    rw [hprefs, hrefs]
    exact referencesFrom_prefix ∅ hpart
  · rintro text rest rfl
    have hrest := sourceLines_prefix_append text rest
    exact ⟨(sourceLines_prefix_feed text).trans hrest, hrest⟩

/-- A simple name that is used in front of its import, imported, imported anew, and at last imported
from the standard library. -/
theorem references_of_shadowed_import :
    let source :=
      Utf8.encodeString "D d;\nimport x.D;\r\nD d;\nimport y.D; D d;\nimport java.D;\nD d;"
    (Path.ofString "a/B.java").dottedName? = some "a.B" ∧
      ∃ s, summarize (Path.ofString "a/B.java") source = .ok s ∧
        s.references.map (·.text) = ["x.D", "x.D", "y.D", "y.D"] ∧ s.imports = 1 := by
  intro source
  have hname : (Path.ofString "a/B.java").dottedName? = some "a.B" := by decide +kernel
  obtain ⟨s, hs, hrefs, -, -, -, himports, -⟩ := references_of_latest_imports hname source
  refine ⟨hname, s, hs, ?_, ?_⟩
  · have hfound : ((sourceLines source).zipIdx.map fun (line, k) =>
        (qualifiedReferences line,
          importedReferences (latestImport? ((sourceLines source).take (k + 1))) line)) =
        [([], []),
          ([(7, ⟨[['x']], ['D'], by decide, by decide, by decide⟩)], []),
          ([], [(0, ⟨[['x']], ['D'], by decide, by decide, by decide⟩)]),
          ([(7, ⟨[['y']], ['D'], by decide, by decide, by decide⟩)],
            [(12, ⟨[['y']], ['D'], by decide, by decide, by decide⟩)]),
          ([(7, ⟨["java".toList], ['D'], by decide, by decide, by decide⟩)], []),
          ([], [(0, ⟨["java".toList], ['D'], by decide, by decide, by decide⟩)])] := by
      decide +kernel
    have hflat := congrArg (List.flatMap fun x => inOffsetOrder x.1 x.2) hfound
    rw [List.flatMap_map] at hflat
    rw [hrefs]
    refine (congrArg (List.map (·.text)) hflat).trans ?_
    simp only [List.flatMap_cons, List.flatMap_nil, inOffsetOrder, List.merge_right, List.nil_merge,
      List.cons_merge_cons]
    decide +kernel
  · rw [himports]
    decide +kernel

end ReferenceGraph
