import ReferenceGraph.Analysis.Extract
import ReferenceGraph.Proofs.Source.Position
import ReferenceGraph.Proofs.Source.Redundancy

/-!
# Reserved names

The names of the standard library are left out of the references, and they are told by four
letters: a name is reserved if its text begins with `java`. No dot is among these letters, so they
are letters of the first segment of the package. This covers the packages below `java`, `javax` and
`javafx`, and also those below `javassist` or any other segment with this beginning.

* `QualifiedName.isReserved_iff_firstSegment`: the rule for a name, by its first segment.
* `mem_edges_iff`: at either granularity, an occurrence makes an edge of its file exactly if its
  name is not reserved. A package is enough to tell, as it has the first segment of its classes
  (`firstSegment_of_collapse`).
* `reserved_by_first_segment`: the statement for every line and every file.
-/

namespace ReferenceGraph

namespace QualifiedName

/-- The first segment of the package. -/
def firstSegment (n : QualifiedName) : List Char := n.package.head n.package_ne_nil

theorem firstSegment_prefix_chars (n : QualifiedName) : n.firstSegment ++ ['.'] <+: n.chars := by
  have hpackage : n.package = n.firstSegment :: n.package.tail :=
    (List.cons_head_tail n.package_ne_nil).symm
  rw [chars_of_package_cons hpackage]
  exact ⟨['.'].intercalate (n.package.tail ++ [n.simple]), by simp⟩

/-- A name is reserved by the letters that its first segment begins with. -/
theorem isReserved_iff_firstSegment {n : QualifiedName} :
    n.isReserved = true ↔ "java".toList <+: n.firstSegment := by
  rw [isReserved_iff, reservedStem]
  constructor
  · intro h
    -- Both are what the text begins with; the stem is not the longer one, for it has no dot.
    rcases List.prefix_or_prefix_of_prefix h n.firstSegment_prefix_chars with h | h
    · refine (List.prefix_concat_iff.mp h).resolve_left fun heq => ?_
      have hdot : '.' ∈ "java".toList := heq ▸ by simp
      exact absurd hdot (by decide)
    · have hdot : '.' ∈ "java".toList := h.subset (by simp)
      exact absurd hdot (by decide)
  · intro h
    exact h.trans ((List.prefix_append _ _).trans n.firstSegment_prefix_chars)

theorem not_isReserved_iff_firstSegment {n : QualifiedName} :
    n.isReserved = false ↔ ¬"java".toList <+: n.firstSegment := by
  rw [← isReserved_iff_firstSegment, Bool.not_eq_true]

/-- Names that belong to the same node have the same first segment. -/
theorem firstSegment_of_collapse {kind : Granularity} {m n : QualifiedName}
    (h : kind.collapse m.text = kind.collapse n.text) : m.firstSegment = n.firstSegment := by
  have hpackage : m.package = n.package := by
    cases kind with
    | classes =>
      rw [ext_chars (String.ofList_injective h)]
    | packages =>
      rw [Granularity.collapse_packages, Granularity.collapse_packages, parentName_text,
        parentName_text] at h
      have hsplit (n : QualifiedName) : (['.'].intercalate n.package).splitOn '.' = n.package :=
        List.splitOn_intercalate '.' (fun _ hs => dot_not_mem (List.mem_append_left _ hs))
          n.package_ne_nil
      rw [← hsplit m, String.ofList_injective h, hsplit n]
  simp only [firstSegment, hpackage]

end QualifiedName

/-! ## Lines -/

/-- What stands in a line is referred to unless it is reserved. -/
theorem Occurrence.OccursIn.mem_referencesWith_iff {meaning? : List Char → Option QualifiedName}
    {line : List Char} {x : Occurrence} (h : x.OccursIn meaning? line) :
    x.name ∈ referencesWith meaning? line ↔ ¬"java".toList <+: x.name.firstSegment := by
  have hmem : x.name ∈ (occurrences meaning? line).map (·.name) :=
    List.mem_map_of_mem (mem_occurrences.mpr h)
  rw [referencesWith_eq_occurrences, List.mem_filter, Bool.not_eq_true',
    QualifiedName.not_isReserved_iff_firstSegment]
  exact and_iff_right hmem

/-! ## Files -/

/-- The imports that count on a line of a file, its own included. -/
def importsAt (lines : List (List Char)) (k : Nat) : ImportTable :=
  (lines.take (k + 1)).foldl ImportTable.observe ∅

theorem imported?_importsAt (lines : List (List Char)) (k : Nat) :
    (importsAt lines k).imported? = latestImport? (lines.take (k + 1)) :=
  funext (ImportTable.latest_empty.foldl (lines.take (k + 1))).imported

theorem mem_referencesFrom_empty_iff {lines : List (List Char)} {n : QualifiedName} :
    n ∈ referencesFrom ∅ lines ↔
      ∃ k line, lines[k]? = some line ∧ n ∈ referencesWith (importsAt lines k).imported? line := by
  simp only [referencesFrom_eq_flatMap ImportTable.latest_empty, List.nil_append, List.mem_flatMap,
    Prod.exists, List.mk_mem_zipIdx_iff_getElem?, imported?_importsAt]
  exact exists_comm

theorem isReserved_of_mem_referencesFrom {lines : List (List Char)} {n : QualifiedName}
    (h : n ∈ referencesFrom ∅ lines) : n.isReserved = false := by
  obtain ⟨k, line, -, hn⟩ := mem_referencesFrom_empty_iff.mp h
  rw [referencesWith_eq_occurrences] at hn
  simpa using (List.mem_filter.mp hn).2

/-- An occurrence makes an edge of its file unless it is reserved. -/
theorem mem_edges_iff {relative : Path} {source : Bytes} {s : Summary}
    (hs : summarize relative source = .ok s) (kind : Granularity) {k : Nat} {line : List Char}
    (hline : (sourceLines source)[k]? = some line) {x : Occurrence}
    (hx : x.OccursIn (importsAt (sourceLines source) k).imported? line) :
    ⟨kind.collapse s.name, kind.collapse x.name.text⟩ ∈ s.edges kind ↔
      ¬"java".toList <+: x.name.firstSegment := by
  have hreferences : s.references = referencesFrom ∅ (sourceLines source) := by
    unfold summarize at hs
    split at hs
    · cases hs
    · cases hs
      rfl
  rw [Summary.edges, edgesFrom, hreferences, List.mem_map]
  constructor
  · rintro ⟨n, hn, hedge⟩
    obtain ⟨-, htarget⟩ := Edge.mk.inj hedge
    rw [← QualifiedName.firstSegment_of_collapse htarget]
    exact QualifiedName.not_isReserved_iff_firstSegment.mp (isReserved_of_mem_referencesFrom hn)
  · intro hjava
    exact ⟨x.name, mem_referencesFrom_empty_iff.mpr
      ⟨k, line, hline, hx.mem_referencesWith_iff.mpr hjava⟩, rfl⟩

/-- Names are left out by the first four letters of their first segment. On every line, what is left
out of the occurrences are exactly those with a name whose first segment begins with `java`. All
others are reported, and in a file each of them makes an edge. -/
theorem reserved_by_first_segment :
    (∀ (table : ImportTable) (line : List Char), ∃ found : List Occurrence,
      (∀ x, x ∈ found ↔ x.OccursIn table.imported? line) ∧
      (found.Pairwise fun x y => x.start + x.text.length < y.start) ∧
      references table line =
        (found.filter fun x => ¬"java".toList <+: x.name.firstSegment).map (·.name) ∧
      ∀ x ∈ found, x.name ∉ references table line ↔ "java".toList <+: x.name.firstSegment) ∧
    ∀ (kind : Granularity) (relative : Path) (source : Bytes) (s : Summary),
      summarize relative source = .ok s → ∀ (k : Nat) (line : List Char),
        (sourceLines source)[k]? = some line →
          ∀ x : Occurrence, x.OccursIn (importsAt (sourceLines source) k).imported? line →
            (⟨kind.collapse s.name, kind.collapse x.name.text⟩ ∈ s.edges kind ↔
              ¬"java".toList <+: x.name.firstSegment) := by
  refine ⟨fun table line => ⟨occurrences table.imported? line, fun x => mem_occurrences,
    pairwise_occurrences _ line, ?_, fun x hx => ?_⟩, ?_⟩
  · rw [references_eq_occurrences]
    refine congrArg (List.map _) (List.filter_congr fun x _ => ?_)
    rw [decide_eq_decide, ← QualifiedName.isReserved_iff_firstSegment, QualifiedName.isReserved_iff,
      QualifiedName.reservedStem]
  · rw [references_eq_referencesWith, (mem_occurrences.mp hx).mem_referencesWith_iff, not_not]
  · intro kind relative source s hs k line hline x hx
    exact mem_edges_iff hs kind hline hx

/-- The name `javassist.util.Proxy`. -/
def proxyName : QualifiedName where
  package := ["javassist".toList, "util".toList]
  simple := "Proxy".toList
  package_ne_nil := by decide
  isSegment_package := by decide
  isSimpleName_simple := by decide

/-- The package of `javassist.util.Proxy` does not belong to the standard library, but a line with
this name alone refers to nothing. -/
theorem references_omit_javassist :
    let line := "javassist.util.Proxy p;".toList
    ∃ x : Occurrence, x.OccursIn (∅ : ImportTable).imported? line ∧
      x.name.text = "javassist.util.Proxy" ∧
      x.name.firstSegment ∉ ["java".toList, "javax".toList, "javafx".toList] ∧
      references ∅ line = [] ∧
      ¬(x.name ∉ references ∅ line ↔
        x.name.firstSegment ∈ ["java".toList, "javax".toList, "javafx".toList]) := by
  intro line
  have hstart : QualifiedName.atStart? (line.drop 0) = some proxyName := by decide +kernel
  have hoccurs : Occurrence.OccursIn (∅ : ImportTable).imported? line
      ⟨0, proxyName.chars, proxyName⟩ :=
    .qualified (.inl rfl) (QualifiedName.atStart?_eq_some_iff.mp hstart)
  have hreferences : references ∅ line = [] := by
    rw [references_empty]
    decide +kernel
  have hsegment :
      proxyName.firstSegment ∉ ["java".toList, "javax".toList, "javafx".toList] := by
    decide +kernel
  refine ⟨_, hoccurs, by decide +kernel, hsegment, hreferences, fun h => ?_⟩
  rw [hreferences] at h
  exact hsegment (h.mp List.not_mem_nil)

end ReferenceGraph
