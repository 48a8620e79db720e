import ReferenceGraph.Proofs.Source.Division

/-!
# The grammar of imports

A text imports a name if blanks, the keyword, at least one blank, the name, blanks and a semicolon
stand at its start; nothing is asked of what follows. The texts that are read as imports are those,
and the grammar leaves no choice of the name. Line feeds are blanks here like any other.

Neither the blanks nor the keyword hold a dot or a capital letter, so nothing in front of the name
is referred to. The last blank divides the line, and the name is what its right side begins with, so
it is the first reference of the line.

* `Declares`: the grammar. `declaredImport?_eq_some_iff` says that it is what is read.
* `head?_references_of_declares`: the first reference of a line that imports.
* `import_grammar`: the statement for every table and every text.
-/

namespace ReferenceGraph

open Unicode

/-- The text is an import of what `q` spells, as far as the semicolon. -/
inductive Declares : List Char → String → Prop
  | intro {u v w : List Char} {q : String} (hu : ∀ c ∈ u, isBlank c = true) (hne : v ≠ [])
    (hv : ∀ c ∈ v, isBlank c = true) (hw : ∀ c ∈ w, isBlank c = true) (z : List Char) :
    Declares (u ++ importKeyword ++ v ++ q.toList ++ w ++ ';' :: z) q

/-- An import is read exactly if the text belongs to the grammar. -/
theorem declaredImport?_eq_some_iff {text : List Char} {n : QualifiedName} :
    declaredImport? text = some n ↔ Declares text n.text := by
  constructor
  · intro h
    obtain ⟨u, v, rest, rfl, hu, hne, hv, hn, hend⟩ := declaredImport?_eq_some h
    obtain ⟨tail, rfl⟩ := QualifiedName.atStart?_eq_some hn
    rw [List.drop_left] at hend
    obtain ⟨z, hz⟩ := List.head?_eq_some_iff.mp hend
    have htail : tail = tail.takeWhile isBlank ++ ';' :: z := by
      rw [← hz, List.takeWhile_append_dropWhile]
    have hdeclares := Declares.intro (q := n.text) hu hne hv
      (List.all_eq_true.mp (List.all_takeWhile (l := tail))) z
    rw [QualifiedName.text, String.toList_ofList] at hdeclares
    rw [htail]
    simpa only [List.append_assoc, QualifiedName.text] using hdeclares
  · generalize hq : n.text = q
    rintro ⟨hu, hne, hv, hw, z⟩
    rw [← hq, QualifiedName.text, String.toList_ofList]
    exact declaredImport?_append n hu hne hv hw z

/-! ## The first reference -/

/-- Without a dot and a capital letter, a line refers to nothing. -/
theorem references_eq_nil {table : ImportTable} {line : List Char}
    (h : ∀ c ∈ line, c ≠ '.' ∧ c.isUpper = false) : references table line = [] := by
  have hnone : ∀ r, r ∉ allReferences table line := by
    intro r hr
    rcases mem_allReferences.mp hr with hr | hr
    · obtain ⟨-, hlongest⟩ := mem_qualifiedReferences_iff.mp hr
      have hdot : '.' ∈ r.2.chars := by
        rw [QualifiedName.chars_eq]
        simp
      exact (h '.' (List.mem_of_mem_drop (hlongest.start.subset hdot))).1 rfl
    · obtain ⟨c, hc, hupper⟩ := isUpper_of_mem_importedReferences hr
      rw [(h c (List.mem_of_getElem? hc)).2] at hupper
      cases hupper
  rw [references, List.eq_nil_iff_forall_not_mem.mpr hnone]
  rfl

/-- A qualified name at the start of a line is its first reference, unless it is reserved. -/
theorem head?_references_of_atStart? {table : ImportTable} {line : List Char} {n : QualifiedName}
    (hn : QualifiedName.atStart? line = some n) (hreserved : n.isReserved = false) :
    (references table line).head? = some n := by
  have hmem : (0, n) ∈ allReferences table line :=
    mem_allReferences.mpr (.inl (mem_qualifiedReferences_iff.mpr
      ⟨.inl rfl, QualifiedName.atStart?_eq_some_iff.mp hn⟩))
  have hascending := ascending_allReferences table line
  rw [references]
  cases hall : allReferences table line with
  | nil =>
    rw [hall] at hmem
    cases hmem
  | cons r rest =>
    rw [hall] at hmem hascending
    rcases List.mem_cons.mp hmem with rfl | hmem
    · simp [hreserved]
    · -- No offset is smaller than that of the name.
      exact absurd ((List.pairwise_cons.mp hascending).1 _ hmem) (Nat.not_lt_zero r.1)

/-- A name that is imported is the first reference of its line, unless it is reserved. -/
theorem head?_references_of_declares {text : List Char} {n : QualifiedName}
    (h : Declares text n.text) (hreserved : n.isReserved = false) (table : ImportTable) :
    (references table text).head? = some n := by
  obtain ⟨u, v, rest, rfl, hu, hne, hv, hn, -⟩ :=
    declaredImport?_eq_some (declaredImport?_eq_some_iff.mpr h)
  obtain ⟨blanks, c, rfl⟩ : ∃ blanks c, v = blanks ++ [c] :=
    ⟨_, _, (List.dropLast_concat_getLast hne).symm⟩
  have hc : isBlank c = true := hv c (by simp)
  have hsplit : u ++ importKeyword ++ (blanks ++ [c]) ++ rest =
      (u ++ importKeyword ++ blanks) ++ c :: rest := by simp
  have hblank : ∀ d, isBlank d = true → d ≠ '.' ∧ d.isUpper = false := fun d hd =>
    ⟨(isBoundary_iff.mp (isBoundary_of_isBlank hd)).2, isUpper_of_isBlank hd⟩
  have hdot : '.' ∉ importKeyword := by decide
  have hkeyword : ∀ d ∈ importKeyword, d ≠ '.' ∧ d.isUpper = false := fun d hd =>
    ⟨ne_of_mem_of_not_mem hd hdot, isUpper_of_mem_importKeyword hd⟩
  have hleft : references table (u ++ importKeyword ++ blanks) = [] := by
    refine references_eq_nil fun d hd => ?_
    rcases List.mem_append.mp hd with hd | hd
    · rcases List.mem_append.mp hd with hd | hd
      · exact hblank d (hu d hd)
      · exact hkeyword d hd
    · exact hblank d (hv d (List.mem_append_left _ hd))
  rw [hsplit, references_append_cons_of_not_continuesName table (isBoundary_of_isBlank hc)
    (continuesName_of_isBlank hc), hleft, List.nil_append]
  exact head?_references_of_atStart? hn hreserved

/-- A text imports what belongs to the grammar of imports and reads as a name, and a text imports at
most one such name. That name is recorded under its simple name, and every other simple name keeps
its meaning; a text that imports nothing leaves the table as it is. Unless it begins with `java`,
the imported name is the first reference of its line, whatever has been imported before. -/
theorem import_grammar (table : ImportTable) (text : List Char) :
    (∀ q : String, (∃ n, n.text = q ∧ declaredImport? text = some n) ↔
      (QualifiedName.parse? q).isSome = true ∧ Declares text q) ∧
    (∀ q q' : String, (QualifiedName.parse? q).isSome = true → Declares text q →
      (QualifiedName.parse? q').isSome = true → Declares text q' → q = q') ∧
    (∀ n, declaredImport? text = some n →
      table.Records text n ∧
        (¬"java".toList <+: n.chars →
          ∀ before : ImportTable, (references before text).head? = some n)) ∧
    (declaredImport? text = none → table.observe text = table) := by
  have hgrammar : ∀ q : String, (∃ n, n.text = q ∧ declaredImport? text = some n) ↔
      (QualifiedName.parse? q).isSome = true ∧ Declares text q := by
    intro q
    simp only [declaredImport?_eq_some_iff, Option.isSome_iff_exists,
      QualifiedName.parse?_eq_some_iff]
    constructor
    · rintro ⟨n, rfl, h⟩
      exact ⟨⟨n, rfl⟩, h⟩
    · rintro ⟨⟨n, rfl⟩, h⟩
      exact ⟨n, rfl, h⟩
  refine ⟨hgrammar, fun q q' hq h hq' h' => ?_, fun n hn => ⟨.of_declared hn table, ?_⟩, ?_⟩
  · obtain ⟨n, rfl, hn⟩ := (hgrammar q).mpr ⟨hq, h⟩
    obtain ⟨n', rfl, hn'⟩ := (hgrammar q').mpr ⟨hq', h'⟩
    rw [Option.some.inj (hn.symm.trans hn')]
  · intro hjava before
    have hreserved : n.isReserved = false := by
      rwa [← Bool.not_eq_true, QualifiedName.isReserved_iff]
    exact head?_references_of_declares (declaredImport?_eq_some_iff.mp hn) hreserved before
  · intro hnone
    rw [ImportTable.observe, hnone]

end ReferenceGraph
