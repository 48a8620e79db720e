import Mathlib.Data.List.TFAE
import Mathlib.Tactic.TFAE
import ReferenceGraph.Proofs.Name.Grammar
import ReferenceGraph.Proofs.Source.Redundancy

/-!
# The recognisers of names agree

A name is recognised in three places: a whole text is read as a name, an import declares one, and a
line refers to one. The first cuts the text at its dots; the other two look for the longest name
that a text begins with. On a text that is meant to be a name and nothing else, all three say the
same, and it is what the grammar says.

* `QualifiedName.atStart?_chars_append`: a name is found at the start of a text, if no letter or
  digit is behind it.
* `declaredImport?_append`: a text that has the form of an import is read as one.
* `ImportTable.Records`: what it means that an import is recorded. `records_importLine` says it of
  the line that is written for a name.
* `qualifiedReferences_chars`: a name as a whole line refers to itself alone.
* `recognisers_agree`: the statement for every text.
-/

namespace ReferenceGraph

open Unicode

/-! ## A name at the start of a text -/

namespace QualifiedName

theorem chars_append (n : QualifiedName) (rest : List Char) :
    n.chars ++ rest = (['.'].intercalate n.package ++ ['.']) ++ (n.simple ++ rest) := by
  rw [chars_eq]
  simp

/-- The run of segment characters and dots that a name begins with is its package and a dot. It ends
at the first letter of the simple name. -/
theorem takeWhile_chars_append (n : QualifiedName) (rest : List Char) :
    (n.chars ++ rest).takeWhile (fun c => isSegmentChar c || c == '.') =
      ['.'].intercalate n.package ++ ['.'] := by
  rw [chars_append]
  refine takeWhile_append_of_stop (fun c hc => ?_) (fun c hc => ?_)
  · rcases List.mem_append.mp hc with hc | hc
    · rcases mem_of_mem_intercalate hc with hc | ⟨s, hs, hc⟩
      · simp [List.mem_singleton.mp hc]
      · have hseg := isSegmentChar_iff.mpr ((n.isPackageText_of_mem_package hs).2 c hc)
        simp [hseg]
    · simp [List.mem_singleton.mp hc]
  · obtain ⟨d, ds, hsimple, hd, -⟩ := isSimpleName_iff.mp n.isSimpleName_simple
    rw [hsimple] at hc
    obtain rfl := Option.some.inj hc
    exact not_package_of_isUpper (isUpper_iff.mpr hd)

/-- A name is found at the start of a text, if no letter or digit is behind it. -/
theorem atStart?_chars_append (n : QualifiedName) {rest : List Char}
    (h : ∀ c, rest.head? = some c → c.isAlphanum = false) :
    atStart? (n.chars ++ rest) = some n := by
  have hsplit : (['.'].intercalate n.package ++ ['.']).splitOn '.' = n.package ++ [[]] := by
    rw [List.splitOn_append_cons_self, List.splitOn_intercalate '.' _ n.package_ne_nil]
    · simp
    · exact fun s hs => dot_not_mem (List.mem_append_left _ hs)
  have hsimple : (n.simple ++ rest).takeWhile Char.isAlphanum = n.simple :=
    takeWhile_append_of_stop (isAlphanum_of_isSimpleName n.isSimpleName_simple) h
  rw [atStart?, takeWhile_chars_append, hsplit, chars_append, List.drop_left, hsimple,
    if_pos (by simp), List.dropLast_concat]
  exact ofParts?_eq_some_iff.mpr ⟨rfl, rfl⟩

end QualifiedName

/-! ## The line of an import -/

/-- The line that imports what the text spells. -/
def importLine (t : String) : List Char := ("import " ++ t ++ ";").toList

theorem importLine_text (n : QualifiedName) :
    importLine n.text = importKeyword ++ ' ' :: (n.chars ++ [';']) := by
  have hstart : "import ".toList = importKeyword ++ [' '] := by decide
  have hend : ";".toList = [';'] := rfl
  simp [importLine, QualifiedName.text, hstart, hend]

/-- A name does not begin with a blank. -/
theorem dropWhile_isBlank_chars (n : QualifiedName) (rest : List Char) :
    (n.chars ++ rest).dropWhile isBlank = n.chars ++ rest := by
  have hne : n.chars ≠ [] := by
    rw [QualifiedName.chars_eq]
    simp
  obtain ⟨c, cs, hchars⟩ := List.exists_cons_of_ne_nil hne
  have hmem : c ∈ n.chars := by
    rw [hchars]
    exact .head cs
  have hc : isBoundary c = false := QualifiedName.isBoundary_of_mem_chars hmem
  have hblank : isBlank c = false := by
    cases hb : isBlank c with
    | false => rfl
    | true => rw [isBoundary_of_isBlank hb] at hc; cases hc
  rw [hchars, List.cons_append, List.dropWhile_cons, hblank]
  rfl

/-- A text imports a name, if it begins with blanks, the keyword, at least one blank, the name,
blanks and a semicolon. -/
theorem declaredImport?_append (n : QualifiedName) {u v w : List Char}
    (hu : ∀ c ∈ u, isBlank c = true) (hne : v ≠ []) (hv : ∀ c ∈ v, isBlank c = true)
    (hw : ∀ c ∈ w, isBlank c = true) (z : List Char) :
    declaredImport? (u ++ importKeyword ++ v ++ n.chars ++ w ++ ';' :: z) = some n := by
  have hstart : (u ++ importKeyword ++ v ++ n.chars ++ w ++ ';' :: z).dropWhile isBlank =
      importKeyword ++ (v ++ (n.chars ++ (w ++ ';' :: z))) := by
    have hfirst : ¬isBlank 'i' = true := by decide
    simp only [List.append_assoc]
    rw [List.dropWhile_append_of_pos hu]
    exact List.dropWhile_cons_of_neg hfirst
  have hblank : (v ++ (n.chars ++ (w ++ ';' :: z))).head?.any isBlank = true := by
    obtain ⟨c, cs, rfl⟩ := List.exists_cons_of_ne_nil hne
    simpa using hv c (.head cs)
  have hrest : (v ++ (n.chars ++ (w ++ ';' :: z))).dropWhile isBlank =
      n.chars ++ (w ++ ';' :: z) := by
    rw [List.dropWhile_append_of_pos hv, dropWhile_isBlank_chars]
  have hname : QualifiedName.atStart? (n.chars ++ (w ++ ';' :: z)) = some n :=
    n.atStart?_chars_append fun c hc => by
      cases w with
      | nil =>
        obtain rfl := Option.some.inj hc
        decide
      | cons d ds =>
        obtain rfl := Option.some.inj hc
        exact not_isAlphanum_of_isBoundary (isBoundary_of_isBlank (hw d (.head ds)))
  have hend : ((w ++ ';' :: z).dropWhile isBlank).head? = some ';' := by
    have hstop : ¬isBlank ';' = true := by decide
    rw [List.dropWhile_append_of_pos hw, List.dropWhile_cons_of_neg hstop, List.head?_cons]
  rw [declaredImport?, hstart, List.isPrefixOf?_eq_some_iff_append_eq.mpr rfl]
  simp only [hblank, if_true, hrest, hname, List.drop_left, hend]

theorem declaredImport?_importLine (n : QualifiedName) :
    declaredImport? (importLine n.text) = some n := by
  have hblank : isBlank ' ' = true := by decide
  rw [importLine_text]
  simpa using
    @declaredImport?_append n [] [' '] [] (by simp) (by simp) (by simpa using hblank) (by simp) []

namespace ImportTable

/-- The table records the name on the line: the line imports it, its simple name stands for it from
there on, and every other simple name stands for what it stood for. -/
structure Records (table : ImportTable) (line : List Char) (n : QualifiedName) : Prop where
  declared : declaredImport? line = some n
  imported : (table.observe line).imported? n.simple = some n
  others : ∀ s ≠ n.simple, (table.observe line).imported? s = table.imported? s

theorem Records.of_declared {line : List Char} {n : QualifiedName}
    (h : declaredImport? line = some n) (table : ImportTable) : table.Records line n where
  declared := h
  imported := by simp [imported?_observe, h]
  others s hs := by simp [imported?_observe, h, Ne.symm hs]

end ImportTable

/-! ## A name as a whole line -/

/-- Where nothing is a boundary, no name begins. -/
theorem scanFrom_eq_nil {α : Type} {recognise? : List Char → Option (α × Nat)} {cs : List Char}
    (h : ∀ c ∈ cs, isBoundary c = false) (offset skip : Nat) :
    scanFrom recognise? offset skip cs = [] := by
  induction cs generalizing offset skip with
  | nil => simp [scanFrom]
  | cons c cs ih =>
    rw [List.forall_mem_cons] at h
    cases skip with
    | zero => simp [scanFrom, h.1, ih h.2]
    | succ skip => simp [scanFrom, ih h.2]

/-- A name as a whole line refers to itself and to nothing else. -/
theorem qualifiedReferences_chars (n : QualifiedName) : qualifiedReferences n.chars = [(0, n)] := by
  have hstart : QualifiedName.atStart? n.chars = some n := by
    simpa using @QualifiedName.atStart?_chars_append n [] (by simp)
  simp [qualifiedReferences, scan, recogniseQualified?, hstart,
    scanFrom_eq_nil fun _ => QualifiedName.isBoundary_of_mem_chars]

/-- The recognisers of names agree with the grammar and with each other, on every text. Reading the
whole text as a name succeeds exactly if the text belongs to the grammar, if the line that imports
it is recorded under exactly this name, whatever the table holds, and if the only qualified name of
the text as a line is the text. As a line it refers to itself exactly if it is moreover not a name
of the standard library. -/
theorem recognisers_agree (table : ImportTable) (t : String) :
    [(QualifiedName.parse? t).isSome = true,
      IsQualifiedText t.toList,
      ∃ n, n.text = t ∧ table.Records (importLine t) n,
      (qualifiedReferences t.toList).map (·.2.text) = [t]].TFAE ∧
    ((references ∅ t.toList).map (·.text) = [t] ↔
      (QualifiedName.parse? t).isSome = true ∧ ¬QualifiedName.reservedStem <+: t.toList) := by
  have htext : (QualifiedName.parse? t).isSome = true ↔ ∃ n : QualifiedName, n.text = t := by
    simp only [Option.isSome_iff_exists, QualifiedName.parse?_eq_some_iff]
  constructor
  · tfae_have 1 ↔ 2 := QualifiedName.isSome_parse?_iff
    tfae_have 1 → 3 := by
      rw [htext]
      rintro ⟨n, rfl⟩
      exact ⟨n, rfl, .of_declared (declaredImport?_importLine n) table⟩
    tfae_have 3 → 1 := by
      rw [htext]
      rintro ⟨n, hn, -⟩
      exact ⟨n, hn⟩
    tfae_have 1 → 4 := by
      rw [htext]
      rintro ⟨n, rfl⟩
      simp [QualifiedName.text, qualifiedReferences_chars]
    tfae_have 4 → 1 := by
      rw [htext, List.map_eq_singleton_iff]
      rintro ⟨x, -, hx⟩
      exact ⟨x.2, hx⟩
    tfae_finish
  · rw [htext, List.map_eq_singleton_iff]
    constructor
    · rintro ⟨n, hrefs, rfl⟩
      have hn : n ∈ references ∅ n.text.toList := by simp [hrefs]
      have hreserved : ¬n.isReserved = true := by simpa using (List.mem_filter.mp hn).2
      rw [QualifiedName.isReserved_iff] at hreserved
      exact ⟨⟨n, rfl⟩, by rwa [QualifiedName.text, String.toList_ofList]⟩
    · rintro ⟨⟨n, rfl⟩, hreserved⟩
      refine ⟨n, ?_, rfl⟩
      rw [QualifiedName.text, String.toList_ofList] at hreserved ⊢
      rw [← QualifiedName.isReserved_iff] at hreserved
      simp [references_empty, qualifiedReferences_chars, hreserved]

end ReferenceGraph
