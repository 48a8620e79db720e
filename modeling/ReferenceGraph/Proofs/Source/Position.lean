import Mathlib.Data.List.Sort
import ReferenceGraph.Proofs.Source.Latest
import ReferenceGraph.Proofs.Source.Longest

/-!
# References by position

Two scans go through a line, each takes the character in front of a match with it, and their matches
are merged by offset. What comes out can be said without scans: at each offset of the line where a
name may begin there stands a qualified name, or a simple name with a meaning, or nothing; and the
line refers to what stands there, offset by offset.

* `Occurrence.OccursIn`: what stands at one offset, by the grammar of names. An offset has at most
  one occurrence (`OccursIn.unique`), and between two occurrences there is at least one character
  (`OccursIn.end_lt_start`).
* `mem_qualifiedReferences_iff`, `mem_importedReferences_iff`: the scans find the occurrences.
* `occurrences`: the occurrences in the order of their offsets. `references_eq_occurrences` says
  that a line refers to them, `allReferences_eq_mergeSort` that the merge puts both scans in order.
* `references_by_position`: the statement for every table and every line.
-/

namespace ReferenceGraph

open Unicode

/-! ## Lists with ascending offsets -/

/-- The offsets of the list are strictly ascending. -/
def Ascending {α : Type} (xs : List (Nat × α)) : Prop := xs.Pairwise fun x y => x.1 < y.1

namespace Ascending

variable {α : Type} {xs ys : List (Nat × α)}

private theorem decide_fst_le_trans (x y z : Nat × α) (hxy : decide (x.1 ≤ y.1) = true)
    (hyz : decide (y.1 ≤ z.1) = true) : decide (x.1 ≤ z.1) = true :=
  decide_eq_true (Nat.le_trans (of_decide_eq_true hxy) (of_decide_eq_true hyz))

private theorem decide_fst_le_total (x y : Nat × α) :
    (decide (x.1 ≤ y.1) || decide (y.1 ≤ x.1)) = true := by
  simpa using Nat.le_total x.1 y.1

/-- What is ascending is determined by its members. -/
theorem eq_of_mem_iff (hxs : Ascending xs) (hys : Ascending ys) (h : ∀ x, x ∈ xs ↔ x ∈ ys) :
    xs = ys := by
  have : Std.Asymm fun x y : Nat × α => x.1 < y.1 := ⟨fun _ _ => Nat.lt_asymm⟩
  exact List.Pairwise.eq_of_mem_iff hxs hys h

/-- A list in order is ascending, if it has the members of two ascending lists without a common
offset. -/
theorem of_perm_append (hxs : Ascending xs) (hys : Ascending ys)
    (hne : ∀ x ∈ xs, ∀ y ∈ ys, x.1 ≠ y.1) {zs : List (Nat × α)}
    (hle : zs.Pairwise fun x y => decide (x.1 ≤ y.1) = true) (hperm : zs.Perm (xs ++ ys)) :
    Ascending zs := by
  have hdistinct : zs.Pairwise fun x y => x.1 ≠ y.1 := by
    refine (hperm.pairwise_iff fun h => Ne.symm h).mpr (List.pairwise_append.mpr ⟨?_, ?_, hne⟩)
    · exact hxs.imp Nat.ne_of_lt
    · exact hys.imp Nat.ne_of_lt
  exact (hle.and hdistinct).imp fun h => Nat.lt_of_le_of_ne (of_decide_eq_true h.1) h.2

theorem merge (hxs : Ascending xs) (hys : Ascending ys) (hne : ∀ x ∈ xs, ∀ y ∈ ys, x.1 ≠ y.1) :
    Ascending (xs.merge ys fun x y => decide (x.1 ≤ y.1)) := by
  refine of_perm_append hxs hys hne
    (List.pairwise_merge decide_fst_le_trans decide_fst_le_total xs ys ?_ ?_)
    (List.merge_perm_append _)
  · exact hxs.imp fun h => decide_eq_true (Nat.le_of_lt h)
  · exact hys.imp fun h => decide_eq_true (Nat.le_of_lt h)

/-- Two ascending lists without a common offset are merged as a sort would put them in order. -/
theorem merge_eq_mergeSort (hxs : Ascending xs) (hys : Ascending ys)
    (hne : ∀ x ∈ xs, ∀ y ∈ ys, x.1 ≠ y.1) :
    (xs.merge ys fun x y => decide (x.1 ≤ y.1)) =
      (xs ++ ys).mergeSort fun x y => decide (x.1 ≤ y.1) := by
  have hsort : Ascending ((xs ++ ys).mergeSort fun x y => decide (x.1 ≤ y.1)) :=
    of_perm_append hxs hys hne
      (List.pairwise_mergeSort decide_fst_le_trans decide_fst_le_total _) (List.mergeSort_perm _ _)
  refine (merge hxs hys hne).eq_of_mem_iff hsort fun x => ?_
  rw [List.mem_merge, List.mem_mergeSort, List.mem_append]

end Ascending

/-! ## Occurrences -/

/-- Whether a name may begin at the offset: at the start of the line, or behind a character that is
neither a word character nor a dot. -/
def IsClean (cs : List Char) (i : Nat) : Prop :=
  i = 0 ∨ ∃ c, cs[i - 1]? = some c ∧ isWord c = false ∧ c ≠ '.'

/-- A name that stands in a line: its offset, its text in the line, and what it refers to. -/
structure Occurrence where
  start : Nat
  text : List Char
  name : QualifiedName

/-- What stands in a line when `meaning?` tells what a simple name stands for. -/
inductive Occurrence.OccursIn (meaning? : List Char → Option QualifiedName) (cs : List Char) :
    Occurrence → Prop
  /-- The longest qualified name at a clean offset refers to itself. -/
  | qualified {i : Nat} {n : QualifiedName} (hclean : IsClean cs i)
    (hlongest : IsLongestStart IsQualifiedText (cs.drop i) n.chars) :
    OccursIn meaning? cs ⟨i, n.chars, n⟩
  /-- The longest simple name at a clean offset refers to its meaning, if it has one and is not
  followed by an alphanumeric character or a low line. -/
  | simple {i : Nat} {s : List Char} {n : QualifiedName} (hclean : IsClean cs i)
    (hlongest : IsLongestStart IsSimpleText (cs.drop i) s)
    (hwhole : ∀ c, cs[i + s.length]? = some c → isAlphanumeric c = false ∧ c ≠ '_')
    (hmeaning : meaning? s = some n) : OccursIn meaning? cs ⟨i, s, n⟩

theorem isBoundary_iff {c : Char} : isBoundary c = true ↔ isWord c = false ∧ c ≠ '.' := by
  simp [isBoundary]

theorem isStart_iff {cs : List Char} {i : Nat} : isStart cs i = true ↔ IsClean cs i := by
  cases i with
  | zero => simp [isStart, IsClean]
  | succ i =>
    rw [isStart, IsClean, Nat.add_sub_cancel]
    cases cs[i]? <;> simp [isBoundary_iff]

theorem IsClean.le_length {line : List Char} {i : Nat} (h : IsClean line i) : i ≤ line.length := by
  rcases h with rfl | ⟨c, hc, -⟩
  · exact Nat.zero_le _
  · have := (List.getElem?_eq_some_iff.mp hc).1
    omega

/-! ## What the scans find -/

theorem mem_qualifiedReferences_iff {line : List Char} {i : Nat} {n : QualifiedName} :
    (i, n) ∈ qualifiedReferences line ↔
      IsClean line i ∧ IsLongestStart IsQualifiedText (line.drop i) n.chars := by
  rw [qualifiedReferences, mem_scan_iff recogniseQualified?_inward, isStart_iff,
    ← QualifiedName.atStart?_eq_some_iff]
  constructor
  · rintro ⟨-, hclean, k, h⟩
    obtain ⟨m, hm, he⟩ := Option.map_eq_some_iff.mp h
    obtain ⟨rfl, -⟩ := Prod.mk.inj he
    exact ⟨hclean, hm⟩
  · rintro ⟨hclean, h⟩
    exact ⟨hclean.le_length, hclean, n.chars.length, congrArg _ h⟩

theorem mem_importedReferences_iff {meaning? : List Char → Option QualifiedName} {cs : List Char}
    {i : Nat} {n : QualifiedName} :
    (i, n) ∈ importedReferences meaning? cs ↔
      ∃ s, IsClean cs i ∧ IsLongestStart IsSimpleText (cs.drop i) s ∧
        (∀ c, cs[i + s.length]? = some c → isAlphanumeric c = false ∧ c ≠ '_') ∧
          meaning? s = some n := by
  have hwhole (s : List Char) :
      (!((cs.drop i).drop s.length).head?.any fun c => isAlphanumeric c || c == '_') = true ↔
        ∀ c, cs[i + s.length]? = some c → isAlphanumeric c = false ∧ c ≠ '_' := by
    rw [List.drop_drop, List.head?_drop]
    cases cs[i + s.length]? <;> simp
  simp only [importedReferences, List.mem_filterMap, Prod.exists]
  constructor
  · rintro ⟨j, s, whole, hmem, hs⟩
    obtain ⟨-, hclean, k, h⟩ := (mem_scan_iff recogniseSimple?_inward).mp hmem
    obtain ⟨s', hs', he⟩ := Option.map_eq_some_iff.mp h
    obtain ⟨⟨rfl, rfl⟩, -⟩ := Prod.mk.inj he |>.imp Prod.mk.inj id
    split at hs
    · next hflag =>
      obtain ⟨m, hm, he⟩ := Option.map_eq_some_iff.mp hs
      obtain ⟨rfl, rfl⟩ := Prod.mk.inj he
      exact ⟨s', isStart_iff.mp hclean, simpleNameAtStart?_eq_some_iff.mp hs', (hwhole s').mp hflag,
        hm⟩
    · cases hs
  · rintro ⟨s, hclean, hlongest, hflag, hm⟩
    refine ⟨i, s, true, (mem_scan_iff recogniseSimple?_inward).mpr
      ⟨hclean.le_length, isStart_iff.mpr hclean, s.length, ?_⟩, by simp [hm]⟩
    rw [recogniseSimple?, simpleNameAtStart?_eq_some_iff.mpr hlongest, Option.map_some,
      (hwhole s).mpr hflag]

/-- A qualified name begins with a lower-case letter or a digit. -/
theorem IsQualifiedText.exists_cons {t : List Char} (h : IsQualifiedText t) :
    ∃ c cs, t = c :: cs ∧ IsPackageChar c := by
  have hsegment {segment rest : List Char} (h : IsPackageText segment) :
      ∃ c cs, segment ++ rest = c :: cs ∧ IsPackageChar c := by
    obtain ⟨c, cs, rfl⟩ := List.exists_cons_of_ne_nil h.1
    exact ⟨c, cs ++ rest, rfl, h.2 c (.head cs)⟩
  cases h with
  | last hs _ => exact hsegment hs
  | more hs _ => exact hsegment hs

/-- No text begins with names of both kinds. -/
theorem IsLongestStart.not_simple {t p s : List Char} (hp : IsLongestStart IsQualifiedText t p) :
    ¬IsLongestStart IsSimpleText t s := by
  intro hs
  obtain ⟨c, cs, rfl, hc⟩ := hp.grammar.exists_cons
  obtain ⟨d, ds, rfl, hd, -⟩ := hs.grammar
  obtain ⟨rest, rfl⟩ := hp.start
  obtain ⟨rfl, -⟩ := List.cons_prefix_cons.mp hs.start
  have hnot := not_package_of_isUpper (isUpper_iff.mpr hd)
  rw [isSegmentChar_iff.mpr hc, Bool.true_or] at hnot
  cases hnot

namespace Occurrence.OccursIn

variable {meaning? : List Char → Option QualifiedName} {line : List Char} {x y : Occurrence}

theorem isClean (h : x.OccursIn meaning? line) : IsClean line x.start := by
  cases h <;> assumption

theorem text_prefix (h : x.OccursIn meaning? line) : x.text <+: line.drop x.start := by
  cases h with
  | qualified _ hlongest => exact hlongest.start
  | simple _ hlongest _ _ => exact hlongest.start

/-- No name begins behind a character of a name. -/
theorem isBoundary_of_mem_text (h : x.OccursIn meaning? line) {c : Char} (hc : c ∈ x.text) :
    isBoundary c = false := by
  cases h with
  | qualified _ _ => exact QualifiedName.isBoundary_of_mem_chars hc
  | simple _ hlongest _ _ =>
    have hs := isSimpleName_iff.mpr hlongest.grammar
    exact isBoundary_of_isAlphanum (isAlphanum_of_isSimpleName hs c hc)

/-- At one offset there is one occurrence. -/
theorem unique (hx : x.OccursIn meaning? line) (hy : y.OccursIn meaning? line)
    (h : x.start = y.start) : x = y := by
  cases hx with
  | qualified _ hp =>
    cases hy with
    | qualified _ hq =>
      obtain rfl := h
      rw [QualifiedName.ext_chars (hp.unique hq)]
    | simple _ hs _ _ =>
      obtain rfl := h
      exact absurd hs hp.not_simple
  | simple _ hs _ hm =>
    cases hy with
    | qualified _ hp =>
      obtain rfl := h
      exact absurd hs hp.not_simple
    | simple _ hs' _ hm' =>
      obtain rfl := h
      obtain rfl := hs.unique hs'
      obtain rfl := Option.some.inj (hm.symm.trans hm')
      rfl

/-- Behind an occurrence there is a character that is in no occurrence, before the next one
begins. -/
theorem end_lt_start (hx : x.OccursIn meaning? line) (hy : y.OccursIn meaning? line)
    (h : x.start < y.start) : x.start + x.text.length < y.start := by
  rcases hy.isClean with hzero | ⟨c, hc, hword, hdot⟩
  · omega
  · by_contra hlt
    obtain ⟨rest, hrest⟩ := hx.text_prefix
    -- The character in front of `y` would be a character of `x`.
    have hget : x.text[y.start - 1 - x.start]? = some c := by
      have hinside : y.start - 1 - x.start < x.text.length := by omega
      have hoffset : x.start + (y.start - 1 - x.start) = y.start - 1 := by omega
      rw [← List.getElem?_append_left hinside, hrest, List.getElem?_drop, hoffset, hc]
    have hnot := hx.isBoundary_of_mem_text (List.mem_of_getElem? hget)
    rw [isBoundary_iff.mpr ⟨hword, hdot⟩] at hnot
    cases hnot

end Occurrence.OccursIn

/-! ## The references of a line -/

/-- A name of one kind and a name of the other do not begin at one offset. -/
theorem offset_ne_offset {meaning? : List Char → Option QualifiedName} {line : List Char}
    {x y : Nat × QualifiedName} (hx : x ∈ qualifiedReferences line)
    (hy : y ∈ importedReferences meaning? line) : x.1 ≠ y.1 := by
  intro h
  obtain ⟨-, hp⟩ := mem_qualifiedReferences_iff.mp hx
  obtain ⟨s, -, hs, -⟩ := mem_importedReferences_iff.mp hy
  exact hp.not_simple (h ▸ hs)

theorem ascending_qualifiedReferences (line : List Char) : Ascending (qualifiedReferences line) :=
  pairwise_scan recogniseQualified?_inward line

theorem ascending_importedReferences (meaning? : List Char → Option QualifiedName)
    (line : List Char) : Ascending (importedReferences meaning? line) := by
  refine List.Pairwise.filterMap _ ?_ (pairwise_scan recogniseSimple?_inward line)
  have hfst : ∀ (m : Nat × List Char × Bool) (x : Nat × QualifiedName),
      (if m.2.2 then (meaning? m.2.1).map (m.1, ·) else none) = some x → x.1 = m.1 := by
    intro m x hx
    split at hx
    · obtain ⟨n, -, rfl⟩ := Option.map_eq_some_iff.mp hx
      rfl
    · cases hx
  intro m m' hlt x hx x' hx'
  rwa [hfst m x hx, hfst m' x' hx']

/-- The name that stands at an offset of the line, as it is written there. -/
def writtenAt (line : List Char) (i : Nat) : List Char :=
  match QualifiedName.atStart? (line.drop i) with
  | some n => n.chars
  | none => (simpleNameAtStart? (line.drop i)).getD []

/-- What stands in a line, in the order of the offsets. -/
def occurrences (meaning? : List Char → Option QualifiedName) (line : List Char) :
    List Occurrence :=
  ((qualifiedReferences line).merge (importedReferences meaning? line)
    fun x y => decide (x.1 ≤ y.1)).map fun (i, n) => ⟨i, writtenAt line i, n⟩

theorem Occurrence.OccursIn.writtenAt_start {meaning? : List Char → Option QualifiedName}
    {line : List Char} {x : Occurrence} (h : x.OccursIn meaning? line) :
    writtenAt line x.start = x.text := by
  cases h with
  | qualified _ hlongest => rw [writtenAt, QualifiedName.atStart?_eq_some_iff.mpr hlongest]
  | simple _ hlongest _ _ =>
    have hnone : QualifiedName.atStart? (line.drop _) = none :=
      Option.eq_none_iff_forall_ne_some.mpr fun n hn =>
        (QualifiedName.atStart?_eq_some_iff.mp hn).not_simple hlongest
    rw [writtenAt, hnone, simpleNameAtStart?_eq_some_iff.mpr hlongest, Option.getD_some]

theorem mem_occurrences {meaning? : List Char → Option QualifiedName} {line : List Char}
    {x : Occurrence} : x ∈ occurrences meaning? line ↔ x.OccursIn meaning? line := by
  have hfound (i : Nat) (n : QualifiedName) :
      ((i, n) ∈ qualifiedReferences line ∨ (i, n) ∈ importedReferences meaning? line) ↔
        ∃ text, Occurrence.OccursIn meaning? line ⟨i, text, n⟩ := by
    rw [mem_qualifiedReferences_iff, mem_importedReferences_iff]
    constructor
    · rintro (⟨hclean, hlongest⟩ | ⟨s, hclean, hlongest, hwhole, hmeaning⟩)
      · exact ⟨_, .qualified hclean hlongest⟩
      · exact ⟨s, .simple hclean hlongest hwhole hmeaning⟩
    · rintro ⟨text, h⟩
      cases h with
      | qualified hclean hlongest => exact .inl ⟨hclean, hlongest⟩
      | simple hclean hlongest hwhole hmeaning =>
        exact .inr ⟨_, hclean, hlongest, hwhole, hmeaning⟩
  simp only [occurrences, List.mem_map, List.mem_merge, Prod.exists, hfound]
  constructor
  · rintro ⟨i, n, ⟨text, h⟩, rfl⟩
    rwa [h.writtenAt_start]
  · intro h
    exact ⟨x.start, x.name, ⟨x.text, h⟩, by rw [h.writtenAt_start]⟩

theorem pairwise_occurrences (meaning? : List Char → Option QualifiedName) (line : List Char) :
    (occurrences meaning? line).Pairwise fun x y => x.start + x.text.length < y.start := by
  have hstart : (occurrences meaning? line).Pairwise fun x y => x.start < y.start := by
    refine List.pairwise_map.mpr ?_
    exact (ascending_qualifiedReferences line).merge (ascending_importedReferences meaning? line)
      fun x hx y hy => offset_ne_offset hx hy
  exact hstart.imp_of_mem fun hx hy h =>
    (mem_occurrences.mp hx).end_lt_start (mem_occurrences.mp hy) h

theorem referencesWith_eq_occurrences (meaning? : List Char → Option QualifiedName)
    (line : List Char) :
    referencesWith meaning? line =
      ((occurrences meaning? line).map (·.name)).filter fun n => !n.isReserved := by
  rw [referencesWith, inOffsetOrder, occurrences, List.map_map]
  rfl

/-- The references of a line are what stands in it, without the names that begin with `java`. -/
theorem references_eq_occurrences (table : ImportTable) (line : List Char) :
    references table line = ((occurrences table.imported? line).filter
      fun x => ¬"java".toList <+: x.name.chars).map (·.name) := by
  rw [references_eq_referencesWith, referencesWith_eq_occurrences, List.filter_map]
  refine congrArg (List.map _) (List.filter_congr fun x _ => ?_)
  have hreserved : x.name.isReserved = true ↔ "java".toList <+: x.name.chars :=
    QualifiedName.isReserved_iff
  simp only [Function.comp_apply, ← hreserved, Bool.not_eq_true, Bool.decide_eq_false]

/-- The merge of the two scans puts what they find in order, also before the first import. -/
theorem allReferences_eq_mergeSort (table : ImportTable) (line : List Char) :
    allReferences table line =
      (qualifiedReferences line ++ importedReferences table.imported? line).mergeSort
        fun x y => decide (x.1 ≤ y.1) := by
  rw [allReferences_eq_merge]
  exact (ascending_qualifiedReferences line).merge_eq_mergeSort
    (ascending_importedReferences table.imported? line) fun x hx y hy => offset_ne_offset hx hy

/-- The references of a line by position. They are what stands at the clean offsets of the line, in
the order of these, without the names that begin with `java`; nothing that stands there is lost. No
two occurrences overlap or begin at one offset. At every clean offset where one or more segments
with dots and a capital letter begin, the longest qualified name stands there, and its text reads as
this name; where a capital letter begins, there is a longest simple name. Before the first import,
when there is only one scan and nothing to put in order, the result is the same. -/
theorem references_by_position (table : ImportTable) (line : List Char) :
    ∃ found : List Occurrence,
      references table line =
          (found.filter fun x => ¬"java".toList <+: x.name.chars).map (·.name) ∧
        (∀ x, x ∈ found ↔ x.OccursIn table.imported? line) ∧
        (found.Pairwise fun x y => x.start + x.text.length < y.start) ∧
        (∀ i, IsClean line i → BeginsQualified (line.drop i) → ∃ x ∈ found, x.start = i ∧
          IsLongestStart IsQualifiedText (line.drop i) x.text ∧
            QualifiedName.parse? (String.ofList x.text) = some x.name) ∧
        (∀ i c, (line.drop i).head? = some c → 'A' ≤ c ∧ c ≤ 'Z' →
          ∃ s, IsLongestStart IsSimpleText (line.drop i) s) ∧
        found.map (fun x => (x.start, x.name)) =
          (qualifiedReferences line ++ importedReferences table.imported? line).mergeSort
            fun x y => decide (x.1 ≤ y.1) := by
  refine ⟨occurrences table.imported? line, references_eq_occurrences table line,
    fun x => mem_occurrences, pairwise_occurrences _ line, ?_, ?_, ?_⟩
  · intro i hclean hbegins
    obtain ⟨n, hn⟩ := hbegins.exists_isLongestStart
    exact ⟨⟨i, n.chars, n⟩, mem_occurrences.mpr (.qualified hclean hn), rfl, hn, n.parse?_text⟩
  · intro i c hc hupper
    obtain ⟨rest, hrest⟩ := List.head?_eq_some_iff.mp hc
    rw [hrest]
    exact exists_isLongestStart_simple hupper rest
  · rw [← allReferences_eq_mergeSort, allReferences_eq_merge, occurrences, List.map_map]
    exact List.map_id _

end ReferenceGraph
