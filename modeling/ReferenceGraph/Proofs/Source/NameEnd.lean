import ReferenceGraph.Proofs.Source.Position
import ReferenceGraph.Proofs.Unicode.WordClass

/-!
# Where a simple name ends

A simple name counts only as a whole word. In front of it the word characters decide, but behind it
the characters that continue a name do, and these are another class. So an imported simple name with
a combining mark behind it is taken although it is only a part of a word, and one with a raised
digit behind it is passed over although the word ends there.

* `ImportedAt`: an imported simple name stands at an offset of a line, at its full length.
* `ImportedAt.mem_occurrences_iff`: it is referred to unless it is continued.
* `simple_name_by_next_character`: for which characters behind it that is the same as being a whole
  word.
* `simple_names_not_whole_words`: it is not the same for all of them.
-/

namespace ReferenceGraph

open Unicode

/-- A simple name stands at the offset of the line, at its full length and behind a character that
is neither a word character nor a dot; and it has this meaning. -/
structure ImportedAt (meaning? : List Char → Option QualifiedName) (line : List Char) (i : Nat)
    (s : List Char) (n : QualifiedName) : Prop where
  clean : IsClean line i
  longest : IsLongestStart IsSimpleText (line.drop i) s
  meaning : meaning? s = some n

/-- No character of the class stands at the offset: the line ends there, or goes on with a character
outside of the class. -/
def NotFollowed (class? : Char → Bool) (cs : List Char) (i : Nat) : Prop :=
  ∀ c, cs[i]? = some c → class? c = false

theorem notFollowed_continuesName_iff {cs : List Char} {i : Nat} :
    NotFollowed continuesName cs i ↔
      ∀ c, cs[i]? = some c → isAlphanumeric c = false ∧ c ≠ '_' := by
  simp [NotFollowed, continuesName]

/-- Two classes of characters give the same answer at an offset exactly if they agree on the
character there. -/
theorem notFollowed_iff_iff {p q : Char → Bool} {cs : List Char} {i : Nat} :
    (NotFollowed p cs i ↔ NotFollowed q cs i) ↔ ∀ c, cs[i]? = some c → q c = p c := by
  unfold NotFollowed
  cases cs[i]? with
  | none => simp
  | some c =>
    simp only [Option.some.injEq, forall_eq']
    cases p c <;> cases q c <;> simp

/-- An imported simple name is referred to unless a character behind it continues it. -/
theorem ImportedAt.mem_occurrences_iff {meaning? : List Char → Option QualifiedName}
    {line : List Char} {i : Nat} {s : List Char} {n : QualifiedName}
    (h : ImportedAt meaning? line i s n) :
    ⟨i, s, n⟩ ∈ occurrences meaning? line ↔ NotFollowed continuesName line (i + s.length) := by
  rw [mem_occurrences, notFollowed_continuesName_iff]
  constructor
  · intro hoccurs
    cases hoccurs with
    | qualified _ hqualified => exact absurd h.longest hqualified.not_simple
    | simple _ _ hwhole _ => exact hwhole
  · intro hwhole
    exact .simple h.clean h.longest hwhole h.meaning

/-- The references of a line are what stands in it, from left to right and without the names that
begin with `java`. An imported simple name is among them exactly if no alphanumeric character and no
low line follows it. That is the same as being a whole word exactly if what follows is neither a
mark, connector or joiner that is not alphabetic, nor a number that is neither alphabetic nor a
decimal digit, nor a character of the later edition. In front of one of the former the name is
referred to, in front of one of the latter it is not. -/
theorem simple_name_by_next_character (table : ImportTable) (cs : List Char) :
    references table cs = ((occurrences table.imported? cs).filter
      fun x => ¬"java".toList <+: x.name.chars).map (·.name) ∧
    ((occurrences table.imported? cs).Pairwise
      fun x y => x.start + x.text.length < y.start) ∧
    ∀ i s n, ImportedAt table.imported? cs i s n →
      (⟨i, s, n⟩ ∈ occurrences table.imported? cs ↔
        NotFollowed continuesName cs (i + s.length)) ∧
      ((⟨i, s, n⟩ ∈ occurrences table.imported? cs ↔ NotFollowed isWord cs (i + s.length)) ↔
        NotFollowed isAttached cs (i + s.length) ∧
          NotFollowed isDetached cs (i + s.length)) ∧
      ∀ c, cs[i + s.length]? = some c →
        (isAttached c = true → ⟨i, s, n⟩ ∈ occurrences table.imported? cs) ∧
        (isDetached c = true → ⟨i, s, n⟩ ∉ occurrences table.imported? cs) := by
  refine ⟨references_eq_occurrences table cs, pairwise_occurrences _ cs,
    fun i s n h => ⟨h.mem_occurrences_iff, ?_, ?_⟩⟩
  · rw [h.mem_occurrences_iff, notFollowed_iff_iff]
    simp only [isWord_eq_continuesName_iff]
    exact ⟨fun h => ⟨fun c hc => (h c hc).1, fun c hc => (h c hc).2⟩,
      fun h c hc => ⟨h.1 c hc, h.2 c hc⟩⟩
  · intro c hc
    rw [h.mem_occurrences_iff, NotFollowed]
    simp only [hc, Option.some.injEq, forall_eq']
    constructor
    · exact fun hattached => (isAttached_iff.mp hattached).2
    · intro hdetached hcontinues
      rw [(isDetached_iff.mp hdetached).2] at hcontinues
      cases hcontinues

/-! ## A table with one import -/

/-- The name `com.acme.util.Clock`. -/
def clockName : QualifiedName where
  package := ["com".toList, "acme".toList, "util".toList]
  simple := "Clock".toList
  package_ne_nil := by decide
  isSegment_package := by decide
  isSimpleName_simple := by decide

/-- The table after the import of this name alone. -/
def clockTable : ImportTable := (∅ : ImportTable).insert clockName

theorem imported?_clockTable (s : List Char) :
    clockTable.imported? s = if clockName.simple = s then some clockName else none := by
  rw [clockTable, ImportTable.imported?_insert, ImportTable.imported?_empty]

/-- What a line refers to that holds no qualified name. -/
theorem references_clockTable {line : List Char} (hnone : qualifiedReferences line = []) :
    references clockTable line =
      (importedReferences (fun s => if clockName.simple = s then some clockName else none)
        line).map (·.2) := by
  have hmeaning : clockTable.imported? =
      fun s => if clockName.simple = s then some clockName else none :=
    funext imported?_clockTable
  have hreserved : ∀ x ∈ importedReferences
      (fun s => if clockName.simple = s then some clockName else none) line,
      x.2.isReserved = false := by
    intro x hx
    obtain ⟨s, hs⟩ := exists_meaning_of_mem hx
    split at hs
    · rw [← Option.some.inj hs]
      decide
    · cases hs
  rw [references_eq_referencesWith, hmeaning, referencesWith, inOffsetOrder, hnone,
    List.nil_merge, List.filter_eq_self]
  intro n hn
  obtain ⟨x, hx, rfl⟩ := List.mem_map.mp hn
  simp [hreserved x hx]

/-- `Clock` with a combining accent behind it is only a part of a word, and is referred to; with a
raised two behind it, it is a whole word, and is not. -/
theorem simple_names_not_whole_words :
    references clockTable ("Clock".toList ++ ['\u0301']) = [clockName] ∧
      isWord '\u0301' = true ∧
      references clockTable ("Clock".toList ++ ['²']) = [] ∧
      isWord '²' = false ∧
      ¬∀ (table : ImportTable) (line : List Char) (i : Nat) (s : List Char) (n : QualifiedName),
        ImportedAt table.imported? line i s n →
          (⟨i, s, n⟩ ∈ occurrences table.imported? line ↔
            NotFollowed isWord line (i + s.length)) := by
  have haccent : isWord '\u0301' = true := by decide
  refine ⟨?_, haccent, ?_, by decide, fun h => ?_⟩
  · rw [references_clockTable (by decide)]
    decide
  · rw [references_clockTable (by decide)]
    decide
  · have hstart : simpleNameAtStart? (("Clock".toList ++ ['\u0301']).drop 0) =
        some clockName.simple := by decide
    have himported : ImportedAt clockTable.imported? ("Clock".toList ++ ['\u0301']) 0
        clockName.simple clockName :=
      ⟨.inl rfl, simpleNameAtStart?_eq_some_iff.mp hstart, by simp [imported?_clockTable]⟩
    have hnext : ("Clock".toList ++ ['\u0301'])[0 + clockName.simple.length]? = some '\u0301' := by
      decide
    have hfound : ⟨0, clockName.simple, clockName⟩ ∈
        occurrences clockTable.imported? ("Clock".toList ++ ['\u0301']) := by
      rw [himported.mem_occurrences_iff]
      intro c hc
      rw [hnext] at hc
      cases hc
      decide
    have hword := (h _ _ _ _ _ himported).mp hfound '\u0301' hnext
    rw [haccent] at hword
    cases hword

end ReferenceGraph
