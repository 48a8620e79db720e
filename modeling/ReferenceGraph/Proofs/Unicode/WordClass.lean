import ReferenceGraph.Unicode.Class

/-!
# Two notions of a word

In front of a name the word characters count, and behind a simple name those that continue it: the
alphanumeric characters and the low line. The two classes differ in both directions. Marks,
connectors and joiners are word characters and do not continue a name; numbers other than decimal
digits, and the characters of the later edition, continue a name and are no word characters.

* `CodeRange.apart`, `CodeRange.within`: two lists of ascending ranges are compared in one walk.
  `tables_compared` is all that is used of the tables.
* `isAttached_iff`, `isDetached_iff`: the characters in which the two classes differ, by category.
* `isWord_eq_continuesName_iff`: everywhere else they agree.
-/

namespace ReferenceGraph.Unicode

namespace CodeRange

/-- Whether no code point is in both lists of ranges. -/
def apart : List CodeRange → List CodeRange → Bool
  | [], _ => true
  | r :: rs, ss =>
    ((ss.dropWhile fun s => s.last < r.first).head?.all fun s => r.last < s.first) &&
      apart rs (ss.dropWhile fun s => s.last < r.first)

/-- Whether each of the first ranges lies within one of the second. -/
def within : List CodeRange → List CodeRange → Bool
  | [], _ => true
  | r :: rs, ss =>
    ((ss.dropWhile fun s => s.last < r.first).head?.any fun s =>
        decide (s.first ≤ r.first) && decide (r.last ≤ s.last)) &&
      within rs (ss.dropWhile fun s => s.last < r.first)

/-- Ranges that end too early do not matter. -/
theorem covers_dropWhile {ss : List CodeRange} {low n : Nat} (hlow : low ≤ n)
    (h : covers ss n = true) : covers (ss.dropWhile fun s => s.last < low) n = true := by
  induction ss with
  | nil => exact h
  | cons s ss ih =>
    rw [List.dropWhile_cons]
    split
    · next hs =>
      have hlast : ¬n ≤ s.last := by
        have := of_decide_eq_true hs
        omega
      simp only [covers, Bool.and_eq_true, Bool.or_eq_true, decide_eq_true_eq, hlast,
        false_or] at h
      exact ih h.2
    · exact h

/-- Nothing is covered below the first range. -/
theorem covers_eq_false_of_lt {ss : List CodeRange} {last n : Nat}
    (h : ss.head?.all (fun s => last < s.first) = true) (hn : n ≤ last) : covers ss n = false := by
  cases ss with
  | nil => rfl
  | cons s ss =>
    have hfirst : ¬s.first ≤ n := by
      have : last < s.first := by simpa using h
      omega
    simp [covers, hfirst]

theorem not_covers_of_apart {rs ss : List CodeRange} (h : apart rs ss = true) {n : Nat}
    (hn : covers rs n = true) : covers ss n = false := by
  induction rs generalizing ss with
  | nil => cases hn
  | cons r rs ih =>
    simp only [apart, Bool.and_eq_true] at h
    simp only [covers, Bool.and_eq_true, Bool.or_eq_true, decide_eq_true_eq] at hn
    obtain ⟨hfirst, hn⟩ := hn
    have hrest : covers (ss.dropWhile fun s => s.last < r.first) n = false := by
      rcases hn with hlast | hn
      · exact covers_eq_false_of_lt h.1 hlast
      · exact ih h.2 hn
    rw [← Bool.not_eq_true]
    intro hcovers
    rw [covers_dropWhile hfirst hcovers] at hrest
    cases hrest

theorem exists_of_within {rs ss : List CodeRange} (h : within rs ss = true) {r : CodeRange}
    (hr : r ∈ rs) : ∃ s ∈ ss, s.first ≤ r.first ∧ r.last ≤ s.last := by
  induction rs generalizing ss with
  | nil => cases hr
  | cons q rs ih =>
    simp only [within, Bool.and_eq_true] at h
    have hsub : (ss.dropWhile fun s => s.last < q.first) ⊆ ss := (List.dropWhile_suffix _).subset
    rcases List.mem_cons.mp hr with rfl | hr
    · obtain ⟨s, hs, hbounds⟩ := (Option.any_eq_true _ _).mp h.1
      rw [Bool.and_eq_true, decide_eq_true_eq, decide_eq_true_eq] at hbounds
      exact ⟨s, hsub (List.mem_of_head? hs), hbounds⟩
    · obtain ⟨s, hs, hbounds⟩ := ih h.2 hr
      exact ⟨s, hsub hs, hbounds⟩

theorem covers_of_within {rs ss : List CodeRange} {low low' : Nat} (h : within rs ss = true)
    (hrs : AscendingFrom low rs) (hss : AscendingFrom low' ss) {n : Nat}
    (hn : covers rs n = true) : covers ss n = true := by
  obtain ⟨r, hr, h1, h2⟩ := (covers_eq_true_iff hrs n).mp hn
  obtain ⟨s, hs, h3, h4⟩ := exists_of_within h hr
  exact (covers_eq_true_iff hss n).mpr ⟨s, hs, by omega, by omega⟩

end CodeRange

/-! ## The categories -/

/-- The range of the two joiners. -/
def joinerRanges : List CodeRange := [⟨0x200C, 0x200D⟩]

theorem isJoiner_eq_covers (c : Char) : isJoiner c = CodeRange.covers joinerRanges c.toNat := by
  have hchar (d : Char) : c = d ↔ c.toNat = d.toNat := Char.toNat_inj.symm
  have hfirst : '\u200C'.toNat = 0x200C := rfl
  have hlast : '\u200D'.toNat = 0x200D := rfl
  rw [Bool.eq_iff_iff]
  simp only [isJoiner, joinerRanges, CodeRange.covers, Bool.or_eq_true, Bool.and_eq_true,
    decide_eq_true_eq, hchar, hfirst, hlast, Bool.or_false]
  omega

/-- The tables of the word characters. -/
def wordRanges : List (List CodeRange) :=
  [alphabeticRanges, markRanges, decimalRanges, connectorRanges, joinerRanges]

theorem isWord_eq_any (c : Char) :
    isWord c = wordRanges.any fun rs => CodeRange.covers rs c.toNat := by
  simp [isWord, wordRanges, isAlphabetic, isMark, isDecimal, isConnector, isJoiner_eq_covers,
    Bool.or_assoc]

/-- All that is used of the tables, found by comparing them with each other. -/
theorem tables_compared :
    CodeRange.within decimalRanges numberRanges = true ∧
    (∀ rs ∈ [markRanges, connectorRanges, joinerRanges],
      CodeRange.apart rs numberRanges = true) ∧
    (∀ rs ∈ wordRanges, CodeRange.apart laterRanges rs = true) ∧
    ∀ rs ∈ numberRanges :: laterRanges :: wordRanges, CodeRange.apart blankRanges rs = true := by
  decide +kernel

theorem isNumber_of_isDecimal {c : Char} (h : isDecimal c = true) : isNumber c = true :=
  CodeRange.covers_of_within tables_compared.1 ascendingFrom_decimalRanges
    ascendingFrom_numberRanges h

/-- Numbers are in none of the categories that count as parts of words only. -/
theorem isNumber_of_covers {rs : List CodeRange}
    (hrs : rs ∈ [markRanges, connectorRanges, joinerRanges]) {c : Char}
    (h : CodeRange.covers rs c.toNat = true) : isNumber c = false :=
  CodeRange.not_covers_of_apart (tables_compared.2.1 rs hrs) h

theorem isNumber_of_isMark {c : Char} (h : isMark c = true) : isNumber c = false :=
  isNumber_of_covers (.head _) h

theorem isNumber_of_isConnector {c : Char} (h : isConnector c = true) : isNumber c = false :=
  isNumber_of_covers (.tail _ (.head _)) h

theorem isNumber_of_isJoiner {c : Char} (h : isJoiner c = true) : isNumber c = false :=
  isNumber_of_covers (.tail _ (.tail _ (.head _))) (isJoiner_eq_covers c ▸ h)

theorem isWord_of_apart {rs : List CodeRange}
    (hrs : ∀ ss ∈ wordRanges, CodeRange.apart rs ss = true) {c : Char}
    (h : CodeRange.covers rs c.toNat = true) : isWord c = false := by
  rw [isWord_eq_any, List.any_eq_false]
  intro ss hss
  rw [CodeRange.not_covers_of_apart (hrs ss hss) h]
  exact Bool.false_ne_true

/-- A character that the earlier edition does not know is no word character of it. -/
theorem isWord_of_isLater {c : Char} (h : isLater c = true) : isWord c = false :=
  isWord_of_apart tables_compared.2.2.1 h

theorem isWord_of_isBlank {c : Char} (h : isBlank c = true) : isWord c = false :=
  isWord_of_apart (fun ss hss => tables_compared.2.2.2 ss (.tail _ (.tail _ hss))) h

/-! ## Where the two classes differ -/

/-- Whether the character makes the simple name in front of it part of something else. -/
def continuesName (c : Char) : Bool := isAlphanumeric c || c == '_'

/-- Word characters that do not continue a name: the marks, connectors and joiners that are not
alphabetic, without the low line. -/
def isAttached (c : Char) : Bool :=
  (isMark c || isConnector c || isJoiner c) && !isAlphabetic c && c != '_'

/-- Characters that continue a name and are no word characters: the numbers that are neither
alphabetic nor decimal digits, and the characters of the later edition. -/
def isDetached (c : Char) : Bool :=
  isNumber c && !isDecimal c && !isAlphabetic c || isLater c

theorem isWord_lowLine : isWord '_' = true := by
  have hconnector : isConnector '_' = true := by decide
  simp [isWord, hconnector]

theorem isAttached_iff {c : Char} :
    isAttached c = true ↔ isWord c = true ∧ continuesName c = false := by
  have hlater : isWord c = true → isLater c = false := fun h => by
    rw [← Bool.not_eq_true]
    intro hl
    rw [isWord_of_isLater hl] at h
    cases h
  constructor
  · intro h
    simp only [isAttached, Bool.and_eq_true, Bool.or_eq_true, Bool.not_eq_true', bne_iff_ne] at h
    obtain ⟨⟨hkind, halphabetic⟩, hlow⟩ := h
    have hword : isWord c = true := by
      rcases hkind with (h | h) | h <;> simp [isWord, h]
    have hnumber : isNumber c = false := by
      rcases hkind with (h | h) | h
      · exact isNumber_of_isMark h
      · exact isNumber_of_isConnector h
      · exact isNumber_of_isJoiner h
    exact ⟨hword, by simp [continuesName, isAlphanumeric, halphabetic, hnumber, hlater hword, hlow]⟩
  · rintro ⟨hword, hcontinues⟩
    simp only [continuesName, isAlphanumeric, Bool.or_eq_false_iff, beq_eq_false_iff_ne]
      at hcontinues
    obtain ⟨⟨⟨halphabetic, hnumber⟩, -⟩, hlow⟩ := hcontinues
    have hdecimal : isDecimal c = false := by
      rw [← Bool.not_eq_true]
      intro h
      rw [isNumber_of_isDecimal h] at hnumber
      cases hnumber
    simp only [isWord, halphabetic, hdecimal, Bool.false_or, Bool.or_false] at hword
    simp [isAttached, hword, halphabetic, hlow]

theorem isDetached_iff {c : Char} :
    isDetached c = true ↔ isWord c = false ∧ continuesName c = true := by
  constructor
  · intro h
    rw [isDetached, Bool.or_eq_true] at h
    rcases h with h | h
    · simp only [Bool.and_eq_true, Bool.not_eq_true'] at h
      obtain ⟨⟨hnumber, hdecimal⟩, halphabetic⟩ := h
      have hother (p : Char → Bool) (hp : p c = true → isNumber c = false) : p c = false := by
        rw [← Bool.not_eq_true]
        intro h
        rw [hp h] at hnumber
        cases hnumber
      have hmark := hother isMark isNumber_of_isMark
      have hconnector := hother isConnector isNumber_of_isConnector
      have hjoiner := hother isJoiner isNumber_of_isJoiner
      refine ⟨?_, by simp [continuesName, isAlphanumeric, hnumber]⟩
      simp [isWord, halphabetic, hdecimal, hmark, hconnector, hjoiner]
    · exact ⟨isWord_of_isLater h, by simp [continuesName, isAlphanumeric, h]⟩
  · rintro ⟨hword, hcontinues⟩
    have hlow : c ≠ '_' := by
      rintro rfl
      rw [isWord_lowLine] at hword
      cases hword
    simp only [isWord, Bool.or_eq_false_iff] at hword
    obtain ⟨⟨⟨⟨halphabetic, -⟩, hdecimal⟩, -⟩, -⟩ := hword
    simp only [continuesName, isAlphanumeric, halphabetic, Bool.false_or,
      beq_eq_false_iff_ne.mpr hlow, Bool.or_false, Bool.or_eq_true] at hcontinues
    simpa [isDetached, halphabetic, hdecimal] using hcontinues

theorem continuesName_of_isBlank {c : Char} (h : isBlank c = true) : continuesName c = false := by
  have hnumber : isNumber c = false :=
    CodeRange.not_covers_of_apart (tables_compared.2.2.2 _ (.head _)) h
  have hlater : isLater c = false :=
    CodeRange.not_covers_of_apart (tables_compared.2.2.2 _ (.tail _ (.head _))) h
  rw [← Bool.not_eq_true]
  intro hname
  have hdetached := isDetached_iff.mpr ⟨isWord_of_isBlank h, hname⟩
  simp [isDetached, hnumber, hlater] at hdetached

/-- The two classes agree on all other characters. -/
theorem isWord_eq_continuesName_iff {c : Char} :
    isWord c = continuesName c ↔ isAttached c = false ∧ isDetached c = false := by
  rw [← Bool.not_eq_true, ← Bool.not_eq_true, isAttached_iff, isDetached_iff]
  cases isWord c <;> cases continuesName c <;> simp

end ReferenceGraph.Unicode
