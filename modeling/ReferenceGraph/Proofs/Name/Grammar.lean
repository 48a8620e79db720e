import ReferenceGraph.Name.Qualified
import ReferenceGraph.Proofs.Lists.Joined

/-!
# The grammar of qualified names

A qualified name is written piece by piece: one or more segments of lower-case letters and digits,
a dot behind each of them, and a simple name at the end. The grammar says this of texts, with the
ranges of the characters and without cutting a text at its dots. A text is read as a name exactly
if it belongs to the grammar.

* `IsQualifiedText`: the grammar. `QualifiedName.isQualifiedText_chars` says that names are written
  in it, by induction on the package.
* `QualifiedName.ofChars?_eq_some_iff`: a text is read as the name that is written so.
* `QualifiedName.isSome_parse?_iff`: the texts that are read as names.
-/

namespace ReferenceGraph

/-- A character of a package: `[a-z0-9]`. -/
def IsPackageChar (c : Char) : Prop := 'a' ≤ c ∧ c ≤ 'z' ∨ '0' ≤ c ∧ c ≤ '9'

/-- A character behind the first one of a simple name: `[A-Za-z0-9]`. -/
def IsSimpleChar (c : Char) : Prop := 'A' ≤ c ∧ c ≤ 'Z' ∨ IsPackageChar c

/-- A segment of a package: `[a-z0-9]+`. -/
def IsPackageText (s : List Char) : Prop := s ≠ [] ∧ ∀ c ∈ s, IsPackageChar c

/-- A simple name: `[A-Z][A-Za-z0-9]*`. -/
def IsSimpleText (s : List Char) : Prop :=
  ∃ c cs, s = c :: cs ∧ ('A' ≤ c ∧ c ≤ 'Z') ∧ ∀ d ∈ cs, IsSimpleChar d

/-- A qualified name: one or more segments with a dot behind each, and then a simple name. -/
inductive IsQualifiedText : List Char → Prop
  | last {segment simple : List Char} (hsegment : IsPackageText segment)
    (hsimple : IsSimpleText simple) : IsQualifiedText (segment ++ '.' :: simple)
  | more {segment text : List Char} (hsegment : IsPackageText segment)
    (htext : IsQualifiedText text) : IsQualifiedText (segment ++ '.' :: text)

theorem isUpper_iff {c : Char} : c.isUpper = true ↔ 'A' ≤ c ∧ c ≤ 'Z' := decide_eq_true_iff

theorem isSegmentChar_iff {c : Char} : isSegmentChar c = true ↔ IsPackageChar c := by
  show (decide ('a' ≤ c) && decide (c ≤ 'z') || decide ('0' ≤ c) && decide (c ≤ '9')) = true ↔ _
  simp only [Bool.or_eq_true, Bool.and_eq_true, decide_eq_true_eq, IsPackageChar]

/-- No capital letter belongs to a package or to what separates its segments. -/
theorem not_package_of_isUpper {c : Char} (h : c.isUpper = true) :
    (isSegmentChar c || c == '.') = false := by
  obtain ⟨h1, h2⟩ := isUpper_iff.mp h
  rw [Bool.or_eq_false_iff]
  constructor
  · rw [← Bool.not_eq_true, isSegmentChar_iff, IsPackageChar]
    simp only [Char.le_def, UInt32.le_iff_toNat_le] at h1 h2 ⊢
    have : 'Z'.val.toNat = 90 := rfl
    have : 'A'.val.toNat = 65 := rfl
    have : 'a'.val.toNat = 97 := rfl
    have : '9'.val.toNat = 57 := rfl
    omega
  · rw [beq_eq_false_iff_ne]
    rintro rfl
    exact absurd h1 (by decide)

theorem isAlphanum_iff_isSimpleChar {c : Char} : c.isAlphanum = true ↔ IsSimpleChar c := by
  have h : c.isAlphanum = (c.isUpper || isSegmentChar c) := Bool.or_assoc _ _ _
  rw [h, Bool.or_eq_true, isUpper_iff, isSegmentChar_iff, IsSimpleChar]

theorem isSegment_iff {s : List Char} : isSegment s = true ↔ IsPackageText s := by
  simp [isSegment, IsPackageText, isSegmentChar_iff]

theorem isSimpleName_iff {s : List Char} : isSimpleName s = true ↔ IsSimpleText s := by
  cases s with
  | nil => simp [isSimpleName, IsSimpleText]
  | cons c cs =>
    simp only [isSimpleName, IsSimpleText, Bool.and_eq_true, List.all_eq_true, isUpper_iff,
      isAlphanum_iff_isSimpleChar]
    constructor
    · intro h
      exact ⟨c, cs, rfl, h⟩
    · rintro ⟨d, ds, heq, h⟩
      obtain ⟨rfl, rfl⟩ := List.cons.inj heq
      exact h

namespace QualifiedName

/-- A text is read as the name that is written so, or not at all. -/
theorem ofChars?_eq_some_iff {t : List Char} {n : QualifiedName} :
    ofChars? t = some n ↔ n.chars = t := by
  constructor
  · intro h
    obtain ⟨hp, hs⟩ := ofParts?_eq_some_iff.mp h
    have hne := List.splitOn_ne_nil '.' t
    rw [List.getLast?_eq_some_getLast hne, Option.getD_some] at hs
    rw [chars, segments, hp, hs, List.dropLast_concat_getLast, List.intercalate_splitOn]
  · rintro rfl
    exact ofChars?_chars n

theorem isPackageText_of_mem_package (n : QualifiedName) {s : List Char} (h : s ∈ n.package) :
    IsPackageText s :=
  isSegment_iff.mp (List.all_eq_true.mp n.isSegment_package s h)

theorem isReserved_iff {n : QualifiedName} : n.isReserved = true ↔ reservedStem <+: n.chars :=
  List.isPrefixOf_iff_prefix

theorem parse?_eq_some_iff {t : String} {n : QualifiedName} : parse? t = some n ↔ n.text = t := by
  rw [parse?, ofChars?_eq_some_iff, text]
  constructor
  · intro h
    rw [h, String.ofList_toList]
  · rintro rfl
    rw [String.toList_ofList]

theorem chars_of_package_cons {segment : List Char} {package : List (List Char)} {n : QualifiedName}
    (h : n.package = segment :: package) :
    n.chars = segment ++ '.' :: ['.'].intercalate (package ++ [n.simple]) := by
  rw [chars, segments, h, List.cons_append, List.intercalate_cons_of_ne_nil (by simp)]
  simp

/-- Names are written in the grammar. -/
theorem isQualifiedText_chars (n : QualifiedName) : IsQualifiedText n.chars := by
  obtain ⟨package, simple, hne, hpackage, hsimple⟩ := n
  induction package with
  | nil => exact absurd rfl hne
  | cons segment package ih =>
    rw [List.all_cons, Bool.and_eq_true] at hpackage
    have hsegment := isSegment_iff.mp hpackage.1
    rw [chars_of_package_cons rfl]
    by_cases hmore : package = []
    · subst hmore
      rw [List.nil_append, List.intercalate_singleton]
      exact .last hsegment (isSimpleName_iff.mp hsimple)
    · exact .more hsegment (ih hmore hpackage.2)

/-- What is written in the grammar is a name. -/
theorem exists_chars_eq {t : List Char} (h : IsQualifiedText t) : ∃ n, chars n = t := by
  induction h with
  | @last segment simple hsegment hsimple =>
    refine ⟨⟨[segment], simple, by simp, ?_, isSimpleName_iff.mpr hsimple⟩, ?_⟩
    · simpa using isSegment_iff.mpr hsegment
    · rw [chars_of_package_cons rfl]
      simp
  | @more segment text hsegment _ ih =>
    obtain ⟨n, rfl⟩ := ih
    refine ⟨⟨segment :: n.package, n.simple, by simp, ?_, n.isSimpleName_simple⟩, ?_⟩
    · simp [isSegment_iff.mpr hsegment, n.isSegment_package]
    · rw [chars_of_package_cons rfl]
      rfl

/-- The texts that are read as names are those of the grammar. -/
theorem isSome_parse?_iff {t : String} : (parse? t).isSome = true ↔ IsQualifiedText t.toList := by
  simp only [parse?, Option.isSome_iff_exists, ofChars?_eq_some_iff]
  generalize t.toList = t
  constructor
  · rintro ⟨n, rfl⟩
    exact n.isQualifiedText_chars
  · exact exists_chars_eq

end QualifiedName

end ReferenceGraph
