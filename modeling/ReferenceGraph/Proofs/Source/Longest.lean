import ReferenceGraph.Proofs.Source.Recognisers

/-!
# The longest name at the start of a text

A recogniser gives one name of those that a text begins with. It is the longest one of the grammar,
and there is one as soon as the text begins with any. The package of a name ends at the first
capital letter of the text, so two names that a text begins with differ only in how much of the
simple name they take, and the recogniser takes all of it.

* `IsLongestStart`: the longest text of a grammar that a text begins with. There is at most one
  (`IsLongestStart.unique`), and `isLongestStart_of_recogniser` says what makes a recogniser find
  it.
* `simpleNameAtStart?_eq_some_iff`, `QualifiedName.atStart?_eq_some_iff`: the two recognisers.
* `BeginsQualified`: how a text begins in which a qualified name is found, letter by letter.
-/

namespace ReferenceGraph

/-- The text `t` begins with `p`, which belongs to the grammar, and with no longer text of the
grammar. -/
structure IsLongestStart (Grammar : List Char → Prop) (t p : List Char) : Prop where
  start : p <+: t
  grammar : Grammar p
  longest : ∀ q, q <+: t → Grammar q → q.length ≤ p.length

theorem IsLongestStart.unique {Grammar : List Char → Prop} {t p q : List Char}
    (hp : IsLongestStart Grammar t p) (hq : IsLongestStart Grammar t q) : p = q := by
  have hle := hp.longest q hq.start hq.grammar
  have hge := hq.longest p hp.start hp.grammar
  exact (List.prefix_of_prefix_length_le hp.start hq.start hge).eq_of_length_le hle

/-- A recogniser finds the longest text of a grammar, if it finds only such texts, and if what it
finds in a text that begins with one begins with it too. -/
theorem isLongestStart_of_recogniser {Grammar : List Char → Prop}
    (recognise? : List Char → Option (List Char))
    (sound : ∀ t s, recognise? t = some s → s <+: t ∧ Grammar s)
    (reach : ∀ q rest, Grammar q → ∃ s, recognise? (q ++ rest) = some s ∧ q <+: s)
    {t s : List Char} : recognise? t = some s ↔ IsLongestStart Grammar t s := by
  constructor
  · intro h
    obtain ⟨hstart, hs⟩ := sound t s h
    refine ⟨hstart, hs, ?_⟩
    rintro q ⟨rest, rfl⟩ hq
    obtain ⟨s', hs', hle⟩ := reach q rest hq
    obtain rfl := Option.some.inj (h.symm.trans hs')
    exact hle.length_le
  · rintro ⟨⟨rest, rfl⟩, hs, hlongest⟩
    obtain ⟨s', hs', hle⟩ := reach s rest hs
    obtain ⟨hstart, hgrammar⟩ := sound _ s' hs'
    rw [hs', hle.eq_of_length_le (hlongest s' hstart hgrammar)]

/-! ## Simple names -/

theorem isSimpleName_append {s cs : List Char} (hs : isSimpleName s = true)
    (hcs : cs.all Char.isAlphanum = true) : isSimpleName (s ++ cs) = true := by
  cases s with
  | nil => cases hs
  | cons c s =>
    simp only [isSimpleName, List.cons_append, List.all_append, Bool.and_eq_true] at hs ⊢
    exact ⟨hs.1, hs.2, hcs⟩

/-- A simple name at the start of a text goes on with all letters and digits behind it. -/
theorem simpleNameAtStart?_append {s : List Char} (hs : isSimpleName s = true) (rest : List Char) :
    simpleNameAtStart? (s ++ rest) = some (s ++ rest.takeWhile Char.isAlphanum) := by
  have hrun : (s ++ rest).takeWhile Char.isAlphanum = s ++ rest.takeWhile Char.isAlphanum :=
    List.takeWhile_append_of_pos (isAlphanum_of_isSimpleName hs)
  rw [simpleNameAtStart?, hrun, if_pos (isSimpleName_append hs List.all_takeWhile)]

theorem simpleNameAtStart?_eq_some_iff {t s : List Char} :
    simpleNameAtStart? t = some s ↔ IsLongestStart IsSimpleText t s := by
  refine isLongestStart_of_recogniser simpleNameAtStart? (fun t s h => ?_) fun q rest hq => ?_
  · obtain ⟨rfl, hs⟩ := simpleNameAtStart?_eq_some h
    exact ⟨List.takeWhile_prefix _, isSimpleName_iff.mp hs⟩
  · exact ⟨_, simpleNameAtStart?_append (isSimpleName_iff.mpr hq) rest, List.prefix_append _ _⟩

/-- A text that begins with a capital letter begins with a simple name. -/
theorem exists_isLongestStart_simple {c : Char} (hc : 'A' ≤ c ∧ c ≤ 'Z') (rest : List Char) :
    ∃ s, IsLongestStart IsSimpleText (c :: rest) s := by
  have hs : isSimpleName [c] = true := by simp [isSimpleName, isUpper_iff.mpr hc]
  exact ⟨_, simpleNameAtStart?_eq_some_iff.mp (simpleNameAtStart?_append hs rest)⟩

/-! ## Qualified names -/

namespace QualifiedName

/-- The name with letters and digits put behind its simple name. -/
def extend (n : QualifiedName) (cs : List Char) (h : cs.all Char.isAlphanum = true) :
    QualifiedName where
  package := n.package
  simple := n.simple ++ cs
  package_ne_nil := n.package_ne_nil
  isSegment_package := n.isSegment_package
  isSimpleName_simple := isSimpleName_append n.isSimpleName_simple h

theorem chars_extend (n : QualifiedName) (cs : List Char) (h : cs.all Char.isAlphanum = true) :
    (n.extend cs h).chars = n.chars ++ cs := by
  rw [chars_eq, chars_eq]
  simp [extend]

/-- A name at the start of a text goes on with all letters and digits behind it. -/
theorem atStart?_append (n : QualifiedName) (rest : List Char) :
    atStart? (n.chars ++ rest) =
      some (n.extend (rest.takeWhile Char.isAlphanum) List.all_takeWhile) := by
  have hsplit : n.chars ++ rest =
      (n.extend (rest.takeWhile Char.isAlphanum) List.all_takeWhile).chars ++
        rest.dropWhile Char.isAlphanum := by
    rw [chars_extend, List.append_assoc, List.takeWhile_append_dropWhile]
  rw [hsplit]
  refine atStart?_chars_append _ fun c hc => ?_
  have hstop := List.head?_dropWhile_not Char.isAlphanum rest
  simpa [hc] using hstop

theorem atStart?_eq_some_iff {t : List Char} {n : QualifiedName} :
    atStart? t = some n ↔ IsLongestStart IsQualifiedText t n.chars := by
  have hchars : atStart? t = some n ↔ (atStart? t).map chars = some n.chars := by
    constructor
    · intro h
      rw [h, Option.map_some]
    · intro h
      obtain ⟨m, hm, hmn⟩ := Option.map_eq_some_iff.mp h
      rw [hm, ext_chars hmn]
  rw [hchars]
  apply isLongestStart_of_recogniser fun t => (atStart? t).map chars
  · intro t s h
    obtain ⟨m, hm, rfl⟩ := Option.map_eq_some_iff.mp h
    obtain ⟨rest, rfl⟩ := atStart?_eq_some hm
    exact ⟨List.prefix_append _ _, m.isQualifiedText_chars⟩
  · intro q rest hq
    obtain ⟨m, rfl⟩ := exists_chars_eq hq
    refine ⟨_, congrArg (Option.map chars) (m.atStart?_append rest), ?_⟩
    rw [chars_extend]
    exact List.prefix_append _ _

end QualifiedName

/-- The text begins with one or more segments of lower-case letters and digits, each with a dot
behind it, and then a capital letter. -/
def BeginsQualified (t : List Char) : Prop :=
  ∃ (segments : List (List Char)) (c : Char) (rest : List Char), segments ≠ [] ∧
    (∀ s ∈ segments, IsPackageText s) ∧ ('A' ≤ c ∧ c ≤ 'Z') ∧
      t = segments.flatMap (· ++ ['.']) ++ c :: rest

theorem flatMap_dot {segments : List (List Char)} (h : segments ≠ []) :
    segments.flatMap (· ++ ['.']) = ['.'].intercalate segments ++ ['.'] := by
  induction segments with
  | nil => exact absurd rfl h
  | cons s segments ih =>
    by_cases hs : segments = []
    · simp [hs]
    · rw [List.flatMap_cons, ih hs, List.intercalate_cons_of_ne_nil hs]
      simp only [List.append_assoc]

/-- A text that begins so begins with a qualified name. -/
theorem BeginsQualified.exists_isLongestStart {t : List Char} (h : BeginsQualified t) :
    ∃ n : QualifiedName, IsLongestStart IsQualifiedText t n.chars := by
  obtain ⟨segments, c, rest, hne, hsegments, hc, rfl⟩ := h
  have hpackage : segments.all isSegment = true :=
    List.all_eq_true.mpr fun s hs => isSegment_iff.mpr (hsegments s hs)
  have hsimple : isSimpleName [c] = true := by simp [isSimpleName, isUpper_iff.mpr hc]
  have hchars : segments.flatMap (· ++ ['.']) ++ c :: rest =
      (QualifiedName.mk segments [c] hne hpackage hsimple).chars ++ rest := by
    rw [flatMap_dot hne, QualifiedName.chars_eq]
    simp
  rw [hchars]
  exact ⟨_, QualifiedName.atStart?_eq_some_iff.mp (QualifiedName.atStart?_append _ rest)⟩

end ReferenceGraph
