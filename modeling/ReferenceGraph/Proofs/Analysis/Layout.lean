import ReferenceGraph.Proofs.Graph.Builder
import ReferenceGraph.Proofs.Source.Separator
import ReferenceGraph.Proofs.Text.Lines
import ReferenceGraph.Analysis.Extract

/-!
# The layout of the lines does not matter

A file that is wrapped anew, with spaces in place of some line feeds and line feeds in place of some
spaces, has other lines, other imports count in it, and its simple names may stand for something
else or for nothing. But imports add only repetitions, and what the qualified names of a file refer
to can be read from the whole text at once, because the ends of lines are separators there. So the
distinct references of the file stay the same, and so does what it adds to a graph.

* `textReferences`: the references of a file that is read as one line, which are those of its lines
  (`directReferences_sourceLines`).
* `Relaid`: a file and the same file wrapped anew. `Relaid.textReferences_append` goes through both
  byte by byte.
* `references_independent_of_layout`: the statement for every file that has a name.
-/

namespace ReferenceGraph

/-- The names that a file refers to when it is read as one line and nothing has been imported. -/
def textReferences (source : Bytes) : List QualifiedName := references ∅ (Utf8.decode source)

/-- The second file is the first with some of its line feeds replaced by spaces, and some of its
spaces by line feeds. -/
def Relaid (source source' : Bytes) : Prop :=
  List.Forall₂ (fun b b' => b' = b ∨ b = 0x0A ∧ b' = 0x20 ∨ b = 0x20 ∧ b' = 0x0A) source source'

/-! ## A file as one line -/

@[simp] theorem textReferences_nil : textReferences [] = [] := by
  decide +kernel

/-- A byte that stands for a boundary divides a file. -/
theorem textReferences_append_cons {b : UInt8} (hascii : b < 0x80)
    (hb : isBoundary (Char.ofNat b.toNat) = true) (xs ys : Bytes) :
    textReferences (xs ++ b :: ys) = textReferences xs ++ textReferences ys := by
  rw [textReferences, Utf8.decode_append_ascii hascii, references_append_cons hb]
  rfl

theorem textReferences_feed (xs ys : Bytes) :
    textReferences (xs ++ 0x0A :: ys) = textReferences xs ++ textReferences ys :=
  textReferences_append_cons (by decide) (by decide +kernel) xs ys

theorem textReferences_return (xs ys : Bytes) :
    textReferences (xs ++ 0x0D :: ys) = textReferences xs ++ textReferences ys :=
  textReferences_append_cons (by decide) (by decide +kernel) xs ys

theorem textReferences_space (xs ys : Bytes) :
    textReferences (xs ++ 0x20 :: ys) = textReferences xs ++ textReferences ys :=
  textReferences_append_cons (by decide) (by decide +kernel) xs ys

/-- The qualified names of the lines are those of the whole file. -/
theorem directReferences_sourceLines (source : Bytes) :
    directReferences (sourceLines source) = textReferences source := by
  rw [directReferences, sourceLines, List.flatMap_map]
  exact Lines.flatMap_split textReferences_nil textReferences_feed textReferences_return source

/-! ## A file wrapped anew -/

/-- Both files refer to the same names, also behind a common beginning. -/
theorem Relaid.textReferences_append {source source' : Bytes} (h : Relaid source source')
    (start : Bytes) : textReferences (start ++ source) = textReferences (start ++ source') := by
  induction h generalizing start with
  | nil => rfl
  | @cons b b' bs bs' hb _ ih =>
    rcases hb with rfl | ⟨rfl, rfl⟩ | ⟨rfl, rfl⟩
    · rw [List.append_cons, ih, ← List.append_cons]
    · rw [textReferences_feed, textReferences_space, ← List.nil_append bs, ih []]
      rfl
    · rw [textReferences_feed, textReferences_space, ← List.nil_append bs, ih []]
      rfl

theorem Relaid.eraseDups_referencesFrom {source source' : Bytes} (h : Relaid source source') :
    (referencesFrom ∅ (sourceLines source)).eraseDups =
      (referencesFrom ∅ (sourceLines source')).eraseDups := by
  rw [ReferenceGraph.eraseDups_referencesFrom, ReferenceGraph.eraseDups_referencesFrom,
    directReferences_sourceLines, directReferences_sourceLines]
  exact congrArg List.eraseDups (h.textReferences_append [])

/-- The dependencies of a file do not depend on the layout of its lines. Where line feeds have
become spaces and spaces line feeds, the file has the same distinct references in the same order,
and whatever has been collected before, it adds the same new edges to it in the same order, with
packages as well as with classes for nodes. -/
theorem references_independent_of_layout {relative : Path} {name : String}
    (hname : relative.dottedName? = some name) {source source' : Bytes}
    (h : Relaid source source') :
    ∃ s s', summarize relative source = .ok s ∧ summarize relative source' = .ok s' ∧
      s.name = name ∧ s'.name = name ∧
      s.references.eraseDups = s'.references.eraseDups ∧
      ∀ (kind kind' : Granularity) (es : List Edge),
        let b := ((Builder.empty kind').submitAll es).1
        b.submitAll (s.edges kind) = b.submitAll (s'.edges kind) := by
  have hrefs := h.eraseDups_referencesFrom
  refine ⟨_, _, by rw [summarize, hname], by rw [summarize, hname], rfl, rfl, hrefs,
    fun kind kind' es => ?_⟩
  obtain ⟨hb, -⟩ := (Builder.wellFormed_empty kind').submitAll es
  exact hb.submitAll_congr (eraseDups_map_congr _ hrefs)

/-- Two imports of one simple name on a line, and then its use. Wrapped anew, the second import
counts as well, and the simple name stands for another class; a carriage return and an ill-formed
byte end up inside a line. -/
theorem references_of_rewrapped_imports :
    let source := Utf8.encodeString "import x.D; import y.D;\nD d;\r\nz.Q" ++ 0xFF ::
      Utf8.encodeString " a.B"
    let source' := Utf8.encodeString "import x.D;\nimport y.D; D d;\r z.Q" ++ 0xFF ::
      Utf8.encodeString "\na.B"
    (Path.ofString "p/F.java").dottedName? = some "p.F" ∧ Relaid source source' ∧
      ∃ s s', summarize (Path.ofString "p/F.java") source = .ok s ∧
        summarize (Path.ofString "p/F.java") source' = .ok s' ∧
        s.references.eraseDups = s'.references.eraseDups ∧
        s.references.eraseDups.map (·.text) = ["x.D", "y.D", "z.Q", "a.B"] := by
  intro source source'
  have hname : (Path.ofString "p/F.java").dottedName? = some "p.F" := by decide +kernel
  have hrelaid : Relaid source source' := by
    unfold Relaid
    decide +kernel
  obtain ⟨s, s', hs, hs', -, -, hrefs, -⟩ := references_independent_of_layout hname hrelaid
  refine ⟨hname, hrelaid, s, s', hs, hs', hrefs, ?_⟩
  rw [summarize, hname] at hs
  obtain rfl := Except.ok.inj hs
  rw [ReferenceGraph.eraseDups_referencesFrom, directReferences_sourceLines]
  decide +kernel

end ReferenceGraph
