import Mathlib.Data.List.Basic
import ReferenceGraph.Proofs.Lists.Joined
import ReferenceGraph.Proofs.Text.Ascii
import ReferenceGraph.Source.Summary

/-!
# The lines of a decoded file

A file is split into lines as bytes, and each line is decoded by itself. It could as well be decoded
first and be split as text. An ASCII byte ends whatever sequence is under way, so it is never taken
into a character and never lost in an ill-formed part; and no other sequence makes its character. So
the lines of a file depend on nothing but its text.

* `Utf8.splitOn_decode`, `Utf8.decode_dropFinal`: cutting a text at the character of an ASCII byte,
  and taking it off the end of a text.
* `sourceLines_eq_split_decode`: the lines of the text.
* `lines_of_decoded_text`: the statement for every file.
-/

namespace ReferenceGraph

namespace Utf8

theorem decode_eq_nil_iff {bs : Bytes} : decode bs = [] ↔ bs = [] := by
  constructor
  · intro h
    by_contra hne
    exact decodeFrom_ne_nil (.inr hne) h
  · rintro rfl
    rfl

section Ascii

variable {a : UInt8}

theorem decode_intercalate_ascii (ha : a < 0x80) (pieces : List Bytes) :
    decode ([a].intercalate pieces) = [Char.ofNat a.toNat].intercalate (pieces.map decode) :=
  apply_intercalate rfl (fun xs ys => by
    rw [decode_append_ascii ha, List.append_assoc, List.singleton_append]) pieces

/-- The text is cut where the bytes are cut. -/
theorem splitOn_decode (ha : a < 0x80) (hzero : a ≠ 0) (bs : Bytes) :
    (decode bs).splitOn (Char.ofNat a.toNat) = (bs.splitOn a).map decode := by
  have hpieces : ∀ text ∈ (bs.splitOn a).map decode, Char.ofNat a.toNat ∉ text := by
    intro text htext hmem
    obtain ⟨piece, hpiece, rfl⟩ := List.mem_map.mp htext
    exact not_mem_of_mem_splitOn hpiece (mem_of_mem_decode ha hzero hmem)
  have hne : (bs.splitOn a).map decode ≠ [] := by simp [List.splitOn_ne_nil]
  calc (decode bs).splitOn (Char.ofNat a.toNat)
      = (decode ([a].intercalate (bs.splitOn a))).splitOn (Char.ofNat a.toNat) := by
        rw [List.intercalate_splitOn]
    _ = ([Char.ofNat a.toNat].intercalate ((bs.splitOn a).map decode)).splitOn
          (Char.ofNat a.toNat) := by rw [decode_intercalate_ascii ha]
    _ = (bs.splitOn a).map decode := List.splitOn_intercalate _ hpieces hne

/-- What a text ends in is there at the end of the bytes: a sequence that is cut short ends in a
replacement character. -/
theorem getLast?_of_getLast?_decodeFrom {s : State} (hs : s.Beyond) {bs : Bytes} (ha : a < 0x80)
    (hzero : a ≠ 0) (h : (decodeFrom s bs).getLast? = some (Char.ofNat a.toNat)) :
    bs.getLast? = some a := by
  induction bs generalizing s with
  | nil =>
    cases s with
    | boundary => cases h
    | inside => exact absurd (Option.some.inj h).symm (ofNat_ne_replacement ha)
  | cons b bs ih =>
    rw [decodeFrom] at h
    by_cases hrest : decodeFrom (step s b).2 bs = []
    · -- Nothing comes after what the byte yields, so it is the last one.
      have hbs : bs = [] := by
        by_contra hbs
        exact decodeFrom_ne_nil (.inr hbs) hrest
      rw [hrest, List.append_nil] at h
      rw [hbs, mem_of_mem_step hs ha hzero (List.mem_of_getLast? h)]
      rfl
    · rw [List.getLast?_append_of_ne_nil _ hrest] at h
      rw [List.getLast?_cons, ih (hs.step b) h]
      rfl

theorem decode_dropFinal (ha : a < 0x80) (hzero : a ≠ 0) (bs : Bytes) :
    decode (Lines.dropFinal a bs) = Lines.dropFinal (Char.ofNat a.toNat) (decode bs) := by
  by_cases h : bs.getLast? = some a
  · obtain ⟨xs, rfl⟩ := List.getLast?_eq_some_iff.mp h
    rw [Lines.dropFinal_append_self, decode_append_ascii ha, decode_nil,
      Lines.dropFinal_append_self]
  · have htext : (decode bs).getLast? ≠ some (Char.ofNat a.toNat) := fun hlast =>
      h (getLast?_of_getLast?_decodeFrom (s := .boundary) trivial ha hzero hlast)
    rw [Lines.dropFinal_of_getLast?_ne h, Lines.dropFinal_of_getLast?_ne htext]

end Ascii

end Utf8

theorem sourceLines_eq_split_decode (source : Bytes) :
    sourceLines source = Lines.split '\n' '\r' (Utf8.decode source) := by
  have hfeed : ∀ bs,
      Utf8.decode (Lines.dropFinal 0x0A bs) = Lines.dropFinal '\n' (Utf8.decode bs) :=
    Utf8.decode_dropFinal (by decide) (by decide)
  have hret : ∀ bs,
      Utf8.decode (Lines.dropFinal 0x0D bs) = Lines.dropFinal '\r' (Utf8.decode bs) :=
    Utf8.decode_dropFinal (by decide) (by decide)
  have hcut : ∀ bs, (Utf8.decode bs).splitOn '\n' = (bs.splitOn 0x0A).map Utf8.decode :=
    Utf8.splitOn_decode (a := 0x0A) (by decide) (by decide)
  unfold sourceLines Lines.split
  by_cases hnil : source = []
  · rw [if_pos hnil, if_pos (Utf8.decode_eq_nil_iff.mpr hnil), List.map_nil]
  · rw [if_neg hnil, if_neg (mt Utf8.decode_eq_nil_iff.mp hnil), ← hfeed, hcut, List.map_map,
      List.map_map]
    exact List.map_congr_left fun line _ => hret line

/-- A file can be split into lines and each line be decoded, or the file be decoded and its text be
split by the same rule. The line feeds of the text are those of the bytes, and between two of them
stands the text of what stands there in the bytes, so an ill-formed sequence or one that is cut
short takes no line feed away and makes none. What is read from a file depends on nothing but its
text. -/
theorem lines_of_decoded_text (source : Bytes) :
    sourceLines source = Lines.split '\n' '\r' (Utf8.decode source) ∧
      (Utf8.decode source).splitOn '\n' = (source.splitOn 0x0A).map Utf8.decode ∧
      ∀ other, Utf8.decode other = Utf8.decode source →
        sourceLines other = sourceLines source ∧
          ∀ p, summarize p other = summarize p source := by
  refine ⟨sourceLines_eq_split_decode source,
    Utf8.splitOn_decode (a := 0x0A) (by decide) (by decide) source, fun other htext => ?_⟩
  have hlines : sourceLines other = sourceLines source := by
    rw [sourceLines_eq_split_decode, sourceLines_eq_split_decode, htext]
  exact ⟨hlines, fun p => by rw [summarize, summarize, hlines]⟩

/-- A sequence that is cut short by the end of a line, and a byte that begins none. -/
theorem lines_of_cut_sequence :
    let source := [0x41, 0xE2, 0x82, 0x0D, 0x0A, 0x42]
    let other := [0x41, 0xFF, 0x0D, 0x0A, 0x42]
    sourceLines source = [['A', '\uFFFD'], ['B']] ∧ Utf8.decode other = Utf8.decode source ∧
      sourceLines other = sourceLines source ∧ ∀ p, summarize p other = summarize p source := by
  intro source other
  obtain ⟨hlines, -, hother⟩ := lines_of_decoded_text source
  refine ⟨hlines.trans (by decide), by decide, hother other (by decide)⟩

end ReferenceGraph
