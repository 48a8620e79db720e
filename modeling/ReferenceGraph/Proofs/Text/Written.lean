import ReferenceGraph.Proofs.Text.Lines
import ReferenceGraph.Source.Summary

/-!
# Writing lines

Lines are written into a file one after the other, each with a line feed behind it or with a
carriage return and a line feed, and reading the file gives the lines back, whatever the mix. The
end of the last line may be left out, unless the line is empty: an empty line without an end is no
line.

Where no line feed of a file has a carriage return in front of it, the file is written with line
feeds alone, up to a rest behind the last one. So a carriage return may be put in front of each line
feed, and the lines stay the same.

* `Line`: a line and its end. What a line holds cannot be taken for an end of a line.
* `Line.sourceLines_append`: the step, one line in front of what follows.
  `sourceLines_written_append` is the run.
* `exists_written`: a file as written lines and a rest.
* `lines_of_written`: the statement for all lines and all ends.
-/

namespace ReferenceGraph

/-- What stands behind a line. -/
inductive LineEnd where
  | feed
  | returnFeed
deriving DecidableEq, Repr

/-- The bytes of the end of a line. -/
def LineEnd.bytes : LineEnd → Bytes
  | feed => [0x0A]
  | returnFeed => [0x0D, 0x0A]

/-- A line and its end. The content neither holds a line feed nor ends in a carriage return, which
would count as part of the end. -/
structure Line where
  content : Bytes
  ending : LineEnd
  feed_not_mem : 0x0A ∉ content
  getLast?_ne_return : content.getLast? ≠ some 0x0D

/-- The bytes of the line, its end included. -/
def Line.bytes (l : Line) : Bytes := l.content ++ l.ending.bytes

/-- The file that the lines make, one after the other. -/
def written (lines : List Line) : Bytes := lines.flatMap Line.bytes

/-- The file with a carriage return in front of each line feed. -/
def withReturns (source : Bytes) : Bytes :=
  source.flatMap fun b => if b = 0x0A then LineEnd.returnFeed.bytes else [b]

/-! ## One line -/

theorem Lines.split_append_cons_feed {α : Type} [DecidableEq α] {feed ret : α} {line : List α}
    (h : feed ∉ line) (rest : List α) :
    split feed ret (line ++ feed :: rest) = dropFinal ret line :: split feed ret rest := by
  have hline : split feed ret (line ++ [feed]) = [dropFinal ret line] := by
    rw [split_append_feed, List.splitOn_eq_singleton h, List.map_singleton]
  by_cases hrest : rest = []
  · rw [hrest, hline, split_nil]
  · rw [split_append_feed_append line hrest, hline, List.singleton_append]

namespace Line

/-- Either end of a line is taken off, and nothing else. -/
theorem sourceLines_append (l : Line) (rest : Bytes) :
    sourceLines (l.bytes ++ rest) = Utf8.decode l.content :: sourceLines rest := by
  obtain ⟨content, ending, hfeed, hret⟩ := l
  cases ending with
  | feed =>
    show sourceLines (content ++ [0x0A] ++ rest) = _
    rw [List.append_assoc, List.singleton_append, sourceLines, Lines.split_append_cons_feed hfeed,
      Lines.dropFinal_of_getLast?_ne hret, List.map_cons, sourceLines]
  | returnFeed =>
    have hfeed' : 0x0A ∉ content ++ [0x0D] := by simpa using hfeed
    show sourceLines (content ++ [0x0D, 0x0A] ++ rest) = _
    rw [List.append_assoc, List.cons_append, List.singleton_append, List.append_cons, sourceLines,
      Lines.split_append_cons_feed hfeed', Lines.dropFinal_append_self, List.map_cons, sourceLines]

/-- A line without an end is still a line if it is not empty. -/
theorem sourceLines_content (l : Line) (h : l.content ≠ []) :
    sourceLines l.content = [Utf8.decode l.content] := by
  have hlast : l.content.getLast? ≠ some 0x0A := fun hlast =>
    l.feed_not_mem (List.mem_of_getLast? hlast)
  rw [sourceLines, Lines.split, if_neg h, Lines.dropFinal_of_getLast?_ne hlast,
    List.splitOn_eq_singleton l.feed_not_mem, List.map_singleton,
    Lines.dropFinal_of_getLast?_ne l.getLast?_ne_return, List.map_singleton]

end Line

/-! ## Many lines -/

theorem sourceLines_written_append (lines : List Line) (rest : Bytes) :
    sourceLines (written lines ++ rest) =
      lines.map (fun l => Utf8.decode l.content) ++ sourceLines rest := by
  induction lines with
  | nil => rfl
  | cons l lines ih =>
    rw [written, List.flatMap_cons, List.append_assoc, l.sourceLines_append, ← written, ih,
      List.map_cons, List.cons_append]

/-- A file in which no carriage return stands in front of a line feed is written with line feeds, up
to the last one. -/
theorem exists_written {source : Bytes} (h : ¬[0x0D, 0x0A] <:+: source) :
    ∃ lines rest, source = written lines ++ rest ∧ (∀ l ∈ lines, l.ending = .feed) ∧
      0x0A ∉ rest := by
  induction source with
  | nil => exact ⟨[], [], rfl, by simp, by simp⟩
  | cons b source ih =>
    obtain ⟨lines, rest, rfl, hends, hrest⟩ := ih fun hpair =>
      h (hpair.trans (List.suffix_cons b source).isInfix)
    by_cases hb : b = 0x0A
    · subst hb
      exact ⟨⟨[], .feed, by simp, by simp⟩ :: lines, rest, rfl, by simpa using hends, hrest⟩
    · have hb' : 0x0A ≠ b := fun heq => hb heq.symm
      cases lines with
      | nil => exact ⟨[], b :: rest, rfl, by simp, by simp [hb', hrest]⟩
      | cons l lines =>
        obtain ⟨content, ending, hfeed, hret⟩ := l
        obtain rfl : ending = .feed := hends _ List.mem_cons_self
        have hret' : (b :: content).getLast? ≠ some 0x0D := by
          by_cases hnil : content = []
          · -- The line is empty so far, so the byte stands in front of the line feed.
            subst hnil
            intro hlast
            obtain rfl : b = 0x0D := Option.some.inj hlast
            exact h ⟨[], written lines ++ rest, rfl⟩
          · rwa [List.getLast?_cons_of_ne_nil hnil]
        refine ⟨⟨b :: content, .feed, by simp [hb', hfeed], hret'⟩ :: lines, rest, rfl, ?_, hrest⟩
        simpa using hends

/-! ## Carriage returns -/

theorem withReturns_append (xs ys : Bytes) :
    withReturns (xs ++ ys) = withReturns xs ++ withReturns ys := List.flatMap_append

theorem withReturns_of_not_mem {bs : Bytes} (h : 0x0A ∉ bs) : withReturns bs = bs := by
  induction bs with
  | nil => rfl
  | cons b bs ih =>
    obtain ⟨hb, hbs⟩ := not_or.mp (mt List.mem_cons.mpr h)
    rw [withReturns, List.flatMap_cons, if_neg (Ne.symm hb), ← withReturns, ih hbs,
      List.singleton_append]

/-- Carriage returns in front of the line feeds give the lines their other end. -/
theorem withReturns_written {lines : List Line} (h : ∀ l ∈ lines, l.ending = .feed) :
    withReturns (written lines) =
      written (lines.map fun l => { l with ending := .returnFeed }) := by
  induction lines with
  | nil => rfl
  | cons l lines ih =>
    obtain ⟨hl, hlines⟩ := List.forall_mem_cons.mp h
    rw [List.map_cons, written, written, List.flatMap_cons, List.flatMap_cons, ← written, ← written,
      ← ih hlines, withReturns_append, Line.bytes, Line.bytes, hl, withReturns_append,
      withReturns_of_not_mem l.feed_not_mem]
    rfl

theorem sourceLines_withReturns {source : Bytes} (h : ¬[0x0D, 0x0A] <:+: source) :
    sourceLines (withReturns source) = sourceLines source := by
  obtain ⟨lines, rest, rfl, hends, hrest⟩ := exists_written h
  rw [withReturns_append, withReturns_written hends, withReturns_of_not_mem hrest,
    sourceLines_written_append, sourceLines_written_append, List.map_map]
  rfl

/-- Reading a file that was written line by line gives the text of each of its lines, in their order
and with the empty ones, whichever end each of them has. The last line may have none, if it is not
empty. And a file in which no line feed has a carriage return in front of it says the same when
every line feed is given one: its lines are the same, and so is all that is read from it. -/
theorem lines_of_written :
    (∀ lines : List Line,
      sourceLines (written lines) = lines.map (fun l => Utf8.decode l.content) ∧
        ∀ last : Line, last.content ≠ [] →
          sourceLines (written lines ++ last.content) =
            (lines ++ [last]).map fun l => Utf8.decode l.content) ∧
      ∀ source : Bytes, ¬[0x0D, 0x0A] <:+: source →
        sourceLines (withReturns source) = sourceLines source ∧
          ∀ p, summarize p (withReturns source) = summarize p source := by
  refine ⟨fun lines => ⟨?_, fun last hlast => ?_⟩, fun source hsource => ?_⟩
  · have h := sourceLines_written_append lines []
    rwa [List.append_nil, show sourceLines [] = [] from rfl, List.append_nil] at h
  · rw [sourceLines_written_append, last.sourceLines_content hlast, List.map_append,
      List.map_singleton]
  · have hlines := sourceLines_withReturns hsource
    exact ⟨hlines, fun p => by rw [summarize, summarize, hlines]⟩

/-- A line with a carriage return in it, an empty one, and one whose end may be left out. -/
def mixedLines : List Line := [
  ⟨[0x41, 0x0D, 0x42], .returnFeed, by decide, by decide⟩,
  ⟨[], .feed, by decide, by decide⟩,
  ⟨[0xFF], .returnFeed, by decide, by decide⟩]

/-- Lines with different ends, and a file that ends in a carriage return. -/
theorem lines_of_mixed_ends :
    written mixedLines = [0x41, 0x0D, 0x42, 0x0D, 0x0A, 0x0A, 0xFF, 0x0D, 0x0A] ∧
      sourceLines (written mixedLines) = [['A', '\r', 'B'], [], ['\uFFFD']] ∧
      sourceLines (written mixedLines ++ [0x43]) = [['A', '\r', 'B'], [], ['\uFFFD'], ['C']] ∧
      sourceLines [0x41, 0x0D, 0x42, 0x0D, 0x0A, 0x43, 0x0D] =
        sourceLines [0x41, 0x0D, 0x42, 0x0A, 0x43, 0x0D] := by
  obtain ⟨hwritten, hreturns⟩ := lines_of_written
  obtain ⟨hlines, hlast⟩ := hwritten mixedLines
  refine ⟨rfl, hlines.trans (by decide), ?_, ?_⟩
  · exact (hlast ⟨[0x43], .feed, by decide, by decide⟩ (by decide)).trans (by decide)
  · exact (hreturns [0x41, 0x0D, 0x42, 0x0A, 0x43, 0x0D] (by decide)).1

end ReferenceGraph
