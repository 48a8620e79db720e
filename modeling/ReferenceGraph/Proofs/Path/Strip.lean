import Mathlib.Data.List.DropRight
import ReferenceGraph.Proofs.Tree.Walk

/-!
# Taking a root away

The path of a listed file is the root continued by names, and a slash goes in between unless the
root ends in one. To get the names back, the root is compared with the path piece by piece: what
says nothing (an empty piece, a single dot) is skipped in both of them, but a path that begins at
the top or with a single dot is told apart from one that does not.

* `Path.strip?`: what is left of a path behind a root.
* `Path.splitOn_join`: the pieces of a joined path.
* `Path.strip?_join`: taking the root away from a joined path gives the names, however the root is
  spelled. `Path.strip?_self`: nothing is left of the root itself.
-/

namespace ReferenceGraph

namespace Path

/-- Whether the path begins with a single dot. -/
def beginsHere (p : Path) : Bool := (p.bytes.splitOn slash).head? = some FileName.here

/-- What is left of the pieces behind these names. Pieces that say nothing are skipped on the way to
a name. -/
def stripPieces : (pieces names : List FileName) → Option (List FileName)
  | pieces, [] => some pieces
  | [], _ :: _ => none
  | piece :: pieces, name :: names =>
    if isStay piece then stripPieces pieces (name :: names)
    else if piece = name then stripPieces pieces names
    else none

/-- The pieces without those at either end that say nothing. -/
def trim (pieces : List FileName) : List FileName := (pieces.dropWhile isStay).rdropWhile isStay

/-- What is left of the path behind the root, if the root is what the path begins with. The root of
a scan is not empty. -/
def strip? (p root : Path) : Option Path :=
  if p.isAbsolute = root.isAbsolute ∧ p.beginsHere = root.beginsHere then
    (stripPieces (p.bytes.splitOn slash) root.pieces).map fun rest => ofNames (trim rest)
  else none

/-! ## The pieces of a joined path -/

/-- The pieces of a joined path are those of the root and the names. Only an empty piece behind a
slash at the end of the root is not among them. -/
theorem splitOn_join (root : Path) {l : Location} (h : ∀ name ∈ l, name.IsEntryName)
    (hl : l ≠ []) :
    ∃ init ends, init ≠ [] ∧ (∀ piece ∈ ends, isStay piece = true) ∧
      root.bytes.splitOn slash = init ++ ends ∧
      (root.join l).bytes.splitOn slash = init ++ l := by
  by_cases hroot : root.endsInSlash = true
  · obtain ⟨bs, hbs⟩ := endsInSlash_iff.mp hroot
    refine ⟨bs.splitOn slash, [[]], List.splitOn_ne_nil _ _, by simp [isStay], ?_, ?_⟩
    · rw [hbs, List.splitOn_append_cons_self, List.splitOn_nil]
    · rw [join, if_pos hroot, hbs, List.append_nil, List.append_assoc, List.singleton_append,
        List.splitOn_append_cons_self, splitOn_ofNames h hl]
  · refine ⟨root.bytes.splitOn slash, [], List.splitOn_ne_nil _ _, by simp, by simp, ?_⟩
    rw [join, if_neg hroot, List.append_assoc, List.singleton_append,
      List.splitOn_append_cons_self, splitOn_ofNames h hl]

theorem beginsHere_join (root : Path) {l : Location} (h : ∀ name ∈ l, name.IsEntryName)
    (hl : l ≠ []) : (root.join l).beginsHere = root.beginsHere := by
  obtain ⟨init, ends, hinit, -, hroot, hjoin⟩ := root.splitOn_join h hl
  rw [beginsHere, beginsHere, hroot, hjoin, List.head?_append_of_ne_nil _ hinit,
    List.head?_append_of_ne_nil _ hinit]

/-! ## What is left -/

theorem pieces_eq_filter (p : Path) :
    p.pieces = (p.bytes.splitOn slash).filter fun s => !isStay s := by
  refine List.filter_congr fun s _ => ?_
  simp [isStay]

theorem filter_stays {ends : List FileName} (h : ∀ piece ∈ ends, isStay piece = true) :
    (ends.filter fun s => !isStay s) = [] :=
  List.filter_eq_nil_iff.mpr fun s hs => by simp [h s hs]

/-- Behind the names among some pieces there is what follows the pieces, and in front of it at most
pieces that say nothing. -/
theorem exists_stripPieces (init more : List FileName) :
    ∃ stays, (∀ piece ∈ stays, isStay piece = true) ∧
      stripPieces (init ++ more) (init.filter fun s => !isStay s) = some (stays ++ more) := by
  induction init with
  | nil => exact ⟨[], by simp, by simp [stripPieces]⟩
  | cons piece init ih =>
    obtain ⟨stays, hstays, hstrip⟩ := ih
    by_cases hpiece : isStay piece = true
    · rw [List.filter_cons_of_neg (by simp [hpiece]), List.cons_append]
      cases hnames : init.filter fun s => !isStay s with
      | nil =>
        -- The last name has been passed, so all that is left stays.
        refine ⟨piece :: init, fun s hs => ?_, by simp [stripPieces]⟩
        rcases List.mem_cons.mp hs with rfl | hs
        · exact hpiece
        · simpa using List.filter_eq_nil_iff.mp hnames s hs
      | cons name names =>
        refine ⟨stays, hstays, ?_⟩
        rw [stripPieces, if_pos hpiece, ← hnames, hstrip]
    · refine ⟨stays, hstays, ?_⟩
      rw [List.filter_cons_of_pos (by simpa using hpiece), List.cons_append, stripPieces,
        if_neg hpiece, if_pos rfl, hstrip]

/-- Names are left when the pieces that say nothing are taken away in front of them. -/
theorem trim_append {stays : List FileName} (hstays : ∀ piece ∈ stays, isStay piece = true)
    {l : Location} (h : ∀ name ∈ l, name.IsEntryName) (hl : l ≠ []) : trim (stays ++ l) = l := by
  obtain ⟨first, rest, hfirst⟩ := List.exists_cons_of_ne_nil hl
  have hdrop : (stays ++ l).dropWhile isStay = l := by
    rw [List.dropWhile_append_of_pos hstays, hfirst,
      List.dropWhile_cons_of_neg (h first (by simp [hfirst])).not_isStay]
  rw [trim, hdrop, List.rdropWhile_eq_self_iff]
  exact fun hne => (h _ (List.getLast_mem hne)).not_isStay

theorem trim_stays {stays : List FileName} (hstays : ∀ piece ∈ stays, isStay piece = true) :
    trim stays = [] := by
  have hdrop : stays.dropWhile isStay = [] := List.dropWhile_eq_nil_iff.mpr hstays
  rw [trim, hdrop, List.rdropWhile_nil]

/-- Taking the root away from a joined path gives the names, however the root is spelled. -/
theorem strip?_join {root : Path} (hroot : root.bytes ≠ []) {l : Location}
    (h : ∀ name ∈ l, name.IsEntryName) (hl : l ≠ []) :
    (root.join l).strip? root = some (.ofNames l) := by
  obtain ⟨init, ends, -, hends, hpieces, hjoin⟩ := root.splitOn_join h hl
  obtain ⟨stays, hstays, hstrip⟩ := exists_stripPieces init l
  have hnames : root.pieces = init.filter fun s => !isStay s := by
    rw [pieces_eq_filter, hpieces, List.filter_append, filter_stays hends, List.append_nil]
  rw [strip?, if_pos ⟨isAbsolute_join hroot l, beginsHere_join root h hl⟩, hjoin, hnames, hstrip,
    Option.map_some, trim_append hstays h hl]

/-- Nothing is left when a root is taken away from itself. -/
theorem strip?_self (root : Path) : root.strip? root = some ⟨[]⟩ := by
  obtain ⟨stays, hstays, hstrip⟩ := exists_stripPieces (root.bytes.splitOn slash) []
  rw [List.append_nil, List.append_nil, ← pieces_eq_filter] at hstrip
  rw [strip?, if_pos ⟨rfl, rfl⟩, hstrip, Option.map_some, trim_stays hstays]
  rfl

end Path

end ReferenceGraph
