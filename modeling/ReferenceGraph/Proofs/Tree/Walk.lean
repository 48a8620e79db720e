import ReferenceGraph.Proofs.Lists.Joined
import ReferenceGraph.Proofs.Tree.WellFormed
import ReferenceGraph.Tree.Access

/-!
# The ways of paths

A path that joins a root with some names first goes the way of the root, and then from directory to
directory through these names. So it does not matter how the root is spelled and how many links lead
to it: below it, the names lead to what the tree has there.

* `walk_stay`, `walk_above`, `walk_link`, `walk_keep`, `walk_entry`, `walk_vacant`, `walk_missing`:
  what one step does.
* `walk_append`: a way is gone on with from where it ends.
* `walk_names`: the way through directories.
* `FileTree.resolve_join`, `FileTree.resolve_ofNames`: where a joined path leads, and a path of
  names.
-/

namespace ReferenceGraph

/-! ## One step -/

section Step

variable {top : Entry} {purpose : Purpose} {links : Nat} {location : Location}
  {es : List (FileName × Entry)} {name : FileName} {rest : List FileName}

theorem FileName.IsEntryName.not_isStay (h : name.IsEntryName) : ¬isStay name = true := by
  simp [isStay, h.ne_nil, h.ne_here]

theorem walk_stay (hdir : top.at? location = some (.dir es)) (hstay : isStay name = true) :
    walk top purpose links location (name :: rest) = walk top purpose links location rest := by
  rw [walk, hdir]
  exact if_pos hstay

theorem walk_above (hdir : top.at? location = some (.dir es)) :
    walk top purpose links location (FileName.above :: rest) =
      walk top purpose links location.dropLast rest := by
  have hstay : ¬isStay FileName.above = true := by decide
  rw [walk, hdir]
  simp only [if_neg hstay, if_true]

/-- A link is replaced by the steps of its target, unless it stands at the end and is to be kept. -/
theorem walk_link (hdir : top.at? location = some (.dir es)) (hstay : ¬isStay name = true)
    (habove : name ≠ FileName.above) (hslash : ¬(purpose = .create ∧ rest = [[]]))
    (hkeep : ¬(purpose = .keep ∧ rest = [])) {target : Path}
    (hlink : es.lookup name = some (.link target)) (htarget : target.bytes ≠ []) :
    walk top purpose (links + 1) location (name :: rest) =
      walk top purpose links (if target.isAbsolute then [] else location)
        (target.steps ++ rest) := by
  rw [walk, hdir]
  simp only [if_neg hstay, if_neg habove, if_neg hslash, hlink, if_neg hkeep, if_neg htarget]

/-- A link at the end is kept, if links are not to be followed to the end. -/
theorem walk_keep (hdir : top.at? location = some (.dir es)) (hstay : ¬isStay name = true)
    (habove : name ≠ FileName.above) {target : Path}
    (hlink : es.lookup name = some (.link target)) :
    walk top .keep links location [name] = .ok (.entry (location ++ [name]) (.link target)) := by
  rw [walk, hdir]
  simp only [if_neg hstay, if_neg habove, hlink, reduceCtorEq, if_false, and_self, if_true]

/-- A file or a directory is stepped on. Only if it is to be made, a slash must not follow. -/
theorem walk_entry (hdir : top.at? location = some (.dir es)) (hstay : ¬isStay name = true)
    (habove : name ≠ FileName.above) (hslash : ¬(purpose = .create ∧ rest = [[]])) {e : Entry}
    (he : es.lookup name = some e) (hlink : ∀ target, e ≠ .link target) :
    walk top purpose links location (name :: rest) =
      walk top purpose links (location ++ [name]) rest := by
  rw [walk, hdir]
  cases e with
  | link target => exact absurd rfl (hlink target)
  | file => simp only [if_neg hstay, if_neg habove, if_neg hslash, he]
  | dir => simp only [if_neg hstay, if_neg habove, if_neg hslash, he]

/-- A name that is missing at the end can be made. -/
theorem walk_vacant (hdir : top.at? location = some (.dir es)) (hstay : ¬isStay name = true)
    (habove : name ≠ FileName.above) (hnone : es.lookup name = none) :
    walk top .create links location [name] = .ok (.vacant (location ++ [name])) := by
  rw [walk, hdir]
  simp [hstay, habove, hnone]

/-- A name that is missing leads nowhere when it is not to be made. -/
theorem walk_missing (hdir : top.at? location = some (.dir es)) (hstay : ¬isStay name = true)
    (habove : name ≠ FileName.above) (hnone : es.lookup name = none) :
    walk top .follow links location [name] = .error .notFound := by
  rw [walk, hdir]
  simp [hstay, habove, hnone]

end Step

/-! ## Many steps -/

/-- Steps that stay in a directory lead to the place where they begin. -/
theorem walk_of_stays {top : Entry} {purpose : Purpose} {links : Nat} {location : Location}
    {stays : List FileName} (hstays : ∀ s ∈ stays, isStay s = true) {place : Location} {e : Entry}
    (h : walk top purpose links location stays = .ok (.entry place e)) : place = location := by
  induction stays with
  | nil =>
    rw [walk] at h
    split at h
    · exact (Place.entry.inj (Except.ok.inj h)).1.symm
    · cases h
  | cons s stays ih =>
    have hs : isStay s = true := hstays s (.head _)
    rw [walk] at h
    split at h
    · cases h
    · cases h
    · cases h
    · rw [if_pos hs] at h
      exact ih (fun s hs => hstays s (.tail _ hs)) h

/-- Where a way ends, it can be gone on with. Fewer links may be followed from there on. The steps
at its end that only stay in a directory do not matter. -/
theorem walk_append {top : Entry} {links : Nat} {location : Location} {steps stays : List FileName}
    (hstays : ∀ s ∈ stays, isStay s = true) {place : Location} {e : Entry}
    (h : walk top .follow links location (steps ++ stays) = .ok (.entry place e)) :
    ∃ links', ∀ more, walk top .follow links location (steps ++ more) =
      walk top .follow links' place more := by
  fun_induction walk top .follow links location steps with
  | case1 links location =>
    obtain rfl := walk_of_stays hstays h
    exact ⟨links, fun more => rfl⟩
  | case2 links location he =>
    -- There is nothing to begin at.
    cases stays <;> simp [walk, he] at h
  | case6 links location name rest es he hstay ih =>
    simp only [List.cons_append, walk_stay he hstay] at h ⊢
    exact ih h
  | case7 links location rest es he _ ih =>
    simp only [List.cons_append, walk_above he] at h ⊢
    exact ih h
  | case14 location name rest es he hstay habove _ target hlink _ htarget links ih =>
    have hslash {more : List FileName} : ¬(Purpose.follow = .create ∧ more = [[]]) := by simp
    have hkeep {more : List FileName} : ¬(Purpose.follow = .keep ∧ more = []) := by simp
    simp only [List.cons_append, walk_link he hstay habove hslash hkeep hlink htarget,
      ← List.append_assoc] at h ⊢
    exact ih h
  | case15 links location name rest es he hstay habove _ e hlink hlookup ih =>
    have hslash {more : List FileName} : ¬(Purpose.follow = .create ∧ more = [[]]) := by simp
    simp only [List.cons_append, walk_entry he hstay habove hslash hlookup hlink] at h ⊢
    exact ih h
  -- Everywhere else the way of `steps` has failed, or it has another purpose.
  | case3 links location name rest he => simp [walk, he] at h
  | case4 links location name rest content he => simp [walk, he] at h
  | case5 links location name rest target he => simp [walk, he] at h
  | case8 _ _ _ _ _ _ _ _ hcreate => cases hcreate.1
  | case9 _ _ _ _ _ _ _ _ _ _ hcreate => cases hcreate.1
  | case10 links location name rest es he hstay habove _ hnone =>
    simp [walk, he, hstay, habove, hnone] at h
  | case11 _ _ _ _ _ _ _ _ _ _ _ hkeep => cases hkeep.1
  | case12 links location name rest es he hstay habove _ target hlink _ hempty =>
    simp [walk, he, hstay, habove, hlink, hempty] at h
  | case13 location name rest es he hstay habove _ target hlink _ htarget =>
    simp [walk, he, hstay, habove, hlink, htarget] at h

/-- Nothing but the link itself is at a location below a link. -/
theorem ne_link_of_at? {e e' : Entry} {names : Location} (h : e.at? names = some e')
    (hlink : ∀ target, e' ≠ .link target) (target : Path) : e ≠ .link target := by
  rintro rfl
  cases names with
  | nil => exact hlink target (Option.some.inj h).symm
  | cons => simp [Entry.at?] at h

/-- The names of directories, and at the end of a file or a directory, lead through the tree as they
are. -/
theorem walk_names {top : Entry} {purpose : Purpose} {links : Nat} {location : Location}
    {names : Location} (hnames : ∀ name ∈ names, name.IsEntryName) {e : Entry}
    (he : top.at? (location ++ names) = some e) (hlink : ∀ target, e ≠ .link target) :
    walk top purpose links location names = .ok (.entry (location ++ names) e) := by
  induction names generalizing location with
  | nil =>
    rw [List.append_nil] at he ⊢
    rw [walk, he]
  | cons name names ih =>
    have hname := hnames name (.head _)
    have hslash : ¬(purpose = .create ∧ names = [[]]) := by
      rintro ⟨-, rfl⟩
      exact (hnames [] (by simp)).ne_nil rfl
    obtain ⟨d, hd, hbelow⟩ := Option.bind_eq_some_iff.mp ((at?_append top location _).symm.trans he)
    obtain ⟨es, e₁, rfl, hlookup, he₁⟩ := exists_lookup_of_at? hbelow
    rw [walk_entry hd hname.not_isStay hname.ne_above hslash hlookup (ne_link_of_at? he₁ hlink)]
    have hassoc : location ++ name :: names = location ++ [name] ++ names := by simp
    rw [hassoc] at he ⊢
    exact ih (fun n hn => hnames n (.tail _ hn)) he

/-! ## Joined paths -/

namespace Path

theorem endsInSlash_iff {p : Path} : p.endsInSlash = true ↔ ∃ bs, p.bytes = bs ++ [slash] := by
  rw [endsInSlash, decide_eq_true_eq, List.getLast?_eq_some_iff]

/-- A path of names ends in the last of them. -/
theorem exists_ofNames_eq (l : Location) (last : FileName) :
    ∃ bs, (ofNames (l ++ [last])).bytes = bs ++ last := by
  by_cases hl : l = []
  · exact ⟨[], by simp [ofNames, hl]⟩
  · exact ⟨_, intercalate_concat [slash] hl last⟩

/-- A path that ends in names does not end in a slash. -/
theorem not_endsInSlash_append (bs : Bytes) {l : Location} (h : ∀ name ∈ l, name.IsEntryName)
    (hl : l ≠ []) : ¬(Path.mk (bs ++ (ofNames l).bytes)).endsInSlash = true := by
  obtain ⟨init, last, rfl⟩ := (List.eq_nil_or_concat' l).resolve_left hl
  have hlast := h last (by simp)
  obtain ⟨bs', hbs'⟩ := exists_ofNames_eq init last
  rw [endsInSlash, decide_eq_true_eq, hbs', ← List.append_assoc,
    List.getLast?_append_of_ne_nil _ hlast.ne_nil]
  exact fun hslash => hlast.slash_not_mem (List.mem_of_getLast? hslash)

theorem splitOn_ofNames {l : Location} (h : ∀ name ∈ l, name.IsEntryName) (hl : l ≠ []) :
    (ofNames l).bytes.splitOn slash = l :=
  List.splitOn_intercalate slash (fun name hn => (h name hn).slash_not_mem) hl

theorem filter_ne_nil {l : Location} (h : ∀ name ∈ l, name.IsEntryName) :
    l.filter (· ≠ []) = l :=
  List.filter_eq_self.mpr fun name hn => by simpa using (h name hn).ne_nil

/-- The steps of a joined path are those of the root, without what a slash at its end adds, and then
the names. -/
theorem steps_join (p : Path) {l : Location} (h : ∀ name ∈ l, name.IsEntryName) (hl : l ≠ []) :
    ∃ stays, p.steps = (p.bytes.splitOn slash).filter (· ≠ []) ++ stays ∧
      (∀ s ∈ stays, isStay s = true) ∧
      (p.join l).steps = (p.bytes.splitOn slash).filter (· ≠ []) ++ l := by
  have hslash : ¬(p.join l).endsInSlash = true := not_endsInSlash_append _ h hl
  refine ⟨_, rfl, fun s hs => ?_, ?_⟩
  · split at hs
    · rw [List.mem_singleton.mp hs]
      rfl
    · cases hs
  · have hsplit : ((p.join l).bytes.splitOn slash).filter (· ≠ []) =
        (p.bytes.splitOn slash).filter (· ≠ []) ++ l := by
      by_cases hp : p.endsInSlash = true
      · obtain ⟨bs, hbs⟩ := endsInSlash_iff.mp hp
        rw [join, if_pos hp, hbs]
        simp only [List.append_nil, List.append_assoc, List.singleton_append,
          List.splitOn_append_cons_self, splitOn_ofNames h hl, List.filter_append,
          filter_ne_nil h]
        simp
      · rw [join, if_neg hp]
        simp only [List.append_assoc, List.singleton_append,
          List.splitOn_append_cons_self, splitOn_ofNames h hl, List.filter_append,
          filter_ne_nil h]
    rw [steps, hsplit, if_neg hslash, List.append_nil]

theorem isAbsolute_join {p : Path} (h : p.bytes ≠ []) (l : Location) :
    (p.join l).isAbsolute = p.isAbsolute := by
  rw [isAbsolute, isAbsolute, join, List.append_assoc, List.head?_append_of_ne_nil _ h]

theorem zero_not_mem_ofNames {l : Location} (hl : ∀ name ∈ l, 0 ∉ name) :
    0 ∉ (ofNames l).bytes := by
  intro h
  rcases mem_of_mem_intercalate h with h | ⟨name, hname, h⟩
  · exact absurd h (by decide)
  · exact hl name hname h

theorem zero_not_mem_join {p : Path} (hp : 0 ∉ p.bytes) {l : Location}
    (hl : ∀ name ∈ l, 0 ∉ name) : 0 ∉ (p.join l).bytes := by
  intro h
  rcases List.mem_append.mp h with h | h
  · rcases List.mem_append.mp h with h | h
    · exact hp h
    · split at h
      · cases h
      · exact absurd h (by decide)
  · exact zero_not_mem_ofNames hl h

/-! ## Paths of names -/

theorem steps_ofNames {l : Location} (h : ∀ name ∈ l, name.IsEntryName) (hl : l ≠ []) :
    (ofNames l).steps = l := by
  have hslash : ¬(ofNames l).endsInSlash = true := not_endsInSlash_append [] h hl
  rw [steps, splitOn_ofNames h hl, filter_ne_nil h, if_neg hslash, List.append_nil]

theorem not_isAbsolute_ofNames {l : Location} (h : ∀ name ∈ l, name.IsEntryName) (hl : l ≠ []) :
    ¬(ofNames l).isAbsolute = true := by
  obtain ⟨name, rest, rfl⟩ := List.exists_cons_of_ne_nil hl
  have hname := h name (.head _)
  obtain ⟨bs, hbs⟩ := prefix_intercalate_cons [slash] name rest
  rw [isAbsolute, decide_eq_true_eq, ofNames, ← hbs, List.head?_append_of_ne_nil _ hname.ne_nil]
  exact fun hslash => hname.slash_not_mem (List.mem_of_head? hslash)

end Path

namespace FileTree

variable {t : FileTree} {root : Path} {location : Location} {es : List (FileName × Entry)}

/-- A path of names goes from the working directory through these names. -/
theorem resolve_ofNames (t : FileTree) (purpose : Purpose) {l : Location}
    (hnames : ∀ name ∈ l, name.IsEntryName) (hzero : ∀ name ∈ l, 0 ∉ name) (hl : l ≠ []) :
    t.resolve purpose (.ofNames l) = walk t.top purpose linkLimit t.working l := by
  have hnil : (Path.ofNames l).bytes ≠ [] := by
    intro h
    have hsplit := Path.splitOn_ofNames hnames hl
    rw [h] at hsplit
    exact (hnames [] (by simp [← hsplit])).ne_nil rfl
  rw [resolve, if_neg (Path.zero_not_mem_ofNames hzero), if_neg hnil, start,
    if_neg (Path.not_isAbsolute_ofNames hnames hl), Path.steps_ofNames hnames hl]

/-- A path with one name in it goes one step. -/
theorem resolve_name (t : FileTree) (purpose : Purpose) {name : FileName} (h : name.IsEntryName)
    (hzero : 0 ∉ name) :
    t.resolve purpose ⟨name⟩ = walk t.top purpose linkLimit t.working [name] := by
  have hpath : Path.mk name = .ofNames [name] := by simp [Path.ofNames]
  rw [hpath]
  exact t.resolve_ofNames purpose (by simpa using h) (by simpa using hzero) (by simp)

/-- A path with one name in it that is a link goes on with the steps of the target. -/
theorem resolve_link {purpose : Purpose} (hpurpose : purpose ≠ .keep) {name : FileName}
    (h : name.IsEntryName) (hzero : 0 ∉ name) (hdir : t.top.at? t.working = some (.dir es))
    {target : Path} (hlink : es.lookup name = some (.link target)) (htarget : target.bytes ≠ []) :
    t.resolve purpose ⟨name⟩ =
      walk t.top purpose (linkLimit - 1) (if target.isAbsolute then [] else t.working)
        target.steps := by
  rw [resolve_name t purpose h hzero, linkLimit,
    walk_link hdir h.not_isStay h.ne_above (by simp) (by simp [hpurpose]) hlink htarget,
    List.append_nil]

/-- A path joined with names leads to what is there below the place of the root. -/
theorem resolve_join (hroot : t.resolve .follow root = .ok (.entry location (.dir es)))
    {l : Location} (hnames : ∀ name ∈ l, name.IsEntryName) (hzero : ∀ name ∈ l, 0 ∉ name)
    (hl : l ≠ []) {e : Entry} (he : (Entry.dir es).at? l = some e)
    (hlink : ∀ target, e ≠ .link target) :
    t.resolve .follow (root.join l) = .ok (.entry (location ++ l) e) := by
  have hat : t.top.at? (location ++ l) = some e := by
    rw [at?_append, at?_of_resolve hroot, Option.bind_some, he]
  obtain ⟨hrootZero, hnil, hwalk⟩ := resolve_eq_ok_iff.mp hroot
  obtain ⟨stays, hsteps, hstays, hjoin⟩ := root.steps_join hnames hl
  have hjoinNil : (root.join l).bytes ≠ [] := by simp [Path.join, hnil]
  have hstart : t.start (root.join l) = t.start root := by
    rw [start, start, Path.isAbsolute_join hnil]
  rw [hsteps] at hwalk
  obtain ⟨links, hmore⟩ := walk_append hstays hwalk
  refine resolve_eq_ok_iff.mpr ⟨Path.zero_not_mem_join hrootZero hzero, hjoinNil, ?_⟩
  rw [hstart, hjoin, hmore, walk_names hnames hat hlink]

/-- A file below a root is read through the root and the names that lead to it. -/
theorem read_join (hroot : t.resolve .follow root = .ok (.entry location (.dir es)))
    {l : Location} (hnames : ∀ name ∈ l, name.IsEntryName) (hzero : ∀ name ∈ l, 0 ∉ name)
    (hl : l ≠ []) {content : Bytes} (he : (Entry.dir es).at? l = some (.file content)) :
    t.read (root.join l) = .ok content := by
  rw [read, resolve_join hroot hnames hzero hl he (by simp)]

end FileTree

end ReferenceGraph
