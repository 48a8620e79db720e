import ReferenceGraph.Proofs.Tree.Findings

/-!
# Trees with changed files

Two trees are compared that differ only in some files: at some locations the second tree has a file,
where the first has another one or nothing. A path ends at the same place in both trees, with two
exceptions: it can end at a changed file, and it can fail to pass through a file that the first tree
does not have, for a different reason.

* `Entry.ChangedAt`: the relation. What is found at one location goes over by `at?_of_none`,
  `at?_of_file`, `at?_of_link` and `at?_of_dir`.
* `SameEnd`: the ways in which one path can end in two such trees.
* `walk_changedAt`: it does end in one of them, by induction on its way.
* `FileTree.ChangedAt.read`, `FileTree.ChangedAt.isSourceLink`: the same for reading and for the
  root of a scan.
-/

namespace ReferenceGraph

/-- The entry without what is below it. -/
def Entry.shallow : Entry → Entry
  | .dir _ => .dir []
  | e => e

/-- At every location at which `P` holds, the second entry has a file, and the first a file or
nothing. At all others both are alike, though a directory may have its entries in another order. -/
structure Entry.ChangedAt (P : Location → Prop) (e e' : Entry) : Prop where
  elsewhere : ∀ l, ¬P l → (e.at? l).map shallow = (e'.at? l).map shallow
  before : ∀ l, P l → ∀ x, e.at? l = some x → ∃ content, x = .file content
  after : ∀ l, P l → ∃ content, e'.at? l = some (.file content)

/-- How one path ends in two trees with files changed at `P`: in the same way, or at a changed file,
or in two errors because of a file that the first tree does not have. -/
inductive SameEnd (P : Location → Prop) : Except PathError Place → Except PathError Place → Prop
  | error (err : PathError) : SameEnd P (.error err) (.error err)
  | vacant (l : Location) : SameEnd P (.ok (.vacant l)) (.ok (.vacant l))
  | entry (l : Location) {e e' : Entry} (h : e'.shallow = e.shallow) :
    SameEnd P (.ok (.entry l e)) (.ok (.entry l e'))
  | changed {l : Location} (hl : P l) (content content' : Bytes) :
    SameEnd P (.ok (.entry l (.file content))) (.ok (.entry l (.file content')))
  | made {l : Location} (hl : P l) (content : Bytes) :
    SameEnd P (.ok (.vacant l)) (.ok (.entry l (.file content)))
  | found {l : Location} (hl : P l) (content : Bytes) :
    SameEnd P (.error .notFound) (.ok (.entry l (.file content)))
  | blocked {l : Location} (hl : P l) : SameEnd P (.error .notFound) (.error .notDirectory)

/-! ## One location -/

namespace Entry

theorem shallow_eq_file {e : Entry} {content : Bytes} :
    e.shallow = .file content ↔ e = .file content := by
  cases e <;> simp [shallow]

theorem shallow_eq_link {e : Entry} {target : Path} :
    e.shallow = .link target ↔ e = .link target := by
  cases e <;> simp [shallow]

theorem shallow_eq_dir {e : Entry} : e.shallow = .dir [] ↔ ∃ es, e = .dir es := by
  cases e <;> simp [shallow]

namespace ChangedAt

variable {P : Location → Prop} {e e' : Entry} {l : Location}

theorem at?_of_none (h : e.ChangedAt P e') (hl : e.at? l = none) :
    e'.at? l = none ∨ P l ∧ ∃ content, e'.at? l = some (.file content) := by
  by_cases hP : P l
  · exact .inr ⟨hP, h.after l hP⟩
  · have hmap := h.elsewhere l hP
    rw [hl] at hmap
    exact .inl (Option.map_eq_none_iff.mp hmap.symm)

theorem at?_of_some (h : e.ChangedAt P e') {x : Entry} (hl : e.at? l = some x) :
    (∃ x', e'.at? l = some x' ∧ x'.shallow = x.shallow) ∨
      P l ∧ ∃ content content', x = .file content ∧ e'.at? l = some (.file content') := by
  by_cases hP : P l
  · obtain ⟨content, rfl⟩ := h.before l hP x hl
    obtain ⟨content', hl'⟩ := h.after l hP
    exact .inr ⟨hP, content, content', rfl, hl'⟩
  · have hmap := h.elsewhere l hP
    rw [hl] at hmap
    exact .inl (Option.map_eq_some_iff.mp hmap.symm)

theorem at?_of_file (h : e.ChangedAt P e') {content : Bytes}
    (hl : e.at? l = some (.file content)) : ∃ content', e'.at? l = some (.file content') := by
  rcases h.at?_of_some hl with ⟨x', hl', hs⟩ | ⟨-, -, content', -, hl'⟩
  · exact ⟨content, by rw [hl', shallow_eq_file.mp hs]⟩
  · exact ⟨content', hl'⟩

theorem at?_of_link (h : e.ChangedAt P e') {target : Path} (hl : e.at? l = some (.link target)) :
    e'.at? l = some (.link target) := by
  rcases h.at?_of_some hl with ⟨x', hl', hs⟩ | ⟨-, _, _, hx, -⟩
  · rw [hl', shallow_eq_link.mp hs]
  · cases hx

theorem at?_of_dir (h : e.ChangedAt P e') {es : List (FileName × Entry)}
    (hl : e.at? l = some (.dir es)) : ∃ es', e'.at? l = some (.dir es') := by
  rcases h.at?_of_some hl with ⟨x', hl', hs⟩ | ⟨-, _, _, hx, -⟩
  · obtain ⟨es', rfl⟩ := shallow_eq_dir.mp hs
    exact ⟨es', hl'⟩
  · cases hx

/-- What is no link is none after a change. -/
theorem at?_of_ne_link (h : e.ChangedAt P e') {x : Entry} (hl : e.at? l = some x)
    (hx : ∀ target, x ≠ .link target) :
    ∃ x', e'.at? l = some x' ∧ ∀ target, x' ≠ .link target := by
  cases x with
  | file content =>
    obtain ⟨content', hl'⟩ := h.at?_of_file hl
    exact ⟨_, hl', by simp⟩
  | dir es =>
    obtain ⟨es', hl'⟩ := h.at?_of_dir hl
    exact ⟨_, hl', by simp⟩
  | link target => exact absurd rfl (hx target)

/-- Below one location of both entries, the same files are changed. -/
theorem below (h : e.ChangedAt P e') {f f' : Entry} (hl : e.at? l = some f)
    (hl' : e'.at? l = some f') : f.ChangedAt (fun m => P (l ++ m)) f' := by
  have hat (m : Location) : e.at? (l ++ m) = f.at? m := by rw [at?_append, hl, Option.bind_some]
  have hat' (m : Location) : e'.at? (l ++ m) = f'.at? m := by
    rw [at?_append, hl', Option.bind_some]
  refine ⟨fun m hm => ?_, fun m hm => ?_, fun m hm => ?_⟩
  · rw [← hat, ← hat']
    exact h.elsewhere _ hm
  · rw [← hat]
    exact h.before _ hm
  · rw [← hat']
    exact h.after _ hm

section Lookup

variable {es es' : List (FileName × Entry)} {name : FileName}

theorem lookup_of_link (h : e.ChangedAt P e') (he : e.at? l = some (.dir es))
    (he' : e'.at? l = some (.dir es')) {target : Path}
    (hlookup : es.lookup name = some (.link target)) : es'.lookup name = some (.link target) := by
  rw [← at?_concat he] at hlookup
  rw [← at?_concat he']
  exact h.at?_of_link hlookup

theorem lookup_of_ne_link (h : e.ChangedAt P e') (he : e.at? l = some (.dir es))
    (he' : e'.at? l = some (.dir es')) {x : Entry} (hlookup : es.lookup name = some x)
    (hx : ∀ target, x ≠ .link target) :
    ∃ x', es'.lookup name = some x' ∧ ∀ target, x' ≠ .link target := by
  rw [← at?_concat he] at hlookup
  rw [← at?_concat he']
  exact h.at?_of_ne_link hlookup hx

theorem lookup_of_none (h : e.ChangedAt P e') (he : e.at? l = some (.dir es))
    (he' : e'.at? l = some (.dir es')) (hlookup : es.lookup name = none) :
    es'.lookup name = none ∨
      P (l ++ [name]) ∧ ∃ content, es'.lookup name = some (.file content) := by
  rw [← at?_concat he] at hlookup
  rw [← at?_concat he']
  exact h.at?_of_none hlookup

end Lookup

end ChangedAt

end Entry

/-! ## The way of a path -/

/-- A new file ends the way that comes to it, or stands in its way. -/
theorem sameEnd_walk_file {P : Location → Prop} {top' : Entry} {location : Location}
    {content : Bytes} (hP : P location) (hfile : top'.at? location = some (.file content))
    (purpose : Purpose) (links : Nat) (steps : List FileName) :
    SameEnd P (.error .notFound) (walk top' purpose links location steps) := by
  cases steps with
  | nil =>
    rw [walk, hfile]
    exact .found hP content
  | cons name rest =>
    rw [walk, hfile]
    exact .blocked hP

theorem walk_changedAt {P : Location → Prop} {top top' : Entry} (h : top.ChangedAt P top')
    (purpose : Purpose) (links : Nat) (location : Location) (steps : List FileName) :
    SameEnd P (walk top purpose links location steps) (walk top' purpose links location steps) := by
  fun_induction walk top purpose links location steps with
  | case1 links location e he =>
    rcases h.at?_of_some he with ⟨e', he', hs⟩ | ⟨hP, content, content', rfl, he'⟩
    · rw [walk, he']
      exact .entry location hs
    · rw [walk, he']
      exact .changed hP content content'
  | case2 links location he =>
    rcases h.at?_of_none he with he' | ⟨hP, content, he'⟩
    · rw [walk, he']
      exact .error _
    · exact sameEnd_walk_file hP he' ..
  | case3 links location name rest he =>
    rcases h.at?_of_none he with he' | ⟨hP, content, he'⟩
    · rw [walk, he']
      exact .error _
    · exact sameEnd_walk_file hP he' ..
  | case4 links location name rest content he =>
    obtain ⟨content', he'⟩ := h.at?_of_file he
    rw [walk, he']
    exact .error _
  | case5 links location name rest target he =>
    rw [walk, h.at?_of_link he]
    exact .error _
  | case6 links location name rest es he hstay ih =>
    obtain ⟨es', he'⟩ := h.at?_of_dir he
    simpa only [walk, he', if_pos hstay] using ih
  | case7 links location rest es he hstay ih =>
    obtain ⟨es', he'⟩ := h.at?_of_dir he
    simpa only [walk, he', if_neg hstay, if_true] using ih
  | case8 links location name rest es he hstay habove hslash =>
    obtain ⟨es', he'⟩ := h.at?_of_dir he
    simp only [walk, he', if_neg hstay, if_neg habove, if_pos hslash]
    exact .error _
  -- From here on both ways look the name up, each in its own directory.
  | case9 links location name rest es he hstay habove hslash hlookup hend =>
    obtain ⟨es', he'⟩ := h.at?_of_dir he
    rcases h.lookup_of_none he he' hlookup with hlookup' | ⟨hP, content, hlookup'⟩
    · simp only [walk, he', if_neg hstay, if_neg habove, if_neg hslash, hlookup', if_pos hend]
      exact .vacant _
    · obtain ⟨-, rfl⟩ := hend
      simp only [walk, he', if_neg hstay, if_neg habove, if_neg hslash, hlookup',
        at?_concat he']
      exact .made hP content
  | case10 links location name rest es he hstay habove hslash hlookup hend =>
    obtain ⟨es', he'⟩ := h.at?_of_dir he
    rcases h.lookup_of_none he he' hlookup with hlookup' | ⟨hP, content, hlookup'⟩
    · simp only [walk, he', if_neg hstay, if_neg habove, if_neg hslash, hlookup', if_neg hend]
      exact .error _
    · rw [walk.eq_2]
      simp only [he', if_neg hstay, if_neg habove, if_neg hslash, hlookup']
      exact sameEnd_walk_file hP ((at?_concat he' name).trans hlookup') ..
  | case11 links location name rest es he hstay habove hslash target hlookup hend =>
    obtain ⟨es', he'⟩ := h.at?_of_dir he
    have hlookup' := h.lookup_of_link he he' hlookup
    simp only [walk, he', if_neg hstay, if_neg habove, if_neg hslash, hlookup', if_pos hend]
    exact .entry _ rfl
  | case12 links location name rest es he hstay habove hslash target hlookup hend hempty =>
    obtain ⟨es', he'⟩ := h.at?_of_dir he
    have hlookup' := h.lookup_of_link he he' hlookup
    simp only [walk, he', if_neg hstay, if_neg habove, if_neg hslash, hlookup', if_neg hend,
      if_pos hempty]
    exact .error _
  | case13 location name rest es he hstay habove hslash target hlookup hend hempty =>
    obtain ⟨es', he'⟩ := h.at?_of_dir he
    have hlookup' := h.lookup_of_link he he' hlookup
    simp only [walk, he', if_neg hstay, if_neg habove, if_neg hslash, hlookup', if_neg hend,
      if_neg hempty]
    exact .error _
  | case14 location name rest es he hstay habove hslash target hlookup hend hempty links ih =>
    obtain ⟨es', he'⟩ := h.at?_of_dir he
    have hlookup' := h.lookup_of_link he he' hlookup
    rw [walk.eq_2]
    simp only [he', if_neg hstay, if_neg habove, if_neg hslash, hlookup', if_neg hend,
      if_neg hempty]
    exact ih
  | case15 links location name rest es he hstay habove hslash e hlink hlookup ih =>
    obtain ⟨es', he'⟩ := h.at?_of_dir he
    obtain ⟨e', hlookup', hlink'⟩ := h.lookup_of_ne_link he he' hlookup hlink
    simp only [walk, he', if_neg hstay, if_neg habove, if_neg hslash, hlookup']
    cases e' with
    | file => exact ih
    | dir => exact ih
    | link target => exact absurd rfl (hlink' target)

/-! ## Trees -/

/-- The second tree has files at `P` where the first has files or nothing, and else both are alike;
and the same directories cannot be listed. -/
structure FileTree.ChangedAt (P : Location → Prop) (t t' : FileTree) : Prop where
  top : t.top.ChangedAt P t'.top
  working : t'.working = t.working
  refusal : ∀ l, t'.refusal? l = t.refusal? l

namespace FileTree.ChangedAt

variable {P : Location → Prop} {t t' : FileTree}

theorem resolve (h : t.ChangedAt P t') (purpose : Purpose) (p : Path) :
    SameEnd P (t.resolve purpose p) (t'.resolve purpose p) := by
  have hstart : t'.start p = t.start p := by rw [start, start, h.working]
  unfold FileTree.resolve
  split
  · exact .error _
  · split
    · exact .error _
    · rw [hstart]
      exact walk_changedAt h.top ..

theorem refusalBelow (h : t.ChangedAt P t') (location : Location) :
    t'.refusalBelow location = t.refusalBelow location := funext fun _ => h.refusal _

/-- The content of a file is the same, unless the path leads to a changed file. -/
theorem read (h : t.ChangedAt P t') {p : Path}
    (hp : ∀ l e, t'.resolve .follow p = .ok (.entry l e) → ¬P l) :
    (t'.read p).toOption = (t.read p).toOption := by
  have hend := h.resolve .follow p
  unfold FileTree.read
  generalize t.resolve .follow p = r at hend
  generalize t'.resolve .follow p = r' at hend hp
  cases hend with
  | error err => rfl
  | vacant l => rfl
  | entry l hs =>
    rename_i e e'
    cases e <;> cases e' <;> simp_all [Entry.shallow, Except.toOption]
  | changed hl content content' => exact absurd hl (hp _ _ rfl)
  | made hl content => exact absurd hl (hp _ _ rfl)
  | found hl content => exact absurd hl (hp _ _ rfl)
  | blocked hl => rfl

/-- A path that leads to a directory leads there in both trees. -/
theorem resolve_of_dir (h : t.ChangedAt P t') {p : Path} {location : Location}
    {es : List (FileName × Entry)} (hp : t.resolve .follow p = .ok (.entry location (.dir es))) :
    ∃ es', t'.resolve .follow p = .ok (.entry location (.dir es')) := by
  have hend := h.resolve .follow p
  rw [hp] at hend
  generalize t'.resolve .follow p = r' at hend
  cases hend with
  | entry l hs =>
    obtain ⟨es', rfl⟩ := Entry.shallow_eq_dir.mp hs
    exact ⟨es', rfl⟩

theorem isSourceLink (h : t.ChangedAt P t') (root : Path) :
    t.isSourceLink root = t'.isSourceLink root := by
  have hend := h.resolve .keep root
  unfold FileTree.isSourceLink
  generalize t.resolve .keep root = r at hend
  generalize t'.resolve .keep root = r' at hend
  cases hend with
  | entry l hs =>
    rename_i e e'
    cases e <;> cases e' <;> simp_all [Entry.shallow]
  | _ => rfl

end FileTree.ChangedAt

end ReferenceGraph
