import Mathlib.Data.List.Basic
import ReferenceGraph.Tree.Resolve

/-!
# Well-formed trees

In a directory no two entries have the same name, and a name is one piece of a path: it is not
empty, holds no slash, and is neither of the two names with a meaning of their own.

* `Entry.WellFormed.at?`: a part of a well-formed tree is well formed.
* `Entry.WellFormed.isEntryName_of_at?`: the names on the way to it are names of entries.
* `at?_of_walk`: where the way of a path ends, the tree has the entry.
-/

namespace ReferenceGraph

/-- A name that an entry of a directory can have. -/
structure FileName.IsEntryName (name : FileName) : Prop where
  ne_nil : name ≠ []
  slash_not_mem : Path.slash ∉ name
  ne_here : name ≠ here
  ne_above : name ≠ above

instance (name : FileName) : Decidable name.IsEntryName :=
  decidable_of_iff
    (name ≠ [] ∧ Path.slash ∉ name ∧ name ≠ FileName.here ∧ name ≠ FileName.above)
    ⟨fun ⟨hne, hslash, hhere, habove⟩ => ⟨hne, hslash, hhere, habove⟩,
      fun ⟨hne, hslash, hhere, habove⟩ => ⟨hne, hslash, hhere, habove⟩⟩

/-- In every directory the names are distinct and names of entries. -/
inductive Entry.WellFormed : Entry → Prop
  | file (content : Bytes) : WellFormed (.file content)
  | link (target : Path) : WellFormed (.link target)
  | dir {es : List (FileName × Entry)} (nodup : (es.map (·.1)).Nodup)
    (names : ∀ p ∈ es, p.1.IsEntryName) (entries : ∀ p ∈ es, p.2.WellFormed) : WellFormed (.dir es)

/-- The tree is well formed at every place. -/
def FileTree.WellFormed (t : FileTree) : Prop := t.top.WellFormed

/-! ## Places in a tree -/

theorem mem_of_lookup {es : List (FileName × Entry)} {name : FileName} {e : Entry}
    (h : es.lookup name = some e) : (name, e) ∈ es := by
  obtain ⟨l₁, l₂, rfl, -⟩ := List.lookup_eq_some_iff.mp h
  simp

theorem lookup_eq_some_iff_mem {es : List (FileName × Entry)} (nodup : (es.map (·.1)).Nodup)
    {name : FileName} {e : Entry} : es.lookup name = some e ↔ (name, e) ∈ es := by
  refine ⟨mem_of_lookup, fun h => ?_⟩
  obtain ⟨l₁, l₂, rfl⟩ := List.append_of_mem h
  refine List.lookup_eq_some_iff.mpr ⟨l₁, l₂, rfl, fun p hp => bne_iff_ne.mpr ?_⟩
  rw [List.map_append, List.nodup_append] at nodup
  exact (nodup.2.2 p.1 (List.mem_map_of_mem hp) name (by simp)).symm

/-- What is at the end of some names is below the entry of the first, in a directory. -/
theorem exists_lookup_of_at? {e e' : Entry} {name : FileName} {names : Location}
    (h : e.at? (name :: names) = some e') :
    ∃ es e₁, e = .dir es ∧ es.lookup name = some e₁ ∧ e₁.at? names = some e' := by
  cases e with
  | file => simp [Entry.at?] at h
  | link => simp [Entry.at?] at h
  | dir es =>
    rw [Entry.at?] at h
    obtain ⟨e₁, hlookup, he⟩ := Option.bind_eq_some_iff.mp h
    exact ⟨es, e₁, rfl, hlookup, he⟩

theorem Entry.WellFormed.at? {e e' : Entry} {location : Location} (h : e.WellFormed)
    (he : e.at? location = some e') : e'.WellFormed := by
  induction location generalizing e with
  | nil =>
    rw [Entry.at?] at he
    obtain rfl := Option.some.inj he
    exact h
  | cons name names ih =>
    obtain ⟨es, e₁, rfl, h₁, he⟩ := exists_lookup_of_at? he
    cases h with
    | dir _ _ entries => exact ih (entries _ (mem_of_lookup h₁)) he

/-- The names that lead to an entry are names of entries. -/
theorem Entry.WellFormed.isEntryName_of_at? {e e' : Entry} {location : Location} (h : e.WellFormed)
    (he : e.at? location = some e') {name : FileName} (hname : name ∈ location) :
    name.IsEntryName := by
  induction location generalizing e with
  | nil => cases hname
  | cons first rest ih =>
    obtain ⟨es, e₁, rfl, h₁, he⟩ := exists_lookup_of_at? he
    cases h with
    | dir _ names entries =>
      rcases List.mem_cons.mp hname with rfl | hname
      · exact names _ (mem_of_lookup h₁)
      · exact ih (entries _ (mem_of_lookup h₁)) he hname

/-- What is at a longer location is found from what is on the way there. -/
theorem at?_append (e : Entry) (l m : Location) : e.at? (l ++ m) = (e.at? l).bind (·.at? m) := by
  induction l generalizing e with
  | nil => rw [List.nil_append, Entry.at?, Option.bind_some]
  | cons name names ih =>
    cases e with
    | file => rfl
    | link => rfl
    | dir es =>
      simp only [List.cons_append, Entry.at?, Option.bind_assoc, ih]

theorem at?_concat {e : Entry} {location : Location} {es : List (FileName × Entry)}
    (he : e.at? location = some (.dir es)) (name : FileName) :
    e.at? (location ++ [name]) = es.lookup name := by
  rw [at?_append, he, Option.bind_some, Entry.at?]
  simp [Entry.at?]

/-- Where the way of a path ends at an entry, the tree has this entry. -/
theorem at?_of_walk {top : Entry} {purpose : Purpose} {links : Nat} {location : Location}
    {steps : List FileName} {place : Location} {e : Entry}
    (h : walk top purpose links location steps = .ok (.entry place e)) :
    top.at? place = some e := by
  fun_induction walk top purpose links location steps with
  | case1 links location e' he =>
    obtain ⟨rfl, rfl⟩ := Place.entry.inj (Except.ok.inj h)
    exact he
  | case6 _ _ _ _ _ _ _ ih => exact ih h
  | case7 _ _ _ _ _ _ ih => exact ih h
  | case11 links location name rest es he _ _ _ target hl =>
    -- The link at the end is kept, so it is an entry of the directory before it.
    obtain ⟨rfl, rfl⟩ := Place.entry.inj (Except.ok.inj h)
    rw [at?_concat he, hl]
  | case14 _ _ _ _ _ _ _ _ _ _ _ _ _ ih => exact ih h
  | case15 _ _ _ _ _ _ _ _ _ _ _ _ ih => exact ih h
  | _ => cases h

/-- A path leads somewhere if it is not empty, holds no zero byte, and its steps lead there. -/
theorem FileTree.resolve_eq_ok_iff {t : FileTree} {purpose : Purpose} {p : Path} {place : Place} :
    t.resolve purpose p = .ok place ↔
      0 ∉ p.bytes ∧ p.bytes ≠ [] ∧
        walk t.top purpose linkLimit (t.start p) p.steps = .ok place := by
  unfold resolve
  split
  · next hzero => simp [hzero]
  · next hzero =>
    split
    · next hnil => simp [hnil]
    · next hnil => simp [hzero, hnil]

theorem FileTree.at?_of_resolve {t : FileTree} {purpose : Purpose} {p : Path} {location : Location}
    {e : Entry} (h : t.resolve purpose p = .ok (.entry location e)) :
    t.top.at? location = some e :=
  at?_of_walk (resolve_eq_ok_iff.mp h).2.2

theorem FileTree.WellFormed.of_resolve {t : FileTree} (ht : t.WellFormed) {purpose : Purpose}
    {p : Path} {location : Location} {e : Entry}
    (h : t.resolve purpose p = .ok (.entry location e)) : e.WellFormed :=
  Entry.WellFormed.at? ht (at?_of_resolve h)

end ReferenceGraph
