import ReferenceGraph.Proofs.Lists.Joined
import ReferenceGraph.Proofs.Tree.WellFormed
import ReferenceGraph.Tree.Build

/-!
# Building keeps trees well formed

A tree that is built from an empty one by adding files, links and directories is well formed,
whatever the paths are that they are added at. The pieces of a path hold no slash, and of these a
walk takes only names of entries into a directory (`vacant_of_walk`); and a change at a location
with such names keeps the names of every directory distinct (`Entry.WellFormed.update`).

* `FileTree.WellFormed.empty`: the tree to start from.
* `FileTree.WellFormed.addFile`, `FileTree.WellFormed.addLink`,
  `FileTree.WellFormed.addDirectory`: one lemma for each way to add something.
* `FileTree.WellFormed.write`: writing through a path.
-/

namespace ReferenceGraph

/-! ## Names in a path -/

theorem Path.slash_not_mem_of_mem_steps {p : Path} {s : FileName} (h : s ∈ p.steps) :
    slash ∉ s := by
  rcases List.mem_append.mp h with h | h
  · exact not_mem_of_mem_splitOn (List.mem_filter.mp h).1
  · split at h
    · simp_all
    · cases h

theorem Path.slash_not_mem_of_mem_pieces {p : Path} {s : FileName} (h : s ∈ p.pieces) :
    slash ∉ s :=
  not_mem_of_mem_splitOn (List.mem_filter.mp h).1

theorem Path.isEntryName_of_fileName? {p : Path} {name : FileName} (h : p.fileName? = some name) :
    name.IsEntryName := by
  obtain ⟨hlast, habove⟩ := Option.filter_eq_some_iff.mp h
  have hmem := List.mem_of_getLast? hlast
  have hpiece := (List.mem_filter.mp hmem).2
  simp only [decide_eq_true_eq] at hpiece habove
  exact ⟨hpiece.1, slash_not_mem_of_mem_pieces hmem, hpiece.2, habove⟩

/-- What is missing at the end of a way is missing in a directory, and has a name of an entry. -/
theorem vacant_of_walk {top : Entry} {purpose : Purpose} {links : Nat} {location : Location}
    {steps : List FileName} {place : Location} (hsteps : ∀ s ∈ steps, Path.slash ∉ s)
    (h : walk top purpose links location steps = .ok (.vacant place)) :
    ∃ location name es, place = location ++ [name] ∧ top.at? location = some (.dir es) ∧
      name.IsEntryName := by
  fun_induction walk top purpose links location steps with
  | case6 _ _ _ _ _ _ _ ih => exact ih (fun s hs => hsteps s (.tail _ hs)) h
  | case7 _ _ _ _ _ _ ih => exact ih (fun s hs => hsteps s (.tail _ hs)) h
  | case9 links location name rest es he hstay habove =>
    obtain rfl := Place.vacant.inj (Except.ok.inj h)
    have hname : name ≠ [] ∧ name ≠ FileName.here := by simpa [isStay] using hstay
    exact ⟨location, name, es, rfl, he, hname.1, hsteps name (.head _), hname.2, habove⟩
  | case14 _ _ _ _ _ _ _ _ target _ _ _ _ ih =>
    -- The steps of a link's target are those of a path as well.
    refine ih (fun s hs => ?_) h
    rcases List.mem_append.mp hs with hs | hs
    · exact Path.slash_not_mem_of_mem_steps hs
    · exact hsteps s (.tail _ hs)
  | case15 _ _ _ _ _ _ _ _ _ _ _ _ ih => exact ih (fun s hs => hsteps s (.tail _ hs)) h
  | _ => cases h

/-! ## Changing an entry -/

theorem Entry.map_fst_alter (name : FileName) (f : Option Entry → Entry)
    (es : List (FileName × Entry)) :
    (alter name f es).map (·.1) =
      es.map (·.1) ++ if name ∈ es.map (·.1) then [] else [name] := by
  induction es with
  | nil => simp [alter]
  | cons p es ih =>
    obtain ⟨k, e⟩ := p
    rw [alter]
    by_cases hk : k = name
    · simp [hk]
    · simp only [if_neg hk, List.map_cons, ih, List.mem_cons, Ne.symm hk, false_or,
        List.cons_append]

/-- An entry after a change was there before, or is the one of this name, made from what was
there. -/
theorem Entry.mem_alter {name : FileName} {f : Option Entry → Entry} {es : List (FileName × Entry)}
    {p : FileName × Entry} (h : p ∈ alter name f es) :
    p ∈ es ∨ p.1 = name ∧ ∃ e? : Option Entry, p.2 = f e? ∧ ∀ e ∈ e?, (name, e) ∈ es := by
  induction es with
  | nil =>
    obtain rfl := List.mem_singleton.mp h
    exact .inr ⟨rfl, none, rfl, by simp⟩
  | cons q es ih =>
    obtain ⟨k, e⟩ := q
    rw [alter] at h
    split at h
    · next hk =>
      subst hk
      rcases List.mem_cons.mp h with rfl | h
      · exact .inr ⟨rfl, some e, rfl, by simp⟩
      · exact .inl (.tail _ h)
    · rcases List.mem_cons.mp h with rfl | h
      · exact .inl (.head _)
      · rcases ih h with h | ⟨hk, e?, hf, he⟩
        · exact .inl (.tail _ h)
        · exact .inr ⟨hk, e?, hf, fun e he' => .tail _ (he e he')⟩

namespace Entry.WellFormed

theorem dir_nil : (Entry.dir []).WellFormed := .dir List.nodup_nil (by simp) (by simp)

theorem alter {es : List (FileName × Entry)} (h : (Entry.dir es).WellFormed) {name : FileName}
    (hname : name.IsEntryName) {f : Option Entry → Entry}
    (hf : ∀ e?, (∀ e ∈ e?, Entry.WellFormed e) → (f e?).WellFormed) :
    (Entry.dir (Entry.alter name f es)).WellFormed := by
  cases h with
  | dir nodup names entries =>
    refine .dir ?_ ?_ ?_
    · rw [map_fst_alter]
      split
      · rwa [List.append_nil]
      · next hnew =>
        refine List.nodup_append.mpr ⟨nodup, by simp, ?_⟩
        rintro a ha _ hb rfl
        exact hnew (List.mem_singleton.mp hb ▸ ha)
    · intro p hp
      rcases mem_alter hp with hp | ⟨rfl, -⟩
      · exact names p hp
      · exact hname
    · intro p hp
      rcases mem_alter hp with hp | ⟨rfl, e?, he, hmem⟩
      · exact entries p hp
      · rw [he]
        exact hf e? fun e he => entries _ (hmem e he)

theorem getD_dir_nil {e? : Option Entry} (he : ∀ e ∈ e?, Entry.WellFormed e) :
    (e?.getD (.dir [])).WellFormed := by
  cases e? with
  | none => exact dir_nil
  | some e => exact he e rfl

/-- A change at a location keeps an entry well formed, if the location has names of entries. -/
theorem update {e : Entry} (h : e.WellFormed) {location : Location}
    (hnames : ∀ name ∈ location, name.IsEntryName) {f : Option Entry → Entry}
    (hf : ∀ e?, (∀ e ∈ e?, Entry.WellFormed e) → (f e?).WellFormed) :
    (e.update f location).WellFormed := by
  fun_induction Entry.update f location e with
  | case1 e => exact hf (some e) (by simpa using h)
  | case2 name es => exact h.alter (hnames name (.head _)) hf
  | case3 name names es _ ih =>
    exact h.alter (hnames name (.head _)) fun e? he =>
      ih e? (getD_dir_nil he) fun n hn => hnames n (.tail _ hn)
  | case4 => exact h

end Entry.WellFormed

/-! ## Changing a tree -/

namespace FileTree.WellFormed

variable {t : FileTree}

theorem update (ht : t.WellFormed) {location : Location}
    (hnames : ∀ name ∈ location, name.IsEntryName) {f : Option Entry → Entry}
    (hf : ∀ e?, (∀ e ∈ e?, Entry.WellFormed e) → (f e?).WellFormed) :
    (t.update f location).WellFormed := by
  have h := Entry.WellFormed.update ht hnames hf
  unfold FileTree.update
  split
  · next es hes =>
    rw [hes] at h
    exact h
  · exact ht

theorem empty {working : Location} (hnames : ∀ name ∈ working, name.IsEntryName) :
    (FileTree.empty working).WellFormed :=
  update (t := { entries := [], working }) Entry.WellFormed.dir_nil hnames fun _ =>
    Entry.WellFormed.getD_dir_nil

/-- The names that lead to a missing entry are names of entries. -/
theorem isEntryName_of_vacant (ht : t.WellFormed) {purpose : Purpose} {links : Nat}
    {location place : Location} {steps : List FileName} (hsteps : ∀ s ∈ steps, Path.slash ∉ s)
    (h : walk t.top purpose links location steps = .ok (.vacant place)) {name : FileName}
    (hname : name ∈ place) : name.IsEntryName := by
  obtain ⟨l, last, es, rfl, hl, hlast⟩ := vacant_of_walk hsteps h
  rcases List.mem_append.mp hname with hname | hname
  · exact Entry.WellFormed.isEntryName_of_at? ht hl hname
  · rwa [List.mem_singleton.mp hname]

theorem isEntryName_of_resolve_vacant (ht : t.WellFormed) {purpose : Purpose} {p : Path}
    {place : Location} (h : t.resolve purpose p = .ok (.vacant place)) {name : FileName}
    (hname : name ∈ place) : name.IsEntryName := by
  unfold FileTree.resolve at h
  split at h
  · cases h
  · split at h
    · cases h
    · exact ht.isEntryName_of_vacant (fun _ => Path.slash_not_mem_of_mem_steps) h hname

theorem makeDirectory (ht : t.WellFormed) (location : Location) {steps : List FileName}
    (hsteps : ∀ s ∈ steps, Path.slash ∉ s) : (t.makeDirectory location steps).WellFormed := by
  unfold FileTree.makeDirectory
  split
  · next place h =>
    exact ht.update (fun name => ht.isEntryName_of_vacant hsteps h)
      fun _ _ => Entry.WellFormed.dir_nil
  · exact ht

theorem makeDirectories (ht : t.WellFormed) (location : Location) {steps : List FileName}
    (hsteps : ∀ s ∈ steps, Path.slash ∉ s) : (t.makeDirectories location steps).WellFormed := by
  unfold FileTree.makeDirectories
  induction List.range steps.length generalizing t with
  | nil => exact ht
  | cons n ns ih =>
    exact ih (ht.makeDirectory location fun s hs => hsteps s (List.mem_of_mem_take hs))

theorem addDirectory (ht : t.WellFormed) (p : Path) : (t.addDirectory p).WellFormed :=
  ht.makeDirectories _ fun _ => Path.slash_not_mem_of_mem_pieces

theorem addParents (ht : t.WellFormed) (p : Path) : (t.addParents p).WellFormed :=
  ht.makeDirectories _ fun _ hs => Path.slash_not_mem_of_mem_pieces (List.dropLast_subset _ hs)

theorem write (ht : t.WellFormed) {p : Path} {content : Bytes} {t' : FileTree}
    (h : t.write p content = .ok t') : t'.WellFormed := by
  unfold FileTree.write at h
  split at h
  · cases h
  · cases h
  · next location e _ hplace =>
    obtain rfl := Except.ok.inj h
    have hat := FileTree.at?_of_resolve hplace
    exact ht.update (fun name => Entry.WellFormed.isEntryName_of_at? ht hat)
      fun _ _ => .file content
  · next location hplace =>
    obtain rfl := Except.ok.inj h
    exact ht.update (fun name => ht.isEntryName_of_resolve_vacant hplace) fun _ _ => .file content

theorem addFile (ht : t.WellFormed) (p : Path) (content : Bytes) :
    (t.addFile p content).WellFormed := by
  unfold FileTree.addFile
  cases h : (t.addParents p).write p content with
  | error e => exact ht.addParents p
  | ok t' => exact (ht.addParents p).write h

theorem addLink (ht : t.WellFormed) (p target : Path) : (t.addLink p target).WellFormed := by
  have hparents := ht.addParents p
  simp only [FileTree.addLink]
  split
  · next name location es hname hplace =>
    have hat := at?_of_walk hplace
    refine hparents.update (fun n hn => ?_) fun _ _ => .link target
    rcases List.mem_append.mp hn with hn | hn
    · exact Entry.WellFormed.isEntryName_of_at? hparents hat hn
    · rw [List.mem_singleton.mp hn]
      exact Path.isEntryName_of_fileName? hname
  · exact hparents

end FileTree.WellFormed

end ReferenceGraph
