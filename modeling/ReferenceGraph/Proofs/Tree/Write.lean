import ReferenceGraph.Proofs.Tree.Build
import ReferenceGraph.Proofs.Tree.Changed
import ReferenceGraph.Proofs.Tree.Walk

/-!
# Writing a file

To write through a path is to put a file at one location, in place of another file or of nothing,
and to leave everything else as it is. The path then leads to this file, and to write the same
content again changes nothing.

* `Entry.changedAt_update`: putting a file at a location changes this file alone, by induction on
  the location. `Entry.update_eq_self`: putting there what is there changes nothing.
* `FileTree.WrittenAt`: a tree after a file has been written.
* `writtenAt_of_write`: what a write that succeeds has done.
* `WrittenAt.write_again`: the same write once more.
-/

namespace ReferenceGraph

/-! ## Changing an entry -/

namespace Entry

variable {name : FileName} {f : Option Entry → Entry} {es : List (FileName × Entry)}

theorem lookup_cons (k first : FileName) (e : Entry) (es : List (FileName × Entry)) :
    ((first, e) :: es).lookup k = if k = first then some e else es.lookup k := by
  rw [List.lookup_cons]
  by_cases hk : k = first
  · rw [if_pos hk, beq_iff_eq.mpr hk]
  · rw [if_neg hk, beq_false_of_ne hk]

theorem lookup_alter (name k : FileName) (f : Option Entry → Entry)
    (es : List (FileName × Entry)) :
    (alter name f es).lookup k = if k = name then some (f (es.lookup name)) else es.lookup k := by
  induction es with
  | nil => rw [alter, lookup_cons, List.lookup_nil, List.lookup_nil]
  | cons p es ih =>
    obtain ⟨first, e⟩ := p
    rw [alter]
    by_cases hfirst : first = name
    · subst hfirst
      rw [if_pos rfl, lookup_cons, lookup_cons, lookup_cons, if_pos rfl]
      split <;> rfl
    · rw [if_neg hfirst, lookup_cons, ih, lookup_cons, lookup_cons, if_neg (Ne.symm hfirst)]
      by_cases hk : k = first
      · rw [if_pos hk, if_pos hk, if_neg (hk ▸ hfirst)]
      · rw [if_neg hk, if_neg hk]

theorem alter_eq_self {e : Entry} (he : es.lookup name = some e) (hf : f (some e) = e) :
    alter name f es = es := by
  induction es with
  | nil => cases he
  | cons p es ih =>
    obtain ⟨first, e'⟩ := p
    rw [lookup_cons] at he
    rw [alter]
    by_cases hfirst : first = name
    · rw [if_pos hfirst.symm] at he
      obtain rfl := Option.some.inj he
      rw [if_pos hfirst, hf]
    · rw [if_neg (Ne.symm hfirst)] at he
      rw [if_neg hfirst, ih he]

/-- A change further down is a change of the first entry on the way there. -/
theorem update_cons (name : FileName) (f : Option Entry → Entry) (es : List (FileName × Entry))
    (names : Location) (hnames : names ≠ []) :
    ∃ g : Option Entry → Entry, (∀ e, g (some e) = e.update f names) ∧
      (dir es).update f (name :: names) = dir (alter name g es) := by
  obtain ⟨next, rest, rfl⟩ := List.exists_cons_of_ne_nil hnames
  exact ⟨fun e? => (e?.getD (dir [])).update f (next :: rest), fun _ => rfl, rfl⟩

/-- A location at which something is may be changed to what is there. -/
theorem update_eq_self {e x : Entry} {l : Location} (hl : e.at? l = some x) (hf : f (some x) = x) :
    e.update f l = e := by
  induction l generalizing e with
  | nil =>
    obtain rfl := Option.some.inj hl
    exact hf
  | cons name rest ih =>
    obtain ⟨es, e₁, rfl, hlookup, hrest⟩ := exists_lookup_of_at? hl
    by_cases hnil : rest = []
    · subst hnil
      obtain rfl := Option.some.inj hrest
      rw [update, alter_eq_self hlookup hf]
    · obtain ⟨g, hg, hupdate⟩ := update_cons name f es rest hnil
      rw [hupdate, alter_eq_self hlookup ((hg e₁).trans (ih hrest))]

/-- What is found through the first entry on the way to a change, and past it. -/
theorem changedAt_alter {e : Entry} {P : Location → Prop} (he : es.lookup name = some e)
    (hf : e.ChangedAt P (f (some e))) :
    (dir es).ChangedAt (fun l => ∃ m, l = name :: m ∧ P m) (dir (alter name f es)) := by
  have hbelow (m : Location) : (dir es).at? (name :: m) = e.at? m := by
    rw [at?, he, Option.bind_some]
  have hbelow' (m : Location) : (dir (alter name f es)).at? (name :: m) = (f (some e)).at? m := by
    rw [at?, lookup_alter, if_pos rfl, he, Option.bind_some]
  refine ⟨fun l hl => ?_, ?_, ?_⟩
  · cases l with
    | nil => rfl
    | cons k m =>
      by_cases hk : k = name
      · subst hk
        rw [hbelow, hbelow']
        exact hf.elsewhere m fun hm => hl ⟨m, rfl, hm⟩
      · rw [at?, at?, lookup_alter, if_neg hk]
  · rintro _ ⟨m, rfl, hm⟩ x hx
    exact hf.before m hm x (hbelow m ▸ hx)
  · rintro _ ⟨m, rfl, hm⟩
    rw [hbelow']
    exact hf.after m hm

/-- In a directory, a file is put in place of a file or of nothing. -/
theorem changedAt_alter_file (hfile : ∀ x, es.lookup name = some x → ∃ old, x = .file old)
    (content : Bytes) :
    (dir es).ChangedAt (· = [name]) (dir (alter name (fun _ => .file content) es)) := by
  refine ⟨fun l hl => ?_, ?_, ?_⟩
  · cases l with
    | nil => rfl
    | cons k m =>
      rw [at?, at?, lookup_alter]
      by_cases hk : k = name
      · -- Nothing is below the file that was there, or below the one that is there now.
        subst hk
        obtain ⟨next, rest, rfl⟩ := List.exists_cons_of_ne_nil fun hm : m = [] => hl (by rw [hm])
        rw [if_pos rfl, Option.bind_some]
        cases hx : es.lookup k with
        | none => rfl
        | some x =>
          obtain ⟨old, rfl⟩ := hfile x hx
          rfl
      · rw [if_neg hk]
  · rintro _ rfl x hx
    exact hfile x (by simpa [at?] using hx)
  · rintro _ rfl
    refine ⟨content, ?_⟩
    rw [at?, lookup_alter, if_pos rfl, Option.bind_some, at?]

/-- Putting a file at a place in a directory changes this file alone. -/
theorem changedAt_update {e : Entry} {place : Location} (hdir : e.at? place = some (.dir es))
    (hfile : ∀ x, es.lookup name = some x → ∃ old, x = .file old) (content : Bytes) :
    e.ChangedAt (· = place ++ [name]) (e.update (fun _ => .file content) (place ++ [name])) := by
  induction place generalizing e with
  | nil =>
    obtain rfl := Option.some.inj hdir
    exact changedAt_alter_file hfile content
  | cons first rest ih =>
    obtain ⟨es', e₁, rfl, hlookup, hrest⟩ := exists_lookup_of_at? hdir
    obtain ⟨g, hg, hupdate⟩ :=
      update_cons first (fun _ => .file content) es' (rest ++ [name]) (by simp)
    have h := changedAt_alter (f := g) hlookup (by rw [hg]; exact ih hrest)
    rw [List.cons_append, hupdate]
    simpa only [exists_eq_right] using h

theorem at?_update {e : Entry} {place : Location} (hdir : e.at? place = some (.dir es))
    (name : FileName) (f : Option Entry → Entry) :
    (e.update f (place ++ [name])).at? (place ++ [name]) = some (f (es.lookup name)) := by
  induction place generalizing e with
  | nil =>
    obtain rfl := Option.some.inj hdir
    rw [List.nil_append, update, at?, lookup_alter, if_pos rfl, Option.bind_some, at?]
  | cons first rest ih =>
    obtain ⟨es', e₁, rfl, hlookup, hrest⟩ := exists_lookup_of_at? hdir
    obtain ⟨g, hg, hupdate⟩ := update_cons first f es' (rest ++ [name]) (by simp)
    rw [List.cons_append, hupdate, at?, lookup_alter, if_pos rfl, hlookup, Option.bind_some, hg,
      ih hrest]

end Entry

/-! ## Changing a tree -/

namespace FileTree

variable {t t' : FileTree} {p : Path} {content : Bytes} {place : Location}

theorem top_update (t : FileTree) (f : Option Entry → Entry) (names : Location)
    (hnames : names ≠ []) : (t.update f names).top = t.top.update f names := by
  obtain ⟨name, rest, rfl⟩ := List.exists_cons_of_ne_nil hnames
  cases rest with
  | nil => rfl
  | cons next rest => rfl

theorem working_update (t : FileTree) (f : Option Entry → Entry) (names : Location) :
    (t.update f names).working = t.working := by
  unfold update
  split <;> rfl

theorem unlistable_update (t : FileTree) (f : Option Entry → Entry) (names : Location) :
    (t.update f names).unlistable = t.unlistable := by
  unfold update
  split <;> rfl

theorem update_eq_self {f : Option Entry → Entry} {x : Entry} (hx : t.top.at? place = some x)
    (hf : f (some x) = x) : t.update f place = t := by
  rw [update, Entry.update_eq_self hx hf]
  rfl

/-- The second tree is the first one after a file with this content has been put at a place, where
there was another file or nothing. -/
structure WrittenAt (t : FileTree) (place : Location) (content : Bytes) (t' : FileTree) :
    Prop where
  elsewhere : ∀ l, l ≠ place →
    (t'.top.at? l).map Entry.shallow = (t.top.at? l).map Entry.shallow
  before : ∀ x, t.top.at? place = some x → ∃ old, x = .file old
  after : t'.top.at? place = some (.file content)
  working : t'.working = t.working
  unlistable : t'.unlistable = t.unlistable

theorem WrittenAt.changedAt (h : t.WrittenAt place content t') :
    t.ChangedAt (· = place) t' := by
  refine ⟨⟨fun l hl => (h.elsewhere l hl).symm, ?_, ?_⟩, h.working, fun l => ?_⟩
  · rintro _ rfl
    exact h.before
  · rintro _ rfl
    exact ⟨content, h.after⟩
  · rw [refusal?, refusal?, h.unlistable]

theorem writtenAt_update {es : List (FileName × Entry)} {name : FileName}
    (hdir : t.top.at? place = some (.dir es))
    (hfile : ∀ x, es.lookup name = some x → ∃ old, x = .file old) (content : Bytes) :
    t.WrittenAt (place ++ [name]) content
      (t.update (fun _ => .file content) (place ++ [name])) := by
  have htop := t.top_update (fun _ => .file content) (place ++ [name]) (by simp)
  have h := Entry.changedAt_update hdir hfile content
  refine ⟨fun l hl => ?_, h.before _ rfl, ?_, working_update .., unlistable_update ..⟩
  · rw [htop]
    exact (h.elsewhere l hl).symm
  · rw [htop]
    exact Entry.at?_update hdir name _

/-! ## The place of a write -/

end FileTree

/-- The place before a directory is no link, and neither is the top. -/
theorem not_link_of_dir {top : Entry} {location : Location} {es : List (FileName × Entry)}
    (hdir : top.at? location = some (.dir es)) {l : Location} (hl : l <+: location)
    (target : Path) : top.at? l ≠ some (.link target) := by
  obtain ⟨rest, rfl⟩ := hl
  intro hlink
  rw [at?_append, hlink, Option.bind_some] at hdir
  cases rest <;> simp [Entry.at?] at hdir

/-- Unless links are kept, no way of at least one step ends at a link. -/
theorem walk_ne_link {top : Entry} {purpose : Purpose} {links : Nat} {location : Location}
    {steps : List FileName} (hpurpose : purpose ≠ .keep)
    (hstart : steps = [] → ∀ target, top.at? location ≠ some (.link target)) {place : Location}
    {target : Path} :
    walk top purpose links location steps ≠ .ok (.entry place (.link target)) := by
  fun_induction walk top purpose links location steps with
  | case1 links location e he =>
    intro h
    obtain ⟨-, rfl⟩ := Place.entry.inj (Except.ok.inj h)
    exact hstart rfl target he
  | case6 links location name rest es he _ ih =>
    exact ih fun _ => not_link_of_dir he List.prefix_rfl
  | case7 links location rest es he _ ih =>
    exact ih fun _ => not_link_of_dir he (List.dropLast_prefix location)
  | case11 _ _ _ _ _ _ _ _ _ _ _ hkeep => exact absurd hkeep.1 hpurpose
  | case14 location name rest es he _ _ _ link _ _ _ links ih =>
    refine ih fun _ => not_link_of_dir he ?_
    split
    · exact List.nil_prefix
    · exact List.prefix_rfl
  | case15 links location name rest es he _ _ _ e hlink hlookup ih =>
    refine ih fun _ target hat => ?_
    rw [at?_concat he, hlookup] at hat
    exact hlink target (Option.some.inj hat)
  | _ => simp

/-- What is missing at the end of a way is not there. -/
theorem at?_of_walk_vacant {top : Entry} {purpose : Purpose} {links : Nat} {location : Location}
    {steps : List FileName} {place : Location}
    (h : walk top purpose links location steps = .ok (.vacant place)) : top.at? place = none := by
  fun_induction walk top purpose links location steps with
  | case6 _ _ _ _ _ _ _ ih => exact ih h
  | case7 _ _ _ _ _ _ ih => exact ih h
  | case9 links location name rest es he _ _ _ hlookup =>
    obtain rfl := Place.vacant.inj (Except.ok.inj h)
    rw [at?_concat he, hlookup]
  | case14 _ _ _ _ _ _ _ _ _ _ _ _ _ ih => exact ih h
  | case15 _ _ _ _ _ _ _ _ _ _ _ _ ih => exact ih h
  | _ => cases h

/-- A path that is not empty has steps. -/
theorem Path.steps_ne_nil {p : Path} (h : p.bytes ≠ []) : p.steps ≠ [] := by
  intro hsteps
  obtain ⟨hpieces, hslash⟩ := List.append_eq_nil_iff.mp hsteps
  obtain ⟨init, last, hlast⟩ := (List.eq_nil_or_concat' p.bytes).resolve_left h
  have hnil : ∀ s ∈ p.bytes.splitOn slash, s = [] := by simpa using hpieces
  -- No piece holds the last byte, so it is a slash.
  have hmem : last ∈ [slash].intercalate (p.bytes.splitOn slash) := by
    rw [List.intercalate_splitOn, hlast]
    exact List.mem_concat_self
  rcases mem_of_mem_intercalate hmem with hlast' | ⟨s, hs, hlast'⟩
  · rw [List.mem_singleton.mp hlast'] at hlast
    rw [if_pos (endsInSlash_iff.mpr ⟨init, hlast⟩)] at hslash
    cases hslash
  · rw [hnil s hs] at hlast'
    cases hlast'

namespace FileTree

variable {t t' : FileTree} {p : Path} {content : Bytes} {place : Location}

theorem at?_of_resolve_vacant {purpose : Purpose} (h : t.resolve purpose p = .ok (.vacant place)) :
    t.top.at? place = none :=
  at?_of_walk_vacant (resolve_eq_ok_iff.mp h).2.2

theorem resolve_ne_link {purpose : Purpose} (hpurpose : purpose ≠ .keep) {target : Path} :
    t.resolve purpose p ≠ .ok (.entry place (.link target)) := by
  intro h
  obtain ⟨-, hnil, hwalk⟩ := resolve_eq_ok_iff.mp h
  exact walk_ne_link hpurpose (fun hsteps => absurd hsteps (Path.steps_ne_nil hnil)) hwalk

theorem exists_dir_of_resolve_vacant {purpose : Purpose}
    (h : t.resolve purpose p = .ok (.vacant place)) :
    ∃ l name es, place = l ++ [name] ∧ t.top.at? l = some (.dir es) ∧ es.lookup name = none := by
  have hnone := at?_of_resolve_vacant h
  obtain ⟨l, name, es, rfl, hdir, -⟩ :=
    vacant_of_walk (fun _ => Path.slash_not_mem_of_mem_steps) (resolve_eq_ok_iff.mp h).2.2
  rw [at?_concat hdir] at hnone
  exact ⟨l, name, es, rfl, hdir, hnone⟩

/-- What is not the top is in a directory. -/
theorem exists_dir_of_at? {e : Entry} (h : t.top.at? place = some e) (hplace : place ≠ []) :
    ∃ l name es, place = l ++ [name] ∧ t.top.at? l = some (.dir es) ∧
      es.lookup name = some e := by
  obtain ⟨l, name, rfl⟩ := (List.eq_nil_or_concat' place).resolve_left hplace
  obtain ⟨d, hd, hname⟩ := Option.bind_eq_some_iff.mp ((at?_append t.top l [name]).symm.trans h)
  obtain ⟨es, e₁, rfl, hlookup, he⟩ := exists_lookup_of_at? hname
  obtain rfl := Option.some.inj he
  exact ⟨l, name, es, rfl, hd, hlookup⟩

/-- The place of the file that a write through the path goes to, whether the file is there or has to
be made. -/
def Target (t : FileTree) (p : Path) (place : Location) : Prop :=
  t.resolve .create p = .ok (.vacant place) ∨
    ∃ old, t.resolve .create p = .ok (.entry place (.file old))

/-- A path leads to one place only. -/
theorem Target.unique {l : Location} (h : t.Target p place) (h' : t.Target p l) : place = l := by
  rcases h with h | ⟨old, h⟩ <;> rcases h' with h' | ⟨old', h'⟩
  · exact Place.vacant.inj (Except.ok.inj (h.symm.trans h'))
  · cases h.symm.trans h'
  · cases h.symm.trans h'
  · exact (Place.entry.inj (Except.ok.inj (h.symm.trans h'))).1

/-- A write that succeeds has put the content into the file that the path leads to, and has done
nothing else. -/
theorem writtenAt_of_write (h : t.write p content = .ok t') :
    ∃ place, t.Target p place ∧ t.WrittenAt place content t' := by
  unfold write at h
  split at h
  · cases h
  · cases h
  · next place e hdir hplace =>
    obtain rfl := Except.ok.inj h
    have hat := at?_of_resolve hplace
    obtain ⟨old, rfl⟩ : ∃ old, e = .file old := by
      cases e with
      | file old => exact ⟨old, rfl⟩
      | link target => exact absurd hplace (resolve_ne_link (by simp))
      | dir es => exact absurd rfl (hdir es)
    obtain ⟨l, name, es, rfl, hl, hlookup⟩ := exists_dir_of_at? hat (by rintro rfl; cases hat)
    refine ⟨_, .inr ⟨old, hplace⟩, writtenAt_update hl (fun x hx => ⟨old, ?_⟩) content⟩
    exact Option.some.inj (hx.symm.trans hlookup)
  · next place hplace =>
    obtain rfl := Except.ok.inj h
    obtain ⟨l, name, es, rfl, hl, hlookup⟩ := exists_dir_of_resolve_vacant hplace
    refine ⟨_, .inl hplace, writtenAt_update hl (fun x hx => ?_) content⟩
    cases hx.symm.trans hlookup

namespace WrittenAt

/-- The path that has been written through leads to the file. -/
theorem resolve_create (h : t.WrittenAt place content t') (hp : t.Target p place) :
    t'.resolve .create p = .ok (.entry place (.file content)) := by
  have hend := h.changedAt.resolve .create p
  have hentry : ∃ e, t'.resolve .create p = .ok (.entry place e) := by
    generalize hr : t'.resolve .create p = r at hend
    rcases hp with hp | ⟨old, hp⟩
    · rw [hp] at hend
      cases hend with
      | vacant => cases h.after.symm.trans (at?_of_resolve_vacant hr)
      | made _ content' => exact ⟨_, rfl⟩
    · rw [hp] at hend
      cases hend with
      | entry _ hs => exact ⟨_, rfl⟩
      | changed _ _ content' => exact ⟨_, rfl⟩
  obtain ⟨e, he⟩ := hentry
  rw [he, Option.some.inj ((at?_of_resolve he).symm.trans h.after)]

/-- The same write once more succeeds and changes nothing. -/
theorem write_again (h : t.WrittenAt place content t') (hp : t.Target p place) :
    t'.write p content = .ok t' := by
  rw [write, h.resolve_create hp]
  exact congrArg Except.ok (update_eq_self h.after rfl)

end WrittenAt

end FileTree

end ReferenceGraph
