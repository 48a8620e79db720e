import ReferenceGraph.Proofs.Tree.Changed

/-!
# Alike trees

A directory keeps its entries in the order in which they were made. Two trees are alike if they
have the same entries at every location, whatever the order of the entries in a directory. So they
are trees without changed files, and nothing but the order of the entries can be different at the
end of a path.

* `Entry.alike_of_perm`: two directories with the same entries in another order are alike, and
  one is well formed if the other is (`Entry.WellFormed.perm`).
* `FileTree.Alike.resolve_cases`: one path leads to alike entries of alike trees.
* `FileTree.Alike.isSourceLink`: the same for the root of a scan.
-/

namespace ReferenceGraph

/-- Both have the same entries at every location, though a directory may have them in another
order. -/
def Entry.Alike (e e' : Entry) : Prop :=
  ∀ l, (e.at? l).map shallow = (e'.at? l).map shallow

/-- Both trees have the same entries at every location and the same working directory, and the same
directories cannot be listed. -/
structure FileTree.Alike (t t' : FileTree) : Prop where
  top : t.top.Alike t'.top
  working : t.working = t'.working
  refusal : ∀ l, t.refusal? l = t'.refusal? l

namespace Entry

/-- The order of the entries does not matter for what is found at a location. -/
theorem alike_of_perm {es es' : List (FileName × Entry)} (h : es.Perm es')
    (nodup : (es.map (·.1)).Nodup) : (dir es).Alike (dir es') := by
  have nodup' : (es'.map (·.1)).Nodup := (h.map (·.1)).nodup_iff.mp nodup
  have hlookup (name : FileName) : es.lookup name = es'.lookup name := by
    refine Option.ext fun e => ?_
    rw [lookup_eq_some_iff_mem nodup, lookup_eq_some_iff_mem nodup', h.mem_iff]
  intro l
  cases l with
  | nil => rfl
  | cons name rest => rw [at?, at?, hlookup]

theorem WellFormed.perm {es es' : List (FileName × Entry)} (hes : (Entry.dir es).WellFormed)
    (h : es.Perm es') : (Entry.dir es').WellFormed := by
  cases hes with
  | dir nodup names entries =>
    exact .dir ((h.map (·.1)).nodup_iff.mp nodup) (fun p hp => names p (h.mem_iff.mpr hp))
      fun p hp => entries p (h.mem_iff.mpr hp)

namespace Alike

variable {e e' : Entry} {l : Location}

theorem symm (h : e.Alike e') : e'.Alike e := fun l => (h l).symm

theorem changedAt (h : e.Alike e') : e.ChangedAt (fun _ => False) e' :=
  ⟨fun l _ => h l, fun _ hl => hl.elim, fun _ hl => hl.elim⟩

/-- What is found at one location of alike entries is alike. -/
theorem below (h : e.Alike e') {f f' : Entry} (hl : e.at? l = some f)
    (hl' : e'.at? l = some f') : f.Alike f' := by
  intro m
  have hmap := h (l ++ m)
  rwa [at?_append, at?_append, hl, hl', Option.bind_some, Option.bind_some] at hmap

end Alike

end Entry

/-! ## Paths in alike trees -/

namespace FileTree.Alike

variable {t t' : FileTree}

theorem changedAt (h : t.Alike t') : t.ChangedAt (fun _ => False) t' :=
  ⟨h.top.changedAt, h.working.symm, fun l => (h.refusal l).symm⟩

/-- A path fails in both trees in the same way, or it is vacant in both, or it leads to alike
entries. -/
theorem resolve_cases (h : t.Alike t') (purpose : Purpose) (p : Path) :
    (∃ err, t.resolve purpose p = .error err ∧ t'.resolve purpose p = .error err) ∨
      (∃ place, t.resolve purpose p = .ok (.vacant place) ∧
        t'.resolve purpose p = .ok (.vacant place)) ∨
      ∃ place e e', t.resolve purpose p = .ok (.entry place e) ∧
        t'.resolve purpose p = .ok (.entry place e') ∧ e.Alike e' := by
  have hend := h.changedAt.resolve purpose p
  generalize hp : t.resolve purpose p = r at hend
  generalize hp' : t'.resolve purpose p = r' at hend
  cases hend with
  | error err => exact .inl ⟨err, rfl, rfl⟩
  | vacant l => exact .inr (.inl ⟨l, rfl, rfl⟩)
  | entry l hs =>
    exact .inr (.inr ⟨l, _, _, rfl, rfl, h.top.below (at?_of_resolve hp) (at?_of_resolve hp')⟩)
  | changed hl => exact hl.elim
  | made hl => exact hl.elim
  | found hl => exact hl.elim
  | blocked hl => exact hl.elim

theorem isSourceLink (h : t.Alike t') (root : Path) :
    t.isSourceLink root = t'.isSourceLink root :=
  h.changedAt.isSourceLink root

end FileTree.Alike

end ReferenceGraph
