import Mathlib.Data.List.Induction
import Mathlib.Data.List.Nodup

/-!
# First occurrences

`List.eraseDups` keeps the first occurrence of each element. The graph keeps nodes and edges that
way, so these lemmas say how first occurrences go together with appending, with `map` and with
`flatMap`.

* `eraseDups_flatMap_eraseDups`: repetitions may be dropped before each element is replaced by a
  list, if they are dropped afterwards too. `eraseDups_map_eraseDups` is the case of one element.
* `Repeats`: a list with repetitions put in. It keeps the first occurrences
  (`Repeats.eraseDups_eq`), and merging puts in repetitions only if each element put in comes after
  an equal one (`Repeats.merge`).
-/

namespace ReferenceGraph

variable {α β : Type}

section FirstOccurrences

variable [BEq α] [LawfulBEq α] [BEq β] [LawfulBEq β]

theorem removeAll_congr {xs ys : List α} (h : ∀ a, a ∈ xs ↔ a ∈ ys) (l : List α) :
    l.removeAll xs = l.removeAll ys := by
  unfold List.removeAll
  apply List.filter_congr
  intro a _
  have : xs.elem a = ys.elem a := by
    rw [Bool.eq_iff_iff]
    simpa using h a
  rw [this]

theorem removeAll_eq_nil {xs l : List α} (h : ∀ a ∈ l, a ∈ xs) : l.removeAll xs = [] := by
  unfold List.removeAll
  rw [List.filter_eq_nil_iff]
  intro a ha
  simpa using h a ha

theorem eraseDups_append_of_subset {xs l : List α} (h : ∀ a ∈ l, a ∈ xs) :
    (xs ++ l).eraseDups = xs.eraseDups := by
  rw [List.eraseDups_append, removeAll_eq_nil h, List.eraseDups_nil, List.append_nil]

/-- What stands before matters only by its first occurrences. -/
theorem eraseDups_append_congr {xs ys : List α} (h : xs.eraseDups = ys.eraseDups) (l : List α) :
    (xs ++ l).eraseDups = (ys ++ l).eraseDups := by
  have hmem : ∀ a, a ∈ xs ↔ a ∈ ys := fun a => by
    rw [← List.mem_eraseDups, h, List.mem_eraseDups]
  rw [List.eraseDups_append, List.eraseDups_append, h, removeAll_congr hmem]

theorem eraseDups_concat_of_mem {l : List α} {a : α} (h : a ∈ l) :
    (l ++ [a]).eraseDups = l.eraseDups :=
  eraseDups_append_of_subset (by simpa using h)

theorem eraseDups_concat_of_not_mem {l : List α} {a : α} (h : a ∉ l) :
    (l ++ [a]).eraseDups = l.eraseDups ++ [a] := by
  rw [List.eraseDups_append]
  simp [List.removeAll, h, List.eraseDups_cons]

theorem nodup_eraseDups (l : List α) : l.eraseDups.Nodup := by
  induction l using List.reverseRecOn with
  | nil => simp
  | append_singleton l a ih =>
    by_cases h : a ∈ l
    · rwa [eraseDups_concat_of_mem h]
    · rw [eraseDups_concat_of_not_mem h, ← List.concat_eq_append]
      exact ih.concat (by rwa [List.mem_eraseDups])

theorem eraseDups_of_nodup {l : List α} (h : l.Nodup) : l.eraseDups = l := by
  induction l with
  | nil => rfl
  | cons a l ih =>
    obtain ⟨ha, hl⟩ := List.nodup_cons.mp h
    have hf : l.filter (fun b => !b == a) = l := by
      rw [List.filter_eq_self]
      intro b hb
      have : b ≠ a := fun e => ha (e ▸ hb)
      simpa using this
    rw [List.eraseDups_cons, hf, ih hl]

@[simp] theorem eraseDups_eraseDups (l : List α) : l.eraseDups.eraseDups = l.eraseDups :=
  eraseDups_of_nodup (nodup_eraseDups l)

/-- Appending and dropping repetitions leaves a list without repetitions in its place. -/
theorem getElem?_eraseDups_append {xs : List α} (hn : xs.Nodup) {i : Nat} {a : α}
    (h : xs[i]? = some a) (l : List α) : (xs ++ l).eraseDups[i]? = some a := by
  rw [List.eraseDups_append, eraseDups_of_nodup hn,
    List.getElem?_append_left (List.getElem?_eq_some_iff.mp h).1, h]

/-- Repetitions may be dropped before each element is replaced by a list. -/
theorem eraseDups_flatMap_eraseDups (f : α → List β) (l : List α) :
    (l.eraseDups.flatMap f).eraseDups = (l.flatMap f).eraseDups := by
  induction l using List.reverseRecOn with
  | nil => rfl
  | append_singleton l a ih =>
    rw [List.flatMap_append, List.flatMap_singleton]
    by_cases h : a ∈ l
    · rw [eraseDups_concat_of_mem h, ih, eraseDups_append_of_subset]
      exact fun b hb => List.mem_flatMap.mpr ⟨a, h, hb⟩
    · rw [eraseDups_concat_of_not_mem h, List.flatMap_append, List.flatMap_singleton]
      exact eraseDups_append_congr ih (f a)

theorem eraseDups_map_eraseDups (f : α → β) (l : List α) :
    (l.eraseDups.map f).eraseDups = (l.map f).eraseDups := by
  have h := eraseDups_flatMap_eraseDups (fun a => [f a]) l
  rwa [← List.map_eq_flatMap, ← List.map_eq_flatMap] at h

theorem eraseDups_map_congr (f : α → β) {l m : List α} (h : l.eraseDups = m.eraseDups) :
    (l.map f).eraseDups = (m.map f).eraseDups := by
  rw [← eraseDups_map_eraseDups f l, h, eraseDups_map_eraseDups]

end FirstOccurrences

/-! ## Repetitions put in -/

/-- `l'` is `l` with further elements put in, each of which is one of `seen` or stands further in
front in `l`. -/
inductive Repeats : (seen l l' : List α) → Prop
  | nil (seen : List α) : Repeats seen [] []
  | keep {seen l l' : List α} (a : α) (h : Repeats (seen ++ [a]) l l') :
    Repeats seen (a :: l) (a :: l')
  | put {seen l l' : List α} {a : α} (ha : a ∈ seen) (h : Repeats seen l l') :
    Repeats seen l (a :: l')

namespace Repeats

variable {seen l l' : List α}

@[refl] theorem refl (seen l : List α) : Repeats seen l l := by
  induction l generalizing seen with
  | nil => exact nil seen
  | cons a l ih => exact keep a (ih _)

theorem of_subset (h : ∀ a ∈ l, a ∈ seen) : Repeats seen [] l := by
  induction l with
  | nil => exact nil seen
  | cons a l ih => exact put (h a (by simp)) (ih fun b hb => h b (by simp [hb]))

theorem append (h : Repeats seen l l') {m m' : List α} (hm : Repeats (seen ++ l) m m') :
    Repeats seen (l ++ m) (l' ++ m') := by
  induction h with
  | nil => simpa using hm
  | keep a _ ih => exact keep a (ih (by simpa using hm))
  | put ha _ ih => exact put ha (ih hm)

theorem filter (p : α → Bool) (h : Repeats seen l l') :
    Repeats (seen.filter p) (l.filter p) (l'.filter p) := by
  induction h with
  | nil => exact nil _
  | @keep seen l l' a _ ih =>
    by_cases hp : p a
    · simp only [List.filter_append, List.filter_cons, hp, if_true, List.filter_nil] at ih ⊢
      exact keep a ih
    · simpa [hp] using ih
  | @put seen l l' a ha _ ih =>
    by_cases hp : p a
    · simp only [List.filter_cons, hp, if_true]
      exact put (List.mem_filter.mpr ⟨ha, hp⟩) ih
    · simpa [hp] using ih

/-- Elements put in do not change the first occurrences. -/
theorem eraseDups_eq [BEq α] [LawfulBEq α] (h : Repeats seen l l') :
    (seen ++ l').eraseDups = (seen ++ l).eraseDups := by
  induction h with
  | nil => rfl
  | @keep seen l l' a _ ih => simpa using ih
  | @put seen l l' a ha _ ih =>
    rw [List.append_cons, eraseDups_append_congr (eraseDups_concat_of_mem ha), ih]

/-- Merging by a key puts in repetitions, if each element put in has an equal one that is among
`seen` or has no greater key. -/
theorem merge {xs : List (Nat × α)} (hxs : xs.Pairwise fun x y => x.1 ≤ y.1)
    {ys : List (Nat × α)} (h : ∀ y ∈ ys, y.2 ∈ seen ∨ ∃ x ∈ xs, x.1 ≤ y.1 ∧ x.2 = y.2) :
    Repeats seen (xs.map (·.2)) ((xs.merge ys fun x y => decide (x.1 ≤ y.1)).map (·.2)) := by
  induction xs generalizing seen ys with
  | nil =>
    rw [List.nil_merge]
    apply of_subset
    simpa using fun a i hi => h (i, a) hi
  | cons x xs ih =>
    obtain ⟨hx, hxs⟩ := List.pairwise_cons.mp hxs
    induction ys with
    | nil =>
      rw [List.merge_right]
    | cons y ys ihy =>
      by_cases hxy : x.1 ≤ y.1
      · -- `x` comes first, and counts as seen from there on.
        rw [List.cons_merge_cons_pos _ _ _ (by simpa using hxy)]
        refine keep x.2 (ih hxs fun z hz => ?_)
        rcases h z hz with hs | ⟨w, hw, hwz, he⟩
        · exact .inl (List.mem_append_left _ hs)
        · rcases List.mem_cons.mp hw with rfl | hw
          · exact .inl (by simp [he])
          · exact .inr ⟨w, hw, hwz, he⟩
      · -- `y` comes before all of `x :: xs`, so it is one of `seen`.
        rw [List.cons_merge_cons_neg _ _ _ (by simpa using hxy)]
        refine put ?_ (ihy fun z hz => h z (List.mem_cons_of_mem y hz))
        rcases h y (by simp) with hs | ⟨w, hw, hwy, -⟩
        · exact hs
        · rcases List.mem_cons.mp hw with rfl | hw
          · exact absurd hwy hxy
          · exact absurd (Nat.le_trans (hx w hw) hwy) hxy

end Repeats

end ReferenceGraph
