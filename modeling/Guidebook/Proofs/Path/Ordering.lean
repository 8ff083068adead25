import Guidebook.Path.Basic
import Mathlib.Data.Char
import Mathlib.Data.List.Lex

/-!
# Paths in Order

The order of components is a strict linear order, and so is that of lists of components from left to
right. Two paths of which neither comes before the other have the same components. Sorting puts
paths in ascending order: none comes before one that stands in front of it, and if all of them have
different components, each comes before those behind it.

What two paths begin with makes no difference to their order if it is the same.

## Main results

* `Path.before_iff_lex`: the order of paths, said of their components.
* `Path.before_append`: what paths begin with makes no difference.
* `Path.pairwise_sort`, `Path.ascending_sort`: **sorted paths are in ascending order**.
* `Path.eq_of_ascending`: paths in ascending order are determined by which they are.
* `Path.exists_sort_map`: paths whose order is the same are sorted in the same way.
-/

namespace Guidebook

/-! ### Components -/

namespace Component

instance : Std.Asymm fun c d : Component => c.before d = true where
  asymm := by
    intro c d h
    cases c <;> cases d <;> simp_all [before]
    exact le_of_lt h

instance : Std.Trichotomous fun c d : Component => c.before d = true where
  trichotomous := by
    intro c d hcd hdc
    cases c <;> cases d <;> simp_all [before]
    exact le_antisymm hdc hcd

instance : IsOrderConnected Component fun c d => c.before d = true where
  conn := by
    intro c d e h
    cases c <;> cases d <;> cases e <;> simp_all [before]
    exact (lt_or_ge _ _).imp_right fun hle => lt_of_le_of_lt hle h

end Component

/-! ### Paths -/

namespace Path

variable {p q r : Path}

/-- **The order of paths**, said of their components. -/
theorem before_iff_lex : p.before q = true ↔
    List.Lex (fun c d : Component => c.before d = true) p.components q.components := by
  rw [before, List.lex_eq_true_iff_lex]

/-- Of two paths, at most one comes before the other. -/
theorem not_before_of_before (h : p.before q = true) : q.before p = false := by
  rw [Bool.eq_false_iff, Ne, before_iff_lex]
  exact asymm_of (List.Lex fun c d : Component => c.before d = true) (before_iff_lex.1 h)

/-- What comes before a path comes before each other path, or that before it. -/
theorem before_or_before (h : p.before r = true) (q : Path) :
    p.before q = true ∨ q.before r = true := by
  simp only [before_iff_lex] at h ⊢
  exact IsOrderConnected.conn _ q.components _ h

/-- Of paths with different components, one comes before the other. -/
theorem before_of_not_before (h : q.before p = false) (hne : p.components ≠ q.components) :
    p.before q = true := by
  by_contra hnot
  rw [Bool.eq_false_iff, Ne] at h
  rw [before_iff_lex] at h hnot
  exact hne (Std.Trichotomous.trichotomous _ _ hnot h)

/-- **What paths begin with** makes no difference to their order. -/
theorem before_append {front first second : List Component} (hp : p.components = front ++ first)
    (hq : q.components = front ++ second) :
    p.before q = List.lex first second Component.before := by
  rw [before, hp, hq]
  clear hp hq
  induction front with
  | nil => rfl
  | cons c front ih =>
      have hself : c.before c = false :=
        Bool.eq_false_iff.2 (irrefl_of (fun c d : Component => c.before d = true) c)
      rw [List.cons_append, List.cons_append, List.lex, hself, ih]
      simp

/-! ### Sorting -/

/-- A path that is inserted is added. -/
theorem perm_insertInOrder (p : Path) (paths : List Path) :
    (insertInOrder p paths).Perm (p :: paths) := by
  induction paths with
  | nil => exact .refl _
  | cons q paths ih =>
      rw [insertInOrder]
      split
      · exact (ih.cons q).trans (.swap p q paths)
      · exact .refl _

/-- Sorting paths leaves them the same, in another order. -/
theorem perm_sort (paths : List Path) : (sort paths).Perm paths := by
  induction paths with
  | nil => exact .nil
  | cons p paths ih => exact (perm_insertInOrder p _).trans (ih.cons p)

/-- **A path is inserted in order**: ascending paths stay so. -/
theorem pairwise_insertInOrder (p : Path) {paths : List Path}
    (h : paths.Pairwise fun q r => r.before q = false) :
    (insertInOrder p paths).Pairwise fun q r => r.before q = false := by
  induction paths with
  | nil => exact List.pairwise_singleton _ _
  | cons q paths ih =>
      obtain ⟨hq, hpaths⟩ := List.pairwise_cons.1 h
      rw [insertInOrder]
      split
      · next hbefore =>
        refine List.pairwise_cons.2 ⟨fun r hr => ?_, ih hpaths⟩
        rcases List.mem_cons.1 ((perm_insertInOrder p paths).mem_iff.1 hr) with rfl | hr
        · exact not_before_of_before hbefore
        · exact hq r hr
      · next hbefore =>
        refine List.pairwise_cons.2 ⟨fun r hr => ?_, h⟩
        rcases List.mem_cons.1 hr with rfl | hr
        · exact Bool.eq_false_iff.2 hbefore
        · refine Bool.eq_false_iff.2 fun hrp => ?_
          rcases before_or_before hrp q with habsurd | habsurd
          · exact absurd habsurd (Bool.eq_false_iff.1 (hq r hr))
          · exact hbefore habsurd

/-- **Sorted paths are in ascending order**: none comes before one in front of it. -/
theorem pairwise_sort (paths : List Path) :
    (sort paths).Pairwise fun q r => r.before q = false := by
  induction paths with
  | nil => exact .nil
  | cons p paths ih => exact pairwise_insertInOrder p ih

/-- Where all paths have different components, each comes before those behind it. -/
theorem ascending_sort {paths : List Path} (h : (paths.map components).Nodup) :
    (sort paths).Pairwise fun q r => q.before r = true := by
  have hnodup : (sort paths).Pairwise fun q r => q.components ≠ r.components :=
    List.pairwise_map.1 (((perm_sort paths).map components).nodup_iff.2 h)
  exact ((pairwise_sort paths).and hnodup).imp fun ⟨hnot, hne⟩ => before_of_not_before hnot hne

/-- Paths in ascending order are determined by which paths they are. -/
theorem eq_of_ascending {first second : List Path}
    (hfirst : first.Pairwise fun p q => p.before q = true)
    (hsecond : second.Pairwise fun p q => p.before q = true)
    (h : ∀ p, p ∈ first ↔ p ∈ second) : first = second := by
  have hne : ∀ p q : Path, p.before q = true → p ≠ q := by
    rintro p _ hbefore rfl
    exact absurd (not_before_of_before hbefore) (by simp [hbefore])
  have hperm : first.Perm second :=
    (List.perm_ext_iff_of_nodup (hfirst.imp (hne _ _)) (hsecond.imp (hne _ _))).2 h
  refine hperm.eq_of_pairwise (fun p q _ _ hpq hqp => ?_) hfirst hsecond
  exact absurd (not_before_of_before hpq) (by simp [hqp])

/-- **Paths whose order is the same** are sorted in the same way. -/
theorem exists_sort_map {α : Type} {f g : α → Path} {items : List α}
    (h : ∀ a ∈ items, ∀ b ∈ items, (f a).before (f b) = (g a).before (g b)) :
    ∃ sorted : List α, sorted.Perm items ∧ sort (items.map f) = sorted.map f ∧
      sort (items.map g) = sorted.map g := by
  have hinsert : ∀ (a : α) (rest : List α),
      (∀ b ∈ rest, (f b).before (f a) = (g b).before (g a)) →
      ∃ more : List α, more.Perm (a :: rest) ∧ insertInOrder (f a) (rest.map f) = more.map f ∧
        insertInOrder (g a) (rest.map g) = more.map g := by
    intro a rest hrest
    induction rest with
    | nil => exact ⟨[a], .refl _, rfl, rfl⟩
    | cons b rest ih =>
        obtain ⟨hb, hrest⟩ := List.forall_mem_cons.1 hrest
        simp only [List.map_cons, insertInOrder, ← hb]
        split
        · obtain ⟨more, hperm, hf, hg⟩ := ih hrest
          exact ⟨b :: more, (hperm.cons b).trans (.swap a b rest), congrArg (f b :: ·) hf,
            congrArg (g b :: ·) hg⟩
        · exact ⟨a :: b :: rest, .refl _, rfl, rfl⟩
  induction items with
  | nil => exact ⟨[], .nil, rfl, rfl⟩
  | cons a items ih =>
      obtain ⟨sorted, hperm, hf, hg⟩ := ih fun b hb c hc =>
        h b (List.mem_cons_of_mem _ hb) c (List.mem_cons_of_mem _ hc)
      obtain ⟨more, hmore, hmoreF, hmoreG⟩ := hinsert a sorted fun b hb =>
        h b (List.mem_cons_of_mem _ (hperm.mem_iff.1 hb)) a List.mem_cons_self
      refine ⟨more, hmore.trans (hperm.cons a), ?_, ?_⟩
      · rw [← hmoreF, ← hf]
        rfl
      · rw [← hmoreG, ← hg]
        rfl

end Path

end Guidebook
