import Mathlib.Data.List.Forall2

/-!
# Item by Item

What can fail for an item is done for the items of a list one after the other, up to the first
failure. It succeeds if it does so for each item, with the results of the items as its results; and
if it fails, then with the failure of an item.

## Main results

* `mapM_eq_ok_iff`: success for a list is **success for each item**.
* `exists_error_of_mapM`: a failure for a list is the failure for an item.
* `exists_forall₂_iff`: items are related to a list if each is related to something.
-/

namespace Guidebook

variable {α β γ ε : Type} {f : α → Except ε β} {items : List α}

/-! ### One after the other -/

/-- What goes on behind something succeeds if both do. -/
theorem bind_eq_ok_iff {x : Except ε α} {b : β} :
    (x >>= f) = .ok b ↔ ∃ a, x = .ok a ∧ f a = .ok b := by
  cases x <;> simp [bind, Except.bind]

/-- What goes on behind something fails if the first does, or what is behind its value. -/
theorem bind_eq_error_iff {x : Except ε α} {e : ε} :
    (x >>= f) = .error e ↔ x = .error e ∨ ∃ a, x = .ok a ∧ f a = .error e := by
  cases x <;> simp [bind, Except.bind]

/-! ### Lists -/

/-- **Items are related to a list** exactly if each of them is related to something. -/
theorem exists_forall₂_iff {relation : α → β → Prop} :
    (∃ results, List.Forall₂ relation items results) ↔ ∀ a ∈ items, ∃ b, relation a b := by
  constructor
  · rintro ⟨results, h⟩ a ha
    obtain ⟨index, hindex, rfl⟩ := List.getElem_of_mem ha
    exact ⟨_, h.get hindex (h.length_eq ▸ hindex)⟩
  · intro h
    induction items with
    | nil => exact ⟨[], .nil⟩
    | cons a items ih =>
        obtain ⟨⟨b, hb⟩, hrest⟩ := List.forall_mem_cons.1 h
        obtain ⟨results, hresults⟩ := ih hrest
        exact ⟨b :: results, .cons hb hresults⟩

/-- **Success for a list** is success for each item. -/
theorem mapM_eq_ok_iff {results : List β} :
    items.mapM f = .ok results ↔ List.Forall₂ (fun a b => f a = .ok b) items results := by
  induction items generalizing results with
  | nil =>
      rw [List.mapM_nil, List.forall₂_nil_left_iff]
      exact ⟨fun h => (Except.ok.inj h).symm, fun h => h ▸ rfl⟩
  | cons a items ih =>
      simp only [List.mapM_cons, bind_eq_ok_iff, ih, List.forall₂_cons_left_iff]
      constructor
      · rintro ⟨b, hb, rest, hrest, hresults⟩
        exact ⟨b, rest, hb, hrest, (Except.ok.inj hresults).symm⟩
      · rintro ⟨b, rest, hb, hrest, rfl⟩
        exact ⟨b, hb, rest, hrest, rfl⟩

/-- Where something holds of the result for each item, it holds of the results. -/
theorem exists_mapM {relation : α → β → Prop}
    (h : ∀ a ∈ items, ∃ b, f a = .ok b ∧ relation a b) :
    ∃ results, items.mapM f = .ok results ∧ List.Forall₂ relation items results := by
  obtain ⟨results, hresults⟩ := exists_forall₂_iff.2 h
  exact ⟨results, mapM_eq_ok_iff.2 (hresults.imp fun _ _ hb => hb.1),
    hresults.imp fun _ _ hb => hb.2⟩

/-- Where each item has a result, the list has their results. -/
theorem mapM_ok {g : α → β} (h : ∀ a ∈ items, f a = .ok (g a)) :
    items.mapM f = .ok (items.map g) := by
  rw [mapM_eq_ok_iff, List.forall₂_map_right_iff, List.forall₂_same]
  exact h

/-- Where each part of each item has a result, the list of all parts has their results. -/
theorem mapM_flatMap_ok {f : β → Except ε γ} {g : α → List β} {k : α → β → γ}
    (h : ∀ a ∈ items, ∀ b ∈ g a, f b = .ok (k a b)) :
    (items.flatMap g).mapM f = .ok (items.flatMap fun a => (g a).map (k a)) := by
  induction items with
  | nil => rfl
  | cons a items ih =>
      rw [List.flatMap_cons, List.mapM_append, mapM_ok (h a List.mem_cons_self),
        ih fun b hb => h b (List.mem_cons_of_mem _ hb)]
      rfl

/-- The same is done for a list if it is done for each item. -/
theorem mapM_congr {g : α → Except ε β} (h : ∀ a ∈ items, f a = g a) :
    items.mapM f = items.mapM g := by
  induction items with
  | nil => rfl
  | cons a items ih =>
      rw [List.mapM_cons, List.mapM_cons, h a List.mem_cons_self,
        ih fun b hb => h b (List.mem_cons_of_mem _ hb)]

/-- **A failure for a list** is the failure for an item. -/
theorem exists_error_of_mapM {e : ε} (h : items.mapM f = .error e) :
    ∃ a ∈ items, f a = .error e := by
  induction items with
  | nil => simp [pure, Except.pure] at h
  | cons a items ih =>
      simp only [List.mapM_cons, bind_eq_error_iff] at h
      rcases h with ha | ⟨b, -, hrest | ⟨rest, -, hpure⟩⟩
      · exact ⟨a, List.mem_cons_self, ha⟩
      · obtain ⟨other, hother, hfailed⟩ := ih hrest
        exact ⟨other, List.mem_cons_of_mem _ hother, hfailed⟩
      · cases hpure

end Guidebook
