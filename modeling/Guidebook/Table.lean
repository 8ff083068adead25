/-!
# Ordered Tables

A table holds at most one value for each key and keeps its entries in ascending order of their
keys. Two tables that answer every look-up alike are therefore the same table, however they came
about.

## Main results

* `Table.get?_insert`, `Table.get?_filter`: what the operations do to a look-up.
* `Table.mem_entries_iff`: the entries of a table are what it answers.
* `Table.ext_get?`: a table is determined by its answers.
-/

namespace Guidebook

/-- A finite map, its entries in ascending order of their keys. -/
structure Table (κ : Type) (ν : Type) [LT κ] where
  entries : List (κ × ν)
  ascending : entries.Pairwise fun a b => a.1 < b.1

namespace Table

variable {κ ν : Type}

/-! ### Lists of entries -/

/-- The value that a list of entries has for a key: that of the first entry with the key. -/
def valueIn [DecidableEq κ] (k : κ) : List (κ × ν) → Option ν
  | [] => none
  | (key, value) :: rest => if key = k then some value else valueIn k rest

/-- A list of entries with one more, before the first entry with a larger key and in place of one
with the same key. -/
def place [LT κ] [DecidableEq κ] [DecidableLT κ] (k : κ) (v : ν) : List (κ × ν) → List (κ × ν)
  | [] => [(k, v)]
  | (key, value) :: rest =>
    if k < key then (k, v) :: (key, value) :: rest
    else if key = k then (k, v) :: rest
    else (key, value) :: place k v rest

/-- Leaving out keys changes the look-up of these keys only. -/
theorem valueIn_filter [DecidableEq κ] (p : κ → Bool) (k : κ) (entries : List (κ × ν)) :
    valueIn k (entries.filter fun e => p e.1) = if p k then valueIn k entries else none := by
  induction entries with
  | nil => simp [valueIn]
  | cons head rest ih =>
    simp only [List.filter_cons, valueIn]
    grind [valueIn]

/-- What is looked up is among the entries. -/
theorem mem_of_valueIn [DecidableEq κ] {k : κ} {v : ν} {entries : List (κ × ν)}
    (h : valueIn k entries = some v) : (k, v) ∈ entries := by
  induction entries with
  | nil => simp [valueIn] at h
  | cons head rest ih =>
    simp only [valueIn] at h
    grind

variable [LT κ]

/-- What is among the entries behind an insertion has been inserted or was there before. -/
theorem mem_place [DecidableEq κ] [DecidableLT κ] {k : κ} {v : ν} {e : κ × ν}
    {entries : List (κ × ν)} (h : e ∈ place k v entries) : e = (k, v) ∨ e ∈ entries := by
  induction entries with
  | nil => simpa [place] using h
  | cons head rest ih =>
    simp only [place] at h
    grind

/-- **Look-up behind an insertion**: the new value stands at its key, and all others are what they
were. -/
theorem valueIn_place [DecidableEq κ] [DecidableLT κ] (k j : κ) (v : ν) (entries : List (κ × ν)) :
    valueIn j (place k v entries) = if k = j then some v else valueIn j entries := by
  induction entries with
  | nil => simp [place, valueIn]
  | cons head rest ih =>
    simp only [place]
    grind [valueIn]

/-- Where keys ascend, every entry can be looked up. -/
theorem valueIn_of_mem [DecidableEq κ] [Std.Irrefl (· < · : κ → κ → Prop)] {k : κ} {v : ν}
    {entries : List (κ × ν)} (ha : entries.Pairwise fun a b => a.1 < b.1)
    (h : (k, v) ∈ entries) : valueIn k entries = some v := by
  induction entries with
  | nil => simp at h
  | cons head rest ih =>
    obtain ⟨hhead, hrest⟩ := List.pairwise_cons.1 ha
    simp only [valueIn]
    rcases List.mem_cons.1 h with rfl | h
    · simp
    · have hlt : head.1 < k := hhead _ h
      split
      · next heq => exact absurd (heq ▸ hlt) (Std.Irrefl.irrefl k)
      · exact ih hrest h

/-- Ascending lists with the same members are the same list. -/
theorem eq_of_mem_iff [Std.Asymm (· < · : κ → κ → Prop)] {l m : List (κ × ν)}
    (hl : l.Pairwise fun a b => a.1 < b.1) (hm : m.Pairwise fun a b => a.1 < b.1)
    (h : ∀ e, e ∈ l ↔ e ∈ m) : l = m := by
  induction l generalizing m with
  | nil =>
    cases m with
    | nil => rfl
    | cons b m => exact absurd ((h b).2 (by simp)) (by simp)
  | cons a l ih =>
    cases m with
    | nil => exact absurd ((h a).1 (by simp)) (by simp)
    | cons b m =>
      obtain ⟨ha, hla⟩ := List.pairwise_cons.1 hl
      obtain ⟨hb, hmb⟩ := List.pairwise_cons.1 hm
      have hab : a = b := by
        rcases List.mem_cons.1 ((h a).1 (by simp)) with hab | ham
        · exact hab
        · rcases List.mem_cons.1 ((h b).2 (by simp)) with hba | hbl
          · exact hba.symm
          · exact absurd (ha b hbl) (Std.Asymm.asymm _ _ (hb a ham))
      subst hab
      have hnot : ∀ (x : List (κ × ν)), (∀ e ∈ x, a.1 < e.1) → a ∉ x :=
        fun x hx hax => Std.Asymm.asymm _ _ (hx a hax) (hx a hax)
      congr 1
      refine ih hla hmb fun e => ⟨fun he => ?_, fun he => ?_⟩
      · rcases List.mem_cons.1 ((h e).1 (List.mem_cons_of_mem _ he)) with rfl | hem
        · exact absurd he (hnot l ha)
        · exact hem
      · rcases List.mem_cons.1 ((h e).2 (List.mem_cons_of_mem _ he)) with rfl | hel
        · exact absurd he (hnot m hb)
        · exact hel

/-! ### Tables -/

instance [DecidableEq κ] [DecidableEq ν] : DecidableEq (Table κ ν) := fun s t =>
  if h : s.entries = t.entries then
    .isTrue (by cases s; cases t; cases h; rfl)
  else .isFalse fun e => h (by rw [e])

/-- The table without entries. -/
def empty : Table κ ν := ⟨[], .nil⟩

instance : EmptyCollection (Table κ ν) := ⟨empty⟩

instance : Inhabited (Table κ ν) := ⟨empty⟩

/-- The keys, in ascending order. -/
def keys (t : Table κ ν) : List κ :=
  t.entries.map (·.1)

/-- The value for a key. -/
def get? [DecidableEq κ] (t : Table κ ν) (k : κ) : Option ν :=
  valueIn k t.entries

/-- The entries whose keys satisfy `p`. -/
def filter (t : Table κ ν) (p : κ → Bool) : Table κ ν :=
  ⟨t.entries.filter fun e => p e.1, t.ascending.filter _⟩

/-- Nothing can be looked up in the empty table. -/
@[simp] theorem get?_empty [DecidableEq κ] (k : κ) : (empty : Table κ ν).get? k = none := rfl

/-- Filtering forgets the keys that fail and keeps the answers for the others. -/
theorem get?_filter [DecidableEq κ] (t : Table κ ν) (p : κ → Bool) (k : κ) :
    (t.filter p).get? k = if p k then t.get? k else none :=
  valueIn_filter p k t.entries

/-- The entries of a table are its answers. -/
theorem mem_entries_iff [DecidableEq κ] [Std.Irrefl (· < · : κ → κ → Prop)] (t : Table κ ν)
    (k : κ) (v : ν) : (k, v) ∈ t.entries ↔ t.get? k = some v :=
  ⟨valueIn_of_mem t.ascending, mem_of_valueIn⟩

/-- **Extensionality**: tables that answer every look-up alike are equal. -/
theorem ext_get? [DecidableEq κ] [Std.Irrefl (· < · : κ → κ → Prop)]
    [Std.Asymm (· < · : κ → κ → Prop)] {s t : Table κ ν} (h : ∀ k, s.get? k = t.get? k) :
    s = t := by
  have he : s.entries = t.entries := by
    refine eq_of_mem_iff s.ascending t.ascending fun e => ?_
    rw [mem_entries_iff s e.1 e.2, mem_entries_iff t e.1 e.2, h]
  cases s; cases t; cases he; rfl

/-! ### Insertion -/

variable [DecidableEq κ] [DecidableLT κ] [Trans (· < · : κ → κ → Prop) (· < ·) (· < ·)]
  [Std.Trichotomous (· < · : κ → κ → Prop)]

/-- An insertion keeps keys in ascending order. -/
theorem ascending_place (k : κ) (v : ν) {entries : List (κ × ν)}
    (h : entries.Pairwise fun a b => a.1 < b.1) :
    (place k v entries).Pairwise fun a b => a.1 < b.1 := by
  induction entries with
  | nil => simp [place]
  | cons head rest ih =>
    obtain ⟨key, value⟩ := head
    obtain ⟨hhead, hrest⟩ := List.pairwise_cons.1 h
    simp only [place]
    split
    · next hlt =>
      refine List.pairwise_cons.2 ⟨fun e he => ?_, h⟩
      rcases List.mem_cons.1 he with rfl | he
      · exact hlt
      · exact Std.lt_trans hlt (hhead e he)
    · next hlt =>
      split
      · next heq =>
        exact List.pairwise_cons.2 ⟨fun e he => by simpa [← heq] using hhead e he, hrest⟩
      · next hne =>
        refine List.pairwise_cons.2 ⟨fun e he => ?_, ih hrest⟩
        rcases mem_place he with rfl | he
        · rcases Std.lt_trichotomy key k with hk | hk | hk
          · exact hk
          · exact absurd hk hne
          · exact absurd hk hlt
        · exact hhead e he

/-- The table with `v` as the value for `k`. -/
def insert (t : Table κ ν) (k : κ) (v : ν) : Table κ ν :=
  ⟨place k v t.entries, ascending_place k v t.ascending⟩

/-- The table made by inserting the entries from left to right. -/
def ofList (entries : List (κ × ν)) : Table κ ν :=
  entries.foldl (fun t e => t.insert e.1 e.2) empty

/-- Inserting changes the answer for one key. -/
theorem get?_insert (t : Table κ ν) (k j : κ) (v : ν) :
    (t.insert k v).get? j = if k = j then some v else t.get? j :=
  valueIn_place k j v t.entries

/-- Values for different keys can be inserted in either order. -/
theorem insert_insert_of_ne [Std.Irrefl (· < · : κ → κ → Prop)]
    [Std.Asymm (· < · : κ → κ → Prop)] {j k : κ} (h : j ≠ k) (t : Table κ ν) (v w : ν) :
    (t.insert j v).insert k w = (t.insert k w).insert j v := by
  refine ext_get? fun key => ?_
  simp only [get?_insert]
  by_cases hk : k = key
  · have hj : j ≠ key := fun heq => h (heq.trans hk.symm)
    rw [if_pos hk, if_neg hj, if_pos hk]
  · rw [if_neg hk, if_neg hk]

end Table

end Guidebook
