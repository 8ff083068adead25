import Guidebook.Proofs.Scan.Findings

/-!
# Subtrees

What lies beneath a directory is a tree of its own, in which the names lead from the directory. It
lists what the directories list, and what is put into a directory beneath is put into the subtree.

## Main results

* `FileTree.entryAt?_subtree`: **what lies in a subtree**.
* `FileTree.namesIn_subtree`: what its directories list.
* `FileTree.subtree_put`: what is put beneath a directory is put into its subtree.
-/

namespace Guidebook

namespace Location

/-- The names that lead from `place` to what lies beneath it. -/
def namesFrom? (place other : Location) : Option Location :=
  match place.isPrefixOf? other with
  | some [] => none
  | rest => rest

/-- Names lead from a place to another exactly if the second lies at them beneath the first. -/
theorem namesFrom?_eq_some_iff {place other names : Location} :
    namesFrom? place other = some names ↔ names ≠ [] ∧ other = place ++ names := by
  rw [namesFrom?]
  constructor
  · intro h
    split at h
    · cases h
    · next hne =>
      refine ⟨?_, (List.isPrefixOf?_eq_some_iff_append_eq.1 h).symm⟩
      rintro rfl
      exact hne h
  · rintro ⟨hne, rfl⟩
    rw [List.isPrefixOf?_eq_some_iff_append_eq.2 rfl]
    split
    · next hnil => exact absurd (Option.some.inj hnil) hne
    · rfl

/-- Locations beneath a place are in the order of the names that lead there. -/
theorem append_lt_append_iff {place first second : Location} :
    place ++ first < place ++ second ↔ first < second := by
  induction place with
  | nil => rfl
  | cons name place ih => simpa using ih

end Location

namespace FileTree

variable {tree : FileTree} {place : Location}

/-- The entries beneath a place, by the names that lead there. -/
def entriesBeneath (tree : FileTree) (place : Location) : Table Location Entry where
  entries := tree.entries.entries.filterMap fun entry =>
    (place.namesFrom? entry.1).map fun names => (names, entry.2)
  ascending := by
    refine tree.entries.ascending.filterMap _ fun a b hlt c hc d hd => ?_
    obtain ⟨names, hnames, rfl⟩ := Option.map_eq_some_iff.1 hc
    obtain ⟨others, hothers, rfl⟩ := Option.map_eq_some_iff.1 hd
    rw [(Location.namesFrom?_eq_some_iff.1 hnames).2,
      (Location.namesFrom?_eq_some_iff.1 hothers).2] at hlt
    exact Location.append_lt_append_iff.1 hlt

/-- What is looked up beneath a place is looked up behind it. -/
theorem get?_entriesBeneath (tree : FileTree) (place : Location) (names : List Text) :
    (tree.entriesBeneath place).get? names =
      if names = [] then none else tree.entries.get? (place ++ names) := by
  refine Option.ext fun entry => ?_
  rw [← Table.mem_entries_iff, entriesBeneath, List.mem_filterMap]
  constructor
  · rintro ⟨⟨key, value⟩, hentry, hnames⟩
    obtain ⟨found, hfound, heq⟩ := Option.map_eq_some_iff.1 hnames
    obtain ⟨rfl, rfl⟩ := Prod.mk.inj heq
    obtain ⟨hne, rfl⟩ := Location.namesFrom?_eq_some_iff.1 hfound
    rw [if_neg hne, ← Table.mem_entries_iff]
    exact hentry
  · intro hentry
    split at hentry
    · cases hentry
    · next hne =>
      exact ⟨_, (Table.mem_entries_iff _ _ _).2 hentry,
        by rw [Location.namesFrom?_eq_some_iff.2 ⟨hne, rfl⟩]; rfl⟩

/-- The tree beneath a place. -/
def subtree (tree : FileTree) (place : Location) : FileTree where
  entries := tree.entriesBeneath place
  rootless := by rw [get?_entriesBeneath, if_pos rfl]
  closed := by
    intro names name hsome
    by_cases hne : names = []
    · exact .inl hne
    · right
      rw [get?_entriesBeneath, if_neg (by simp), ← List.append_assoc] at hsome
      rw [get?_entriesBeneath, if_neg hne]
      exact (tree.closed _ _ hsome).resolve_left (by simp [hne])

/-- **What lies in a subtree** lies beneath its place. -/
theorem entryAt?_subtree (h : tree.entryAt? place = some .directory) (names : List Text) :
    (tree.subtree place).entryAt? names = tree.entryAt? (place ++ names) := by
  by_cases hne : names = []
  · subst hne
    rw [entryAt?_root, List.append_nil, h]
  · rw [entryAt?, entryAt?, if_neg hne, if_neg (by simp [hne])]
    exact (get?_entriesBeneath tree place names).trans (if_neg hne)

/-- The directories of a subtree list what they list. -/
theorem namesIn_subtree (tree : FileTree) (place : Location) (names : List Text) :
    (tree.subtree place).namesIn names = tree.namesIn (place ++ names) := by
  simp only [namesIn, subtree, Table.keys, entriesBeneath, List.filterMap_map,
    List.filterMap_filterMap]
  refine List.filterMap_congr fun entry _ => Option.ext fun name => ?_
  simp only [Option.bind_eq_some_iff, Option.map_eq_some_iff, Function.comp_apply,
    nameIn?_eq_some_iff]
  constructor
  · rintro ⟨_, ⟨found, hfound, rfl⟩, rfl⟩
    rw [(Location.namesFrom?_eq_some_iff.1 hfound).2, List.append_assoc]
  · intro hname
    exact ⟨(names ++ [name], entry.2), ⟨_, Location.namesFrom?_eq_some_iff.2
      ⟨by simp, by rw [hname, List.append_assoc]⟩, rfl⟩, rfl⟩

/-- **What is put beneath a directory** is put into its subtree. -/
theorem subtree_put (h : tree.entryAt? place = some .directory) (names : List Text) (name : Text)
    (entry : Entry) :
    (tree.put (place ++ names) name entry).subtree place =
      (tree.subtree place).put names name entry := by
  have hname : (tree.subtree place).entryAt? (names ++ [name]) =
      tree.entryAt? (place ++ names ++ [name]) := by
    rw [entryAt?_subtree h, List.append_assoc]
  by_cases hput : tree.entryAt? (place ++ names) = some .directory ∧
      (tree.entryAt? (place ++ names ++ [name]) = some .directory → entry = .directory)
  · have hplace : (tree.put (place ++ names) name entry).entryAt? place = some .directory := by
      rw [entryAt?_put tree hput.1 hput.2, if_neg, h]
      intro heq
      have hlength := congrArg List.length heq
      simp at hlength
    refine ext_entryAt? fun others => ?_
    rw [entryAt?_subtree hplace, entryAt?_put tree hput.1 hput.2,
      entryAt?_put _ ((entryAt?_subtree h names).trans hput.1) (hname ▸ hput.2),
      entryAt?_subtree h]
    simp only [List.append_assoc, List.append_cancel_left_eq]
  · rw [put, dif_neg hput, put, dif_neg]
    rwa [entryAt?_subtree h, hname]

end FileTree

end Guidebook
