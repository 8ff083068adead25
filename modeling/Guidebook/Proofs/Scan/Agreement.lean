import Guidebook.Command.Run
import Guidebook.Proofs.FileTree.Agreement
import Guidebook.Proofs.ItemByItem
import Guidebook.Proofs.Scan.Findings
import Mathlib.Data.List.Perm.Subperm

/-!
# Scans That Agree

A scan depends on nothing but the directories and what lies beneath its root. The depth to which it
goes is bounded by the number of entries of the whole tree, and so by more than lies beneath the
root; but it is always enough for all that is there, and beyond that it makes no difference.

The classes of programs depend on the same and on nothing else, since they are read off the programs
that a scan finds.

## Main results

* `FileTree.namesIn_congr`: a directory lists the same if it holds the same.
* `Scan.filesIn_of_le`: **the depth of a scan** makes no difference if it is enough.
* `Scan.files_below_congr`: **scans find the same** where the same lies beneath the root.
* `Command.runClassNames_congr`: the classes of programs are then the same.
-/

namespace Guidebook

/-! ### Listings -/

namespace FileTree

variable {tree other : FileTree} {place : Location}

/-- A directory lists what is left of the tree when all else is taken out of it. -/
theorem namesIn_eq_filter (tree : FileTree) (place : Location) :
    tree.namesIn place =
      (tree.entries.filter fun key => (nameIn? place key).isSome).keys.filterMap
        (nameIn? place) := by
  rw [namesIn, Table.keys, Table.keys, Table.filter, List.filterMap_map, List.filterMap_map,
    List.filterMap_filter]
  refine List.filterMap_congr fun entry _ => ?_
  cases hname : nameIn? place entry.1 with
  | none => simp [hname]
  | some name => simp [hname]

/-- **A directory lists the same** in two trees if it holds the same. -/
theorem namesIn_congr
    (h : ∀ name, other.entryAt? (place ++ [name]) = tree.entryAt? (place ++ [name])) :
    other.namesIn place = tree.namesIn place := by
  have hfilter : (other.entries.filter fun key => (nameIn? place key).isSome) =
      tree.entries.filter fun key => (nameIn? place key).isSome := by
    refine Table.ext_get? fun key => ?_
    rw [Table.get?_filter, Table.get?_filter]
    split
    · next hchild =>
      obtain ⟨name, hname⟩ := Option.isSome_iff_exists.1 hchild
      obtain rfl := nameIn?_eq_some_iff.1 hname
      simpa [entryAt?] using h name
    · rfl
  rw [namesIn_eq_filter, namesIn_eq_filter, hfilter]

/-! ### How deep a tree is -/

/-- On the way to what is there, something is there. -/
theorem isSome_entryAt?_take (h : (tree.entryAt? place).isSome) (n : Nat) :
    (tree.entryAt? (place.take n)).isSome := by
  induction place using List.reverseRecOn with
  | nil => simp
  | append_singleton place name ih =>
      rcases Nat.lt_or_ge place.length n with hn | hn
      · rwa [List.take_of_length_le (by rw [List.length_append]; exact hn)]
      · rw [List.take_append_of_le_length hn]
        exact ih (by rw [tree.entryAt?_parent h]; rfl)

/-- What is there lies no deeper than there are entries: each directory on the way is one. -/
theorem length_le (h : (tree.entryAt? place).isSome) :
    place.length ≤ tree.entries.entries.length := by
  have hkeys : (List.range place.length).map (fun n => place.take (n + 1)) ⊆
      tree.entries.keys := by
    intro front hfront
    obtain ⟨n, hn, rfl⟩ := List.mem_map.1 hfront
    have hsome := isSome_entryAt?_take h (n + 1)
    have hne : place.take (n + 1) ≠ [] := by
      refine List.ne_nil_of_length_pos ?_
      rw [List.length_take]
      have := List.mem_range.1 hn
      omega
    rw [entryAt?, if_neg hne] at hsome
    exact (Table.mem_keys_iff _ _).2 hsome
  have hnodup : ((List.range place.length).map fun n => place.take (n + 1)).Nodup := by
    refine List.nodup_range.map_on fun i hi j hj heq => ?_
    have hlength := congrArg List.length heq
    rw [List.length_take, List.length_take] at hlength
    rw [List.mem_range] at hi hj
    omega
  have hle := (List.subperm_of_subset hnodup hkeys).length_le
  simpa [Table.keys] using hle

end FileTree

/-! ### The depth of scans -/

namespace Scan

section Depth

variable {fs : FileSystem} {exclude : ExcludeSet} {root dir : Path} {depth more : Nat}

/-- What lies beneath the directory lies less than `depth` levels deeper. -/
def Enough (fs : FileSystem) (depth : Nat) (dir : Path) : Prop :=
  ∀ place, (fs.tree.entryAt? place).isSome → dir.resolve fs.here <+: place →
    place.length < (dir.resolve fs.here).length + depth

/-- The depth of a scan is enough for any directory. -/
theorem enough_depthBound (fs : FileSystem) (dir : Path) : Enough fs (depthBound fs) dir := by
  intro place hplace _
  have hle := FileTree.length_le hplace
  rw [depthBound]
  omega

/-- What is enough for a directory is enough, one level less, for the directories in it. -/
theorem Enough.join (h : Enough fs (depth + 1) dir) {name : Text} (hname : Path.IsFileName name) :
    Enough fs depth (dir.join ⟨name⟩) := by
  intro place hplace hbelow
  rw [Path.resolve_file dir hname] at hbelow ⊢
  have hlt := h place hplace ((List.prefix_append _ _).trans hbelow)
  rw [List.length_append, List.length_singleton]
  omega

/-- **The depth of a scan** makes no difference if it is enough. -/
theorem filesIn_of_le (hnamed : fs.WellNamed) (henough : Enough fs depth dir)
    (hle : depth ≤ more) :
    filesIn fs exclude root more dir = filesIn fs exclude root depth dir := by
  induction depth generalizing more dir with
  | zero =>
      -- There is nothing at all, so there is no directory.
      cases more with
      | zero => rfl
      | succ more =>
          rw [filesIn, filesIn, if_neg]
          intro hdirectory
          obtain ⟨-, hne, hway⟩ := FileSystem.isDirectory_iff.1 hdirectory
          have hthere := hway _ (Path.resolve_mem_way hne fs.here)
          have habsurd := henough _ (by rw [hthere]; rfl) List.prefix_rfl
          omega
  | succ depth ih =>
      obtain ⟨more, rfl⟩ : ∃ n, more = n + 1 := ⟨more - 1, by omega⟩
      rw [filesIn, filesIn]
      split
      · refine List.flatMap_congr fun name hname => ?_
        have hinside := ih (henough.join (isFileName_of_mem_namesIn hnamed hname))
          (Nat.le_of_succ_le_succ hle)
        rw [filesAt, filesAt, hinside]
      · rfl

end Depth

/-! ### Scans in two file systems -/

section Agreement

variable {spared : Location → Prop} {fs other : FileSystem} {exclude : ExcludeSet}
  {root dir path : Path} {found there : Scan}

/-- The same lies beneath a path. -/
def SameBelow (fs other : FileSystem) (dir : Path) : Prop :=
  ∀ place, dir.resolve fs.here <+: place → other.tree.entryAt? place = fs.tree.entryAt? place

/-- Where the same lies beneath a path, the same lies beneath what is in it. -/
theorem SameBelow.join (h : SameBelow fs other dir) {name : Text} (hname : Path.IsFileName name) :
    SameBelow fs other (dir.join ⟨name⟩) := by
  intro place hplace
  rw [Path.resolve_file dir hname] at hplace
  exact h place ((List.prefix_append _ _).trans hplace)

/-- A scan finds the same in a directory that holds the same. -/
theorem filesIn_congr (hnamed : fs.WellNamed) (hsame : fs.SameBut spared other)
    (h : SameBelow fs other dir) (depth : Nat) :
    filesIn other exclude root depth dir = filesIn fs exclude root depth dir := by
  induction depth generalizing dir with
  | zero => rfl
  | succ depth ih =>
      have hnames : other.tree.namesIn (dir.resolve other.here) =
          fs.tree.namesIn (dir.resolve fs.here) := by
        rw [hsame.here]
        exact FileTree.namesIn_congr fun name => h _ (List.prefix_append _ _)
      rw [filesIn, filesIn, hsame.isDirectory_eq, hnames]
      split
      · refine List.flatMap_congr fun name hname => ?_
        have hbelow := h.join (isFileName_of_mem_namesIn hnamed hname)
        rw [filesAt, filesAt, hsame.isDirectory_eq, hsame.isFile_eq (hbelow _ List.prefix_rfl),
          ih hbelow]
      · rfl

/-- **Scans find the same** where the same lies beneath the root. -/
theorem files_below_congr (hnamed : fs.WellNamed) (hnames : other.WellNamed)
    (hsame : fs.SameBut spared other) (h : SameBelow fs other root)
    (hfound : below fs root exclude = .ok found) (hthere : below other root exclude = .ok there) :
    there.files = found.files := by
  obtain ⟨events, hfiles⟩ := files_below fs root exclude
  obtain ⟨more, hmore⟩ := files_below other root exclude
  rw [hfiles] at hfound
  rw [hmore] at hthere
  obtain rfl := Except.ok.inj hfound
  obtain rfl := Except.ok.inj hthere
  have hdeep : filesIn other exclude root (max (depthBound fs) (depthBound other)) root =
      filesIn fs exclude root (max (depthBound fs) (depthBound other)) root :=
    filesIn_congr hnamed hsame h _
  rw [filesIn_of_le hnamed (enough_depthBound fs root) (Nat.le_max_left _ _),
    filesIn_of_le hnames (enough_depthBound other root) (Nat.le_max_right _ _)] at hdeep
  exact congrArg Path.sort hdeep

end Agreement

end Scan

/-! ### The classes of programs -/

section Classes

variable {spared : Location → Prop} {fs other : FileSystem} {root : Path} {exclude : ExcludeSet}
  {found : Scan}

/-- The programs that a scan finds have the same classes where the same lies beneath its root. -/
theorem EntryPoint.namesByContent_congr (hnamed : fs.WellNamed) (hsame : fs.SameBut spared other)
    (h : Scan.SameBelow fs other root) (hfound : Scan.below fs root exclude = .ok found) :
    namesByContent other root found.files = namesByContent fs root found.files := by
  have hclass : ∀ path ∈ found.files, ofContent other root path = ofContent fs root path := by
    intro path hpath
    have hbelow := Scan.prefix_of_below hnamed hfound hpath
    obtain ⟨names, -, -, -, hfile⟩ := Scan.exists_descend_of_below hnamed hfound hpath
    obtain ⟨content, hlocate, -⟩ := FileSystem.entryAt?_of_isFile hfile
    rw [ofContent, ofContent, hsame.read_eq (h _ hbelow) hlocate]
  exact mapM_congr fun path hpath => hclass path (List.mem_of_mem_filter hpath)

/-- **The classes of programs** in a directory are the same in file systems in which the same lies
beneath it. -/
theorem Command.runClassNames_congr (hnamed : fs.WellNamed) (hnames : other.WellNamed)
    (hsame : fs.SameBut spared other) {directory : Path}
    (h : Scan.SameBelow fs other (root.join directory)) (asJson : Bool) :
    runClassNames other root (some directory) asJson =
      { runClassNames fs root (some directory) asJson with fs := other } := by
  obtain ⟨events, hfound⟩ := Scan.files_below fs (root.join directory) []
  obtain ⟨more, hthere⟩ := Scan.files_below other (root.join directory) []
  have hfiles := Scan.files_below_congr hnamed hnames hsame h hfound hthere
  have hclasses := EntryPoint.namesByContent_congr hnamed hsame h hfound
  simp only at hfiles hclasses
  simp only [runClassNames, hfound, hthere, hfiles, hclasses]
  split <;> rfl

end Classes

end Guidebook
