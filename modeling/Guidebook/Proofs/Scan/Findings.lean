import Guidebook.Candidates
import Guidebook.Proofs.FileTree.Following
import Guidebook.Proofs.Path.Descending
import Guidebook.Proofs.Path.Ordering

/-!
# What a Scan Finds

A scan goes through the directories below its root, from each to the entries that it lists. Where
every entry has the name of a file, as in the file systems that there are, the path of what it finds
is that of the root with the names behind it that lead there, and leads to a file; and nothing is
found twice.

## Main results

* `FileTree.mem_namesIn_iff`, `FileTree.nodup_namesIn`: what a directory lists.
* `Scan.files_directory`, `Scan.files_below`: a scan never fails, and finds what directories hold.
* `Scan.exists_kept_of_mem_filesIn`: what is found has been left out nowhere on the way to it.
* `Scan.exists_descend_of_below`: **where the files that are found lie**.
* `Scan.nodup_files_below`: **nothing is found twice**.
-/

namespace Guidebook

/-! ### Listings -/

namespace Table

variable {κ ν : Type} [LT κ]

/-- The keys of a table are those that have a value. -/
theorem mem_keys_iff [DecidableEq κ] [Std.Irrefl (· < · : κ → κ → Prop)] (t : Table κ ν) (k : κ) :
    k ∈ t.keys ↔ (t.get? k).isSome := by
  rw [keys, List.mem_map, Option.isSome_iff_exists]
  constructor
  · rintro ⟨⟨key, value⟩, hentry, rfl⟩
    exact ⟨value, (t.mem_entries_iff key value).1 hentry⟩
  · rintro ⟨value, hvalue⟩
    exact ⟨(k, value), (t.mem_entries_iff k value).2 hvalue, rfl⟩

/-- No key stands in a table twice. -/
theorem nodup_keys [Std.Irrefl (· < · : κ → κ → Prop)] (t : Table κ ν) : t.keys.Nodup := by
  refine List.pairwise_map.2 (t.ascending.imp fun {a b} hlt heq => ?_)
  rw [heq] at hlt
  exact Std.Irrefl.irrefl _ hlt

end Table

namespace FileTree

/-- What is in a place lies one name below it. -/
theorem nameIn?_eq_some_iff {place other : Location} {name : Text} :
    nameIn? place other = some name ↔ other = place ++ [name] := by
  rw [nameIn?]
  constructor
  · intro h
    split at h
    · next found hfound =>
      obtain rfl := Option.some.inj h
      exact (List.isPrefixOf?_eq_some_iff_append_eq.1 hfound).symm
    · cases h
  · rintro rfl
    rw [List.isPrefixOf?_eq_some_iff_append_eq.2 rfl]

/-- **A directory lists** the names of what lies in it. -/
theorem mem_namesIn_iff {tree : FileTree} {place : Location} {name : Text} :
    name ∈ tree.namesIn place ↔ (tree.entryAt? (place ++ [name])).isSome := by
  have hentry : tree.entryAt? (place ++ [name]) = tree.entries.get? (place ++ [name]) :=
    if_neg (by simp)
  rw [namesIn, List.mem_filterMap, hentry, ← Table.mem_keys_iff]
  constructor
  · rintro ⟨other, hother, hname⟩
    rwa [nameIn?_eq_some_iff.1 hname] at hother
  · exact fun hmem => ⟨_, hmem, nameIn?_eq_some_iff.2 rfl⟩

/-- A directory lists nothing twice. -/
theorem nodup_namesIn (tree : FileTree) (place : Location) : (tree.namesIn place).Nodup := by
  refine tree.entries.nodup_keys.filterMap fun first second name hfirst hsecond => ?_
  rw [nameIn?_eq_some_iff.1 hfirst, nameIn?_eq_some_iff.1 hsecond]

end FileTree

namespace FileSystem

/-- Every name is one that a file can have. -/
structure WellNamed (fs : FileSystem) : Prop where
  here : ∀ name ∈ fs.here, Path.IsFileName name
  tree : ∀ place, (fs.tree.entryAt? place).isSome → ∀ name ∈ place, Path.IsFileName name

variable {fs : FileSystem} {p : Path}

/-- Whether every name is one that a file can have can be told from the table. -/
theorem wellNamed_iff : fs.WellNamed ↔ (∀ name ∈ fs.here, Path.IsFileName name) ∧
    ∀ place ∈ fs.tree.entries.keys, ∀ name ∈ place, Path.IsFileName name := by
  constructor
  · rintro ⟨hhere, htree⟩
    refine ⟨hhere, fun place hplace name hname => htree place ?_ name hname⟩
    rw [FileTree.entryAt?, if_neg (List.ne_nil_of_mem hname)]
    exact (fs.tree.entries.mem_keys_iff place).1 hplace
  · rintro ⟨hhere, hkeys⟩
    refine ⟨hhere, fun place hplace name hname => hkeys place ?_ name hname⟩
    rw [FileTree.entryAt?, if_neg (List.ne_nil_of_mem hname)] at hplace
    exact (fs.tree.entries.mem_keys_iff place).2 hplace

instance (fs : FileSystem) : Decidable fs.WellNamed :=
  decidable_of_iff _ wellNamed_iff.symm

/-- What is found at a path lies where the path leads. -/
theorem entryAt?_eq_some_iff {entry : Entry} :
    fs.entryAt? p = some entry ↔
      fs.locate p = .ok (p.resolve fs.here) ∧
        fs.tree.entryAt? (p.resolve fs.here) = some entry := by
  rw [entryAt?]
  cases hlocate : fs.locate p with
  | error e => simp
  | ok place =>
      obtain rfl := eq_resolve_of_locate hlocate
      simp

/-- There is a file at a path if its content can be found there. -/
theorem isFile_iff : fs.isFile p = true ↔ ∃ content, fs.entryAt? p = some (.file content) := by
  rw [isFile]
  split <;> simp_all

/-- A directory lists the names at the place where the path leads. -/
theorem names_of_isDirectory (h : fs.isDirectory p = true) :
    fs.names p = .ok (fs.tree.namesIn (p.resolve fs.here)) := by
  obtain ⟨hlocate, hentry⟩ := entryAt?_eq_some_iff.1 (of_decide_eq_true h)
  rw [names, hlocate]
  simp only [bind, Except.bind, hentry]
  rfl

/-- A file is in the tree where its path leads, and can be located there. -/
theorem entryAt?_of_isFile (h : fs.isFile p = true) :
    ∃ content, fs.locate p = .ok (p.resolve fs.here) ∧
      fs.tree.entryAt? (p.resolve fs.here) = some (.file content) := by
  obtain ⟨content, hentry⟩ := isFile_iff.1 h
  exact ⟨content, entryAt?_eq_some_iff.1 hentry⟩

end FileSystem

/-! ### Scans -/

namespace Scan

/-- The files that a scan finds at a path, given those that it finds in directories. -/
def filesAt (fs : FileSystem) (exclude : ExcludeSet) (root : Path) (inside : Path → List Path)
    (path : Path) : List Path :=
  if isHidden path then []
  else if isExcluded exclude root path then []
  else if fs.isDirectory path then inside path
  else if fs.isFile path then [path]
  else []

/-- The files that a scan finds in a directory, at most `depth` levels deep. -/
def filesIn (fs : FileSystem) (exclude : ExcludeSet) (root : Path) : Nat → Path → List Path
  | 0, _ => []
  | depth + 1, dir =>
    if fs.isDirectory dir then
      (fs.tree.namesIn (dir.resolve fs.here)).flatMap fun name =>
        filesAt fs exclude root (filesIn fs exclude root depth) (dir.join ⟨name⟩)
    else []

/-- The files that a scan finds in a directory, at most `depth` levels deep, if the names in each
directory are listed in the given order. -/
def filesBy (order : Path → List Text → List Text) (fs : FileSystem) (exclude : ExcludeSet)
    (root : Path) : Nat → Path → List Path
  | 0, _ => []
  | depth + 1, dir =>
    if fs.isDirectory dir then
      (order dir (fs.tree.namesIn (dir.resolve fs.here))).flatMap fun name =>
        filesAt fs exclude root (filesBy order fs exclude root depth) (dir.join ⟨name⟩)
    else []

/-- The scan of a directory takes the names as they are listed. -/
theorem filesBy_listed (fs : FileSystem) (exclude : ExcludeSet) (root : Path) (depth : Nat) :
    filesBy (fun _ names => names) fs exclude root depth = filesIn fs exclude root depth := by
  induction depth with
  | zero => rfl
  | succ depth ih =>
      funext dir
      rw [filesBy, filesIn, ih]

/-- What is found one after the other is found together. -/
theorem files_foldlM {visit : Scan → Text → Except IoError Scan} {files : Text → List Path}
    {names : List Text} (h : ∀ name ∈ names, ∀ found : Scan,
      ∃ events, visit found name = .ok ⟨found.files ++ files name, events⟩) (found : Scan) :
    ∃ events, names.foldlM visit found = .ok ⟨found.files ++ names.flatMap files, events⟩ := by
  induction names generalizing found with
  | nil => exact ⟨found.events, by simp [pure, Except.pure]⟩
  | cons name names ih =>
      obtain ⟨events, hfirst⟩ := h name List.mem_cons_self found
      obtain ⟨more, hrest⟩ := ih (fun other hother => h other (List.mem_cons_of_mem _ hother))
        ⟨found.files ++ files name, events⟩
      refine ⟨more, ?_⟩
      rw [List.foldlM_cons, hfirst, List.flatMap_cons, ← List.append_assoc]
      exact hrest

/-- A scan of a directory finds its files, in the order in which directories are listed. -/
theorem files_directory (order : Path → List Text → List Text) (fs : FileSystem)
    (exclude : ExcludeSet) (root : Path) (depth : Nat) (dir : Path) :
    ∃ events, directory order fs exclude root depth dir =
      .ok ⟨filesBy order fs exclude root depth dir, events⟩ := by
  induction depth generalizing dir with
  | zero => exact ⟨[], rfl⟩
  | succ depth ih =>
      rw [directory, filesBy]
      split
      · next hdirectory =>
        rw [FileSystem.names_of_isDirectory hdirectory]
        refine files_foldlM (fun name _ found => ?_) nothing
        simp only [filesAt]
        by_cases hhidden : isHidden (dir.join ⟨name⟩) = true
        · exact ⟨found.events, by simp [hhidden, pure, Except.pure]⟩
        by_cases hexcluded : isExcluded exclude root (dir.join ⟨name⟩) = true
        · simp only [hhidden, hexcluded]
          exact ⟨found.events ++ [.excluded (dir.join ⟨name⟩)], rfl⟩
        by_cases hinner : fs.isDirectory (dir.join ⟨name⟩) = true
        · obtain ⟨events, hinside⟩ := ih (dir.join ⟨name⟩)
          simp only [hhidden, hexcluded, hinner, hinside]
          exact ⟨found.events ++ events, rfl⟩
        by_cases hfile : fs.isFile (dir.join ⟨name⟩) = true
        · simp only [hhidden, hexcluded, hinner, hfile]
          exact ⟨found.events ++ [], rfl⟩
        · exact ⟨found.events, by simp [hhidden, hexcluded, hinner, hfile, pure, Except.pure]⟩
      · exact ⟨[], rfl⟩

/-- **A scan never fails**, and finds the files of its root. -/
theorem files_below (fs : FileSystem) (root : Path) (exclude : ExcludeSet) :
    ∃ events, below fs root exclude =
      .ok ⟨Path.sort (filesIn fs exclude root (depthBound fs) root), events⟩ := by
  obtain ⟨events, hdirectory⟩ := files_directory (fun _ names => names) fs exclude root
    (depthBound fs) root
  exact ⟨events, by rw [below, listedBy, hdirectory, filesBy_listed]⟩

section Shape

variable {fs : FileSystem} {exclude : ExcludeSet} {root dir path : Path} {depth : Nat}

/-- Nothing is left out on the way from a directory down the names. -/
def Kept (exclude : ExcludeSet) (root : Path) : Path → List Text → Prop
  | _, [] => True
  | dir, name :: names =>
    isHidden (dir.join ⟨name⟩) = false ∧ isExcluded exclude root (dir.join ⟨name⟩) = false ∧
      Kept exclude root (dir.join ⟨name⟩) names

/-- What is found at an entry is the file that it is, or is found in the directory that it is;
unless the entry is hidden or excluded. -/
theorem mem_filesAt_iff {inside : Path → List Path} :
    path ∈ filesAt fs exclude root inside dir ↔
      isHidden dir = false ∧ isExcluded exclude root dir = false ∧
        (fs.isDirectory dir = true ∧ path ∈ inside dir ∨
          fs.isDirectory dir = false ∧ fs.isFile dir = true ∧ path = dir) := by
  rw [filesAt]
  split_ifs <;> simp_all

/-- There is nothing to find but in directories. -/
theorem isDirectory_of_mem_filesIn (h : path ∈ filesIn fs exclude root depth dir) :
    fs.isDirectory dir = true := by
  cases depth with
  | zero => cases h
  | succ depth =>
      by_contra hnot
      rw [filesIn, if_neg hnot] at h
      cases h

variable (hnamed : fs.WellNamed)

include hnamed in
/-- A directory lists ordinary names. -/
theorem isFileName_of_mem_namesIn {place : Location} {name : Text}
    (h : name ∈ fs.tree.namesIn place) : Path.IsFileName name :=
  hnamed.tree _ (FileTree.mem_namesIn_iff.1 h) name (by simp)

include hnamed in
/-- **What is found** lies under names, and has been left out nowhere on the way to it. -/
theorem exists_kept_of_mem_filesIn (h : path ∈ filesIn fs exclude root depth dir) :
    ∃ names, names ≠ [] ∧ (∀ name ∈ names, Path.IsFileName name) ∧ path = dir.descend names ∧
      fs.isFile path = true ∧ Kept exclude root dir names := by
  induction depth generalizing dir with
  | zero => cases h
  | succ depth ih =>
      rw [filesIn] at h
      split at h
      · obtain ⟨name, hname, hpath⟩ := List.mem_flatMap.1 h
        have hfileName := isFileName_of_mem_namesIn hnamed hname
        obtain ⟨hseen, hkept, ⟨-, hinside⟩ | ⟨-, hfile, rfl⟩⟩ := mem_filesAt_iff.1 hpath
        · obtain ⟨names, -, hnames, rfl, hfile, hrest⟩ := ih hinside
          exact ⟨name :: names, List.cons_ne_nil _ _, List.forall_mem_cons.2 ⟨hfileName, hnames⟩,
            rfl, hfile, hseen, hkept, hrest⟩
        · exact ⟨[name], List.cons_ne_nil _ _, by simpa using hfileName, rfl, hfile, hseen, hkept,
            trivial⟩
      · cases h

include hnamed in
/-- What is found in a directory lies under names below it, and is a file. -/
theorem exists_descend_of_mem_filesIn (h : path ∈ filesIn fs exclude root depth dir) :
    ∃ names, names ≠ [] ∧ (∀ name ∈ names, Path.IsFileName name) ∧ path = dir.descend names ∧
      fs.isFile path = true := by
  obtain ⟨names, hne, hnames, hpath, hfile, -⟩ := exists_kept_of_mem_filesIn hnamed h
  exact ⟨names, hne, hnames, hpath, hfile⟩

include hnamed in
/-- What is found at an entry of a directory lies behind the name of the entry. -/
theorem exists_descend_of_mem_filesAt {name : Text}
    (h : path ∈ filesAt fs exclude root (filesIn fs exclude root depth) (dir.join ⟨name⟩)) :
    ∃ names, (∀ name ∈ names, Path.IsFileName name) ∧ path = dir.descend (name :: names) := by
  obtain ⟨-, -, ⟨-, hinside⟩ | ⟨-, -, rfl⟩⟩ := mem_filesAt_iff.1 h
  · obtain ⟨names, -, hnames, rfl, -⟩ := exists_descend_of_mem_filesIn hnamed hinside
    exact ⟨names, hnames, rfl⟩
  · exact ⟨[], by simp, rfl⟩

include hnamed in
/-- Nothing is found in a directory twice. -/
theorem nodup_filesIn : (filesIn fs exclude root depth dir).Nodup := by
  induction depth generalizing dir with
  | zero => exact List.nodup_nil
  | succ depth ih =>
      rw [filesIn]
      split
      · refine List.nodup_flatMap.2 ⟨fun name hname => ?_, ?_⟩
        · rw [filesAt]
          split_ifs
          · exact List.nodup_nil
          · exact List.nodup_nil
          · exact ih
          · exact List.nodup_singleton _
          · exact List.nodup_nil
        · refine (FileTree.nodup_namesIn _ _).imp_of_mem ?_
          intro first second hfirst hsecond hne path hone htwo
          obtain ⟨names, hnames, hpath⟩ := exists_descend_of_mem_filesAt hnamed hone
          obtain ⟨others, hothers, hother⟩ := exists_descend_of_mem_filesAt hnamed htwo
          have hsame := Path.descend_injective
            (List.forall_mem_cons.2 ⟨isFileName_of_mem_namesIn hnamed hfirst, hnames⟩)
            (List.forall_mem_cons.2 ⟨isFileName_of_mem_namesIn hnamed hsecond, hothers⟩)
            (hpath.symm.trans hother)
          exact hne (List.cons.inj hsame).1
      · exact List.nodup_nil

variable {found : Scan} (hfound : below fs root exclude = .ok found)

include hfound in
/-- A scan finds the files of its root, each as often as it is there. -/
theorem perm_files_below :
    found.files.Perm (filesIn fs exclude root (depthBound fs) root) := by
  obtain ⟨events, hbelow⟩ := files_below fs root exclude
  rw [hbelow] at hfound
  obtain rfl := Except.ok.inj hfound
  exact Path.perm_sort _

include hnamed hfound in
/-- **Where the files that are found lie**: under names below the root. -/
theorem exists_descend_of_below (hpath : path ∈ found.files) :
    ∃ names, names ≠ [] ∧ (∀ name ∈ names, Path.IsFileName name) ∧ path = root.descend names ∧
      fs.isFile path = true :=
  exists_descend_of_mem_filesIn hnamed ((perm_files_below hfound).mem_iff.1 hpath)

include hnamed hfound in
/-- What is found lies beneath the root. -/
theorem prefix_of_below (hpath : path ∈ found.files) :
    root.resolve fs.here <+: path.resolve fs.here := by
  obtain ⟨names, -, hnames, rfl, -⟩ := exists_descend_of_below hnamed hfound hpath
  rw [Path.resolve_descend hnames]
  exact List.prefix_append _ _

include hnamed hfound in
/-- **Nothing is found twice.** -/
theorem nodup_files_below : found.files.Nodup :=
  (perm_files_below hfound).nodup_iff.2 (nodup_filesIn hnamed)

end Shape

end Scan

end Guidebook
