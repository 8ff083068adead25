import Guidebook.Proofs.Scan.Agreement

/-!
# A Scan Finds Everything

A scan leaves out hidden entries and those that its patterns match. Where it leaves out nothing on
the way from its root to a file, it finds the file; its depth is enough for that, and all on the way
are directories. Without patterns, it is enough that all names on the way can be seen.

## Main results

* `FileSystem.isDirectory_of_entryAt?`: what lies in something lies in a directory.
* `Scan.mem_filesIn`: **a scan finds every file** that is not left out.
* `Scan.mem_files_below`: without patterns, it finds every file that is not hidden.
-/

namespace Guidebook

/-! ### The way down -/

namespace FileSystem

variable {fs : FileSystem} {directory : Path} {name : Text} {names : List Text}

/-- **What lies in something** lies in a directory. -/
theorem isDirectory_of_entryAt? (hdirectory : directory.text ≠ []) (hname : Path.IsFileName name)
    (h : (fs.entryAt? (directory.join ⟨name⟩)).isSome) : fs.isDirectory directory = true := by
  rw [FileSystem.entryAt?] at h
  cases hlocate : fs.locate (directory.join ⟨name⟩) with
  | error e => simp [hlocate] at h
  | ok place =>
      obtain ⟨hnul, -, hfollow⟩ := locate_ok_iff.1 hlocate
      rw [splitOn_file directory hname, follow_concat, start_file fs directory hname] at hfollow
      cases hfront : fs.follow (fs.start directory) (segmentsTo directory) with
      | error e => simp [hfront, Except.bind] at hfollow
      | ok front =>
          rw [hfront] at hfollow
          obtain ⟨hplace, -, -⟩ := enter_ok_iff.1 hfollow
          refine isDirectory_iff.2 ⟨fun hmem => hnul ?_, hdirectory, fun other hother => ?_⟩
          · rw [Path.join, if_neg (by rw [hname.isAbsolute]; decide)]
            split <;> exact List.mem_append_left _ hmem
          · obtain ⟨-, moves, hmoves, rfl⟩ := Path.mem_way_iff.1 hother
            rw [← spoken_segmentsTo hdirectory] at hmoves
            exact follow_directory_iff.1 ⟨front, hfront, hplace⟩ moves hmoves

/-- Something is there at the path of a directory. -/
theorem isSome_of_isDirectory {p : Path} (h : fs.isDirectory p = true) :
    (fs.entryAt? p).isSome := by
  rw [of_decide_eq_true h]
  rfl

/-- Something is there at the path of a file. -/
theorem isSome_of_isFile {p : Path} (h : fs.isFile p = true) : (fs.entryAt? p).isSome := by
  obtain ⟨content, hentry⟩ := isFile_iff.1 h
  rw [hentry]
  rfl

/-- A file is no directory. -/
theorem isDirectory_of_isFile {p : Path} (h : fs.isFile p = true) : fs.isDirectory p = false := by
  obtain ⟨content, hentry⟩ := isFile_iff.1 h
  simp [isDirectory, hentry]

/-- What is there at a path is in the tree where the path leads. -/
theorem isSome_entryAt?_resolve {p : Path} (h : (fs.entryAt? p).isSome) :
    (fs.tree.entryAt? (p.resolve fs.here)).isSome := by
  obtain ⟨entry, hentry⟩ := Option.isSome_iff_exists.1 h
  rw [(entryAt?_eq_some_iff.1 hentry).2]
  rfl

/-- All on the way down to what is there are directories. -/
theorem isDirectory_of_descend (hdirectory : directory.text ≠ []) (hne : names ≠ [])
    (hnames : ∀ name ∈ names, Path.IsFileName name)
    (h : (fs.entryAt? (directory.descend names)).isSome) : fs.isDirectory directory = true := by
  induction names generalizing directory with
  | nil => exact absurd rfl hne
  | cons name names ih =>
      obtain ⟨hname, hnames⟩ := List.forall_mem_cons.1 hnames
      refine isDirectory_of_entryAt? hdirectory hname ?_
      by_cases hrest : names = []
      · subst hrest
        exact h
      · exact isSome_of_isDirectory (ih (directory.text_join_ne_nil hname) hrest hnames h)

end FileSystem

/-! ### What is found -/

namespace Scan

variable {fs : FileSystem} {root dir : Path} {depth : Nat} {names : List Text}

/-- No patterns exclude nothing. -/
theorem isExcluded_nil (root path : Path) : isExcluded [] root path = false := by
  rw [isExcluded]
  split <;> rfl

/-- An entry is hidden if its name begins with a dot. -/
theorem isHidden_file (directory : Path) {name : Text} (h : Path.IsFileName name)
    (hseen : name.head? ≠ some '.') : isHidden (directory.join ⟨name⟩) = false := by
  rw [isHidden, Path.fileName?, Path.components_file directory h, List.getLast?_concat]
  exact decide_eq_false hseen

/-- Without patterns, nothing is left out where all names can be seen. -/
theorem kept_nil (dir : Path)
    (hnames : ∀ name ∈ names, Path.IsFileName name ∧ name.head? ≠ some '.') :
    Kept [] root dir names := by
  induction names generalizing dir with
  | nil => trivial
  | cons name names ih =>
      obtain ⟨⟨hname, hseen⟩, hrest⟩ := List.forall_mem_cons.1 hnames
      exact ⟨isHidden_file dir hname hseen, isExcluded_nil _ _, ih _ hrest⟩

/-- **A scan finds every file** in a directory, if nothing is left out on the way to it. -/
theorem mem_filesIn {exclude : ExcludeSet} (henough : Enough fs depth dir) (hdir : dir.text ≠ [])
    (hne : names ≠ []) (hnames : ∀ name ∈ names, Path.IsFileName name)
    (hkept : Kept exclude root dir names) (hfile : fs.isFile (dir.descend names) = true) :
    dir.descend names ∈ filesIn fs exclude root depth dir := by
  induction names generalizing depth dir with
  | nil => exact absurd rfl hne
  | cons name names ih =>
      obtain ⟨hname, hrest⟩ := List.forall_mem_cons.1 hnames
      obtain ⟨hseen, hkept, hbehind⟩ := hkept
      have hthere := FileSystem.isSome_entryAt?_resolve (FileSystem.isSome_of_isFile hfile)
      have hdirectory := FileSystem.isDirectory_of_descend hdir hne hnames
        (FileSystem.isSome_of_isFile hfile)
      cases depth with
      | zero =>
          -- There would be nothing beneath the directory.
          have hlt := henough _ hthere
            (by rw [Path.resolve_descend hnames]; exact List.prefix_append _ _)
          rw [Path.resolve_descend hnames, List.length_append] at hlt
          omega
      | succ depth =>
          rw [filesIn, if_pos hdirectory]
          have hentry : (fs.entryAt? (dir.join ⟨name⟩)).isSome := by
            by_cases hlast : names = []
            · subst hlast
              exact FileSystem.isSome_of_isFile hfile
            · exact FileSystem.isSome_of_isDirectory
                (FileSystem.isDirectory_of_descend (dir.text_join_ne_nil hname) hlast hrest
                  (FileSystem.isSome_of_isFile hfile))
          have hlisted : name ∈ fs.tree.namesIn (dir.resolve fs.here) := by
            rw [FileTree.mem_namesIn_iff, ← Path.resolve_file dir hname]
            exact FileSystem.isSome_entryAt?_resolve hentry
          refine List.mem_flatMap.2 ⟨name, hlisted, mem_filesAt_iff.2 ⟨hseen, hkept, ?_⟩⟩
          by_cases hlast : names = []
          · subst hlast
            exact .inr ⟨FileSystem.isDirectory_of_isFile hfile, hfile, rfl⟩
          · exact .inl ⟨FileSystem.isDirectory_of_descend (dir.text_join_ne_nil hname) hlast hrest
                (FileSystem.isSome_of_isFile hfile),
              ih (henough.join hname) (dir.text_join_ne_nil hname) hlast hrest hbehind hfile⟩

/-- **A scan without patterns finds every file** that is not hidden. -/
theorem mem_files_below {found : Scan} (hfound : below fs root [] = .ok found)
    (hroot : root.text ≠ []) (hne : names ≠ [])
    (hnames : ∀ name ∈ names, Path.IsFileName name ∧ name.head? ≠ some '.')
    (hfile : fs.isFile (root.descend names) = true) : root.descend names ∈ found.files :=
  (perm_files_below hfound).mem_iff.2 (mem_filesIn (enough_depthBound fs root) hroot hne
    (fun name hname => (hnames name hname).1) (kept_nil root hnames) hfile)

/-- No two files that are found have the same components. -/
theorem nodup_components_filesIn {exclude : ExcludeSet} (hnamed : fs.WellNamed) :
    ((filesIn fs exclude root depth dir).map Path.components).Nodup := by
  refine List.Nodup.map_on (fun p hp q hq heq => ?_) (nodup_filesIn hnamed)
  obtain ⟨names, -, hnames, rfl, -⟩ := exists_descend_of_mem_filesIn hnamed hp
  obtain ⟨others, -, hothers, rfl, -⟩ := exists_descend_of_mem_filesIn hnamed hq
  rw [Path.components_descend hnames, Path.components_descend hothers] at heq
  rw [List.map_injective_iff.2 (fun a b hab => Component.name.inj hab)
    (List.append_cancel_left heq)]

/-- **What is found is in ascending order.** -/
theorem ascending_files_below {exclude : ExcludeSet} {found : Scan} (hnamed : fs.WellNamed)
    (hfound : below fs root exclude = .ok found) :
    found.files.Pairwise fun p q => p.before q = true := by
  obtain ⟨events, hbelow⟩ := files_below fs root exclude
  rw [hbelow] at hfound
  obtain rfl := Except.ok.inj hfound
  exact Path.ascending_sort (nodup_components_filesIn hnamed)

end Scan

end Guidebook
