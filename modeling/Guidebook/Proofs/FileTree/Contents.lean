import Guidebook.Proofs.FileTree.Agreement
import Guidebook.Proofs.FileTree.Change
import Guidebook.Proofs.Scan.Findings
import Mathlib.Data.List.Perm.Basic

/-!
# What Files Hold

What a file holds makes no difference but to reading it. Two file systems that differ only in what
some files hold are followed, listed and scanned alike, and an operation that makes something in
them fails in both for the same reason, or leaves two that again differ only in these files.

## Main results

* `FileSystem.SameButContents.locate_eq`, `FileSystem.SameButContents.names_eq`: **the same is
  found**.
* `FileSystem.SameButContents.write`, `FileSystem.SameButContents.ensureDirectories`: **the same is
  made**.
* `Scan.below_congr`: **scans** are the same.
-/

namespace Guidebook

/-- Tables with the same keys list them alike. -/
theorem Table.keys_congr {κ ν : Type} [LT κ] [DecidableEq κ] [Std.Asymm (· < · : κ → κ → Prop)]
    {s t : Table κ ν} (h : ∀ k, (s.get? k).isSome = (t.get? k).isSome) : s.keys = t.keys := by
  refine List.Perm.eq_of_pairwise' (List.pairwise_map.2 s.ascending)
    (List.pairwise_map.2 t.ascending)
    ((List.perm_ext_iff_of_nodup s.nodup_keys t.nodup_keys).2 fun k => ?_)
  rw [mem_keys_iff, mem_keys_iff, h]

namespace FileSystem

/-- The second file system is the first but for what files at some places hold. -/
structure SameButContents (spared : Location → Prop) (fs other : FileSystem) : Prop where
  here : other.here = fs.here
  entry : ∀ place, other.tree.entryAt? place = fs.tree.entryAt? place ∨
    spared place ∧ ∃ content changed, fs.tree.entryAt? place = some (.file content) ∧
      other.tree.entryAt? place = some (.file changed)

namespace SameButContents

variable {spared : Location → Prop} {fs other : FileSystem}

/-- File systems that differ in what files hold differ at the places of these files only. -/
theorem sameBut (h : SameButContents spared fs other) : SameBut spared fs other where
  here := h.here
  directory place := by
    rcases h.entry place with hsame | ⟨-, content, changed, hfile, hother⟩
    · rw [hsame]
    · simp [hfile, hother]
  same place hplace := (h.entry place).resolve_right fun hspared => hplace hspared.1

/-- There is something at a place in both or in neither. -/
theorem isSome_eq (h : SameButContents spared fs other) (place : Location) :
    (other.tree.entryAt? place).isSome = (fs.tree.entryAt? place).isSome := by
  rcases h.entry place with hsame | ⟨-, content, changed, hfile, hother⟩
  · rw [hsame]
  · rw [hfile, hother]
    rfl

/-! ### What is found -/

/-- Segments lead to the same places in both. -/
theorem follow_eq (h : SameButContents spared fs other) : other.follow = fs.follow := by
  have henter : other.enter = fs.enter := by
    funext place segment
    rw [enter, enter, h.isSome_eq]
    rcases h.entry place with hsame | ⟨-, content, changed, hfile, hother⟩
    · rw [hsame]
    · rw [hfile, hother]
  funext place segments
  rw [follow, follow, henter]

/-- Paths start at the same places in both. -/
theorem start_eq (h : SameButContents spared fs other) : other.start = fs.start := by
  funext p
  rw [start, start, h.here]

/-- **Paths are followed alike.** -/
theorem locate_eq (h : SameButContents spared fs other) (p : Path) :
    other.locate p = fs.locate p := by
  rw [locate, locate, h.start_eq, h.follow_eq]

/-- A path is that of a file in both or in neither. -/
theorem isFile_eq (h : SameButContents spared fs other) (p : Path) :
    other.isFile p = fs.isFile p := by
  rw [isFile, isFile, entryAt?, entryAt?, h.locate_eq]
  cases fs.locate p with
  | error e => rfl
  | ok place =>
      rcases h.entry place with hsame | ⟨-, content, changed, hfile, hother⟩
      · simp only [hsame]
      · simp only [hfile, hother]

/-- Both tables hold the same places. -/
theorem keys_eq (h : SameButContents spared fs other) :
    other.tree.entries.keys = fs.tree.entries.keys := by
  refine Table.keys_congr fun key => ?_
  by_cases hroot : key = []
  · rw [hroot, other.tree.rootless, fs.tree.rootless]
  · simpa only [FileTree.entryAt?, if_neg hroot] using h.isSome_eq key

/-- **Directories are listed alike.** -/
theorem names_eq (h : SameButContents spared fs other) (p : Path) :
    other.names p = fs.names p := by
  rw [names, names, h.locate_eq]
  cases fs.locate p with
  | error e => rfl
  | ok place =>
      simp only [bind, Except.bind, FileTree.namesIn, h.keys_eq]
      rcases h.entry place with hsame | ⟨-, content, changed, hfile, hother⟩
      · rw [hsame]
      · rw [hfile, hother]

/-- The same is read, except from the files that differ. -/
theorem read_eq (h : SameButContents spared fs other) {p : Path}
    (hp : ¬ spared (p.resolve fs.here)) : other.read p = fs.read p := by
  rw [read, read, h.locate_eq]
  cases hlocate : fs.locate p with
  | error e => rfl
  | ok place =>
      obtain rfl := eq_resolve_of_locate hlocate
      simp only [bind, Except.bind, h.sameBut.same _ hp]

/-! ### What is made -/

/-- A path asks for the same new entry in both. -/
theorem target_eq (h : SameButContents spared fs other) (p : Path) :
    other.target p = fs.target p := by
  rw [target, target, h.start_eq, h.follow_eq]
  refine bind_congr fun segments => ?_
  simp only
  cases (segments.reverse.dropWhile (· = [])).reverse.getLast? with
  | none => rfl
  | some last =>
      refine bind_congr fun place => ?_
      rcases h.entry place with hsame | ⟨-, content, changed, hfile, hother⟩
      · rw [hsame]
      · rw [hfile, hother]

/-- A new entry, put where a path asks for it. -/
theorem put (h : SameButContents spared fs other) {p : Path} {place : Location} {name : Text}
    {slash : Bool} (htarget : fs.target p = .ok (.new place name slash)) {entry : Entry}
    (hkeep : fs.tree.entryAt? (place ++ [name]) = some .directory → entry = .directory) :
    SameButContents spared { fs with tree := fs.tree.put place name entry }
      { other with tree := other.tree.put place name entry } where
  here := h.here
  entry := by
    intro somewhere
    have hthere := (h.target_eq p).trans htarget
    have hkeepThere : other.tree.entryAt? (place ++ [name]) = some .directory →
        entry = .directory := fun hdirectory => hkeep ((h.sameBut.directory _).1 hdirectory)
    simp only [entryAt?_put_target htarget entry hkeep, h.here,
      entryAt?_put_target hthere entry hkeepThere]
    split
    · exact .inl rfl
    · exact h.entry somewhere

/-- **Writing** fails for the same reason, or leaves what is the same but for the same files. -/
theorem write (h : SameButContents spared fs other) (p : Path) (content : Content) :
    (∃ e, fs.write p content = .error e ∧ other.write p content = .error e) ∨
      ∃ later after, fs.write p content = .ok later ∧ other.write p content = .ok after ∧
        SameButContents spared later after := by
  rw [FileSystem.write, FileSystem.write, h.target_eq]
  cases htarget : fs.target p with
  | error e => exact .inl ⟨e, rfl, rfl⟩
  | ok target =>
      cases target with
      | old => exact .inl ⟨.isADirectory, rfl, rfl⟩
      | new place name slash =>
          cases slash with
          | true => exact .inl ⟨.isADirectory, rfl, rfl⟩
          | false =>
              simp only [bind, Except.bind, h.sameBut.directory]
              split
              · exact .inl ⟨.isADirectory, rfl, rfl⟩
              · next hfree =>
                exact .inr ⟨_, _, rfl, rfl, h.put htarget fun hdirectory => absurd hdirectory hfree⟩

/-- A directory is made in both, or it fails in both for the same reason. -/
theorem makeDirectory (h : SameButContents spared fs other) (p : Path) :
    (∃ e, fs.makeDirectory p = .error e ∧ other.makeDirectory p = .error e) ∨
      ∃ later after, fs.makeDirectory p = .ok later ∧ other.makeDirectory p = .ok after ∧
        SameButContents spared later after := by
  rw [FileSystem.makeDirectory, FileSystem.makeDirectory, h.target_eq]
  cases htarget : fs.target p with
  | error e => exact .inl ⟨e, rfl, rfl⟩
  | ok target =>
      cases target with
      | old => exact .inl ⟨.alreadyExists, rfl, rfl⟩
      | new place name slash =>
          simp only [bind, Except.bind, h.isSome_eq]
          split
          · exact .inl ⟨.alreadyExists, rfl, rfl⟩
          · exact .inr ⟨_, _, rfl, rfl, h.put htarget fun _ => rfl⟩

/-- A directory is made or found in both, or it fails in both for the same reason. -/
theorem ensureDirectory (h : SameButContents spared fs other) (p : Path) :
    (other.ensureDirectory p).error? = (fs.ensureDirectory p).error? ∧
      SameButContents spared (fs.ensureDirectory p).fs (other.ensureDirectory p).fs := by
  rw [FileSystem.ensureDirectory, FileSystem.ensureDirectory, h.sameBut.isDirectory_eq]
  rcases h.makeDirectory p with ⟨e, hmake, hother⟩ | ⟨later, after, hmake, hother, hsame⟩
  · rw [hmake, hother]
    simp only
    split <;> exact ⟨rfl, h⟩
  · rw [hmake, hother]
    exact ⟨rfl, hsame⟩

/-- A chain of directories is made in both, as far as it goes. -/
theorem ensureChain (h : SameButContents spared fs other) (paths : List Path) :
    (other.ensureChain paths).error? = (fs.ensureChain paths).error? ∧
      SameButContents spared (fs.ensureChain paths).fs (other.ensureChain paths).fs := by
  induction paths with
  | nil => exact ⟨rfl, h⟩
  | cons p above ih =>
      have hone := h.ensureDirectory p
      rw [FileSystem.ensureChain, FileSystem.ensureChain]
      rcases h.makeDirectory p with ⟨e, hmake, hother⟩ | ⟨later, after, hmake, hother, -⟩
      · rw [hmake, hother]
        cases e with
        | notFound =>
            -- Something is missing on the way, in both file systems.
            revert ih
            rcases fs.ensureChain above with ⟨later, error?⟩
            rcases other.ensureChain above with ⟨after, errorThere?⟩
            rintro ⟨herror, hsame⟩
            obtain rfl : errorThere? = error? := herror
            cases errorThere? with
            | none => exact hsame.ensureDirectory p
            | some e => exact ⟨rfl, hsame⟩
        | _ => exact hone
      · rw [hmake, hother]
        exact hone

/-- **Making directories** fails for the same reason or does not, and leaves what is the same but
for the same files. -/
theorem ensureDirectories (h : SameButContents spared fs other) (p : Path) :
    (other.ensureDirectories p).error? = (fs.ensureDirectories p).error? ∧
      SameButContents spared (fs.ensureDirectories p).fs (other.ensureDirectories p).fs :=
  h.ensureChain p.ancestors

end SameButContents

/-- Writing changes nothing but a file. -/
theorem sameBut_of_write {fs later : FileSystem} {p : Path} {content : Content}
    (h : fs.write p content = .ok later) : SameBut (· = p.resolve fs.here) fs later := by
  obtain ⟨place, name, htarget, hfree, rfl⟩ := exists_target_of_write h
  have hentry := entryAt?_put_target htarget (.file content) fun hdirectory =>
    absurd hdirectory hfree
  rw [← resolve_of_target htarget] at hfree
  refine ⟨rfl, fun somewhere => ?_, fun somewhere hother => ?_⟩
  · simp only [hentry]
    split
    · next hplace => simp [← hplace, hfree]
    · exact Iff.rfl
  · simp only [hentry]
    rw [if_neg fun hplace => hother hplace.symm]

/-- **Writing over a file** changes what it holds, and nothing else. -/
theorem sameButContents_of_write {fs later : FileSystem} {p : Path} {content : Content}
    (h : fs.write p content = .ok later) (hfile : fs.isFile p = true) :
    SameButContents (· = p.resolve fs.here) fs later := by
  obtain ⟨place, name, htarget, hfree, rfl⟩ := exists_target_of_write h
  obtain ⟨old, -, hold⟩ := entryAt?_of_isFile hfile
  refine ⟨rfl, fun somewhere => ?_⟩
  simp only [entryAt?_put_target htarget (.file content) fun hdirectory => absurd hdirectory hfree]
  split
  · next hplace => exact .inr ⟨hplace.symm, old, content, hplace ▸ hold, rfl⟩
  · exact .inl rfl

end FileSystem

namespace Scan

variable {spared : Location → Prop} {fs other : FileSystem}

/-- **A scan of a directory** finds the same in both. -/
theorem directory_congr (h : fs.SameButContents spared other)
    (order : Path → List Text → List Text) (exclude : ExcludeSet) (root : Path) (depth : Nat)
    (dir : Path) :
    directory order other exclude root depth dir = directory order fs exclude root depth dir := by
  induction depth generalizing dir with
  | zero => rfl
  | succ depth ih =>
      simp only [directory, h.sameBut.isDirectory_eq, h.names_eq, h.isFile_eq, ih]

/-- **Scans** do not depend on what files hold. -/
theorem below_congr (h : fs.SameButContents spared other) (root : Path) (exclude : ExcludeSet) :
    below other root exclude = below fs root exclude := by
  have hdepth : depthBound other = depthBound fs := by
    have hlength := congrArg List.length h.keys_eq
    rw [Table.keys, Table.keys, List.length_map, List.length_map] at hlength
    rw [depthBound, depthBound, hlength]
  rw [below, below, listedBy, listedBy, hdepth, directory_congr h]

end Scan

end Guidebook
