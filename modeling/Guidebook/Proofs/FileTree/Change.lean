import Guidebook.Proofs.FileTree.Following

/-!
# What Changes

A file system changes in two ways: files are written, and directories are made where nothing was.
`FileSystem.Change` says of two file systems that the second is the first with certain files
written, in order, and with nothing else changed but that some of certain places have become
directories. Changes can be put together, and what they do at a place depends on the last write to
it alone.

A change takes nothing away: directories stay directories and files stay files. So what has
succeeded once succeeds again in any file system that keeps what it has led to, and then makes no
directory.

## Main results

* `FileSystem.Change.trans`: **changes after one another**.
* `FileSystem.change_write`, `FileSystem.change_ensureDirectories`: the operations as changes.
* `FileSystem.write_again`, `FileSystem.ensureDirectories_of_isDirectory`: the operations a second
  time.
-/

namespace Guidebook

/-- What the last of the writes that lead to a place has written there. -/
def lastWrite? (here place : Location) (writes : List (Path × Text)) : Option Text :=
  ((writes.filter fun w => w.1.resolve here = place).getLast?).map Prod.snd

/-- Without writes, nothing is written anywhere. -/
@[simp] theorem lastWrite?_nil (here place : Location) : lastWrite? here place [] = none := rfl

/-- Of two lists of writes, the second one decides, if it leads to the place at all. -/
theorem lastWrite?_append (here place : Location) (first second : List (Path × Text)) :
    lastWrite? here place (first ++ second) =
      (lastWrite? here place second).or (lastWrite? here place first) := by
  rw [lastWrite?, List.filter_append, List.getLast?_append]
  cases h : (second.filter fun w => w.1.resolve here = place).getLast? <;>
    simp [lastWrite?, h]

/-- One write leads to the place of its path, and to no other. -/
theorem lastWrite?_singleton (here place : Location) (path : Path) (content : Text) :
    lastWrite? here place [(path, content)] =
      if path.resolve here = place then some content else none := by
  rw [lastWrite?, List.filter_cons]
  split
  · next h => simpa using h
  · next h => simpa using h

/-- There is a last write to a place if some write leads there. -/
theorem lastWrite?_isSome_iff {here place : Location} {writes : List (Path × Text)} :
    (lastWrite? here place writes).isSome ↔ ∃ w ∈ writes, w.1.resolve here = place := by
  simp [lastWrite?]

/-- Nothing is written at a place exactly if no write leads to it. -/
theorem lastWrite?_eq_none_iff {here place : Location} {writes : List (Path × Text)} :
    lastWrite? here place writes = none ↔ ∀ w ∈ writes, w.1.resolve here ≠ place := by
  rw [← Option.not_isSome_iff_eq_none, lastWrite?_isSome_iff, not_exists]
  exact forall_congr' fun w => not_and

/-- Something is written where a write leads to. -/
theorem exists_lastWrite? (here : Location) {writes : List (Path × Text)} {w : Path × Text}
    (hw : w ∈ writes) : ∃ content, lastWrite? here (w.1.resolve here) writes = some content :=
  Option.isSome_iff_exists.1 (lastWrite?_isSome_iff.2 ⟨w, hw, rfl⟩)

/-- What has been written to a place last has been written there. -/
theorem exists_mem_of_lastWrite? {here place : Location} {writes : List (Path × Text)}
    {content : Text} (h : lastWrite? here place writes = some content) :
    ∃ w ∈ writes, w.1.resolve here = place ∧ w.2 = content := by
  obtain ⟨w, hw, rfl⟩ := Option.map_eq_some_iff.1 h
  obtain ⟨hmem, hplace⟩ := List.mem_filter.1 (List.mem_of_getLast? hw)
  exact ⟨w, hmem, of_decide_eq_true hplace, rfl⟩

namespace FileSystem

/-! ### Keeping -/

/-- The second file system has all directories of the first, and files wherever the first has
files. -/
structure Keeps (fs later : FileSystem) : Prop extends Grows fs later where
  file : ∀ place content, fs.tree.entryAt? place = some (.file content) →
    ∃ new, later.tree.entryAt? place = some (.file new)

namespace Keeps

/-- What is kept twice is kept. -/
theorem trans {fs mid later : FileSystem} (h : Keeps fs mid) (hlater : Keeps mid later) :
    Keeps fs later where
  here := hlater.here.trans h.here
  directory := fun place hplace => hlater.directory place (h.directory place hplace)
  something := fun place hplace => hlater.something place (h.something place hplace)
  file := by
    intro place content hplace
    obtain ⟨new, hnew⟩ := h.file place content hplace
    exact hlater.file place new hnew

/-- Everything is a directory or a file. -/
theorem of_entries {fs later : FileSystem} (hhere : later.here = fs.here)
    (hdirectory : ∀ place, fs.tree.entryAt? place = some .directory →
      later.tree.entryAt? place = some .directory)
    (hfile : ∀ place content, fs.tree.entryAt? place = some (.file content) →
      ∃ new, later.tree.entryAt? place = some (.file new)) : Keeps fs later where
  here := hhere
  directory := hdirectory
  something := by
    intro place hplace
    obtain ⟨entry, hentry⟩ := Option.isSome_iff_exists.1 hplace
    cases entry with
    | directory =>
        rw [hdirectory place hentry]
        rfl
    | file content =>
        obtain ⟨new, hnew⟩ := hfile place content hentry
        rw [hnew]
        rfl
  file := hfile

end Keeps

/-- A path that is found is found where there is more. -/
theorem locate_of_grows {fs later : FileSystem} (h : Grows fs later) {p : Path} {place : Location}
    (hlocate : fs.locate p = .ok place) : later.locate p = .ok place := by
  obtain ⟨hnul, hne, hfollow⟩ := locate_ok_iff.1 hlocate
  refine locate_ok_iff.2 ⟨hnul, hne, ?_⟩
  rw [start, h.here]
  exact follow_of_grows h hfollow

/-- A path of a directory is one where there is more. -/
theorem isDirectory_of_grows {fs later : FileSystem} (h : Grows fs later) {p : Path}
    (hdirectory : fs.isDirectory p = true) : later.isDirectory p = true := by
  obtain ⟨hnul, hne, hway⟩ := isDirectory_iff.1 hdirectory
  refine isDirectory_iff.2 ⟨hnul, hne, fun place hplace => ?_⟩
  rw [h.here] at hplace
  exact h.directory place (hway place hplace)

/-! ### Changes -/

/-- The second file system is the first with the files written, and with nothing else changed but
that some of the places `made` have become directories. -/
structure Change (fs : FileSystem) (writes : List (Path × Text)) (made : List Location)
    (later : FileSystem) : Prop where
  here : later.here = fs.here
  written : ∀ place content, lastWrite? fs.here place writes = some content →
    fs.tree.entryAt? place ≠ some .directory ∧
      later.tree.entryAt? place = some (.file (.text content))
  other : ∀ place, lastWrite? fs.here place writes = none →
    later.tree.entryAt? place = fs.tree.entryAt? place ∨
      fs.tree.entryAt? place = none ∧ later.tree.entryAt? place = some .directory ∧ place ∈ made

namespace Change

variable {fs mid later : FileSystem} {writes first second : List (Path × Text)}
  {made more : List Location}

/-- Nothing changes without writes, whatever might have become a directory. -/
theorem refl (fs : FileSystem) (made : List Location) : Change fs [] made fs where
  here := rfl
  written := by simp
  other := fun _ _ => .inl rfl

/-- More places might have become directories. -/
theorem mono (h : Change fs writes made later) (hmore : ∀ place ∈ made, place ∈ more) :
    Change fs writes more later where
  here := h.here
  written := h.written
  other := by
    intro place hplace
    rcases h.other place hplace with hsame | ⟨hnone, hdirectory, hmade⟩
    · exact .inl hsame
    · exact .inr ⟨hnone, hdirectory, hmore place hmade⟩

/-- Where nothing has been written, there is a file if it was there before. -/
theorem file_iff (h : Change fs writes made later) {place : Location}
    (hnone : lastWrite? fs.here place writes = none) {content : Content} :
    later.tree.entryAt? place = some (.file content) ↔
      fs.tree.entryAt? place = some (.file content) := by
  rcases h.other place hnone with hsame | ⟨hold, hnew, -⟩
  · rw [hsame]
  · simp [hold, hnew]

/-- **Changes after one another** are one change. -/
theorem trans (h : Change fs first made mid) (hlater : Change mid second more later) :
    Change fs (first ++ second) (made ++ more) later where
  here := hlater.here.trans h.here
  written := by
    intro place content hplace
    have hwritten := hlater.written place
    rw [h.here] at hwritten
    rw [lastWrite?_append] at hplace
    cases hsecond : lastWrite? fs.here place second with
    | some new =>
        obtain rfl : new = content := by simpa [hsecond] using hplace
        obtain ⟨hfree, hfile⟩ := hwritten new hsecond
        refine ⟨?_, hfile⟩
        cases hfirst : lastWrite? fs.here place first with
        | some old => exact (h.written place old hfirst).1
        | none =>
            rcases h.other place hfirst with hsame | ⟨hnone, -, -⟩
            · rwa [← hsame]
            · rw [hnone]
              exact fun habsurd => (nomatch habsurd)
    | none =>
        have hfirst : lastWrite? fs.here place first = some content := by
          simpa [hsecond] using hplace
        obtain ⟨hfree, hfile⟩ := h.written place content hfirst
        rw [← h.here] at hsecond
        exact ⟨hfree, (hlater.file_iff hsecond).2 hfile⟩
  other := by
    intro place hplace
    rw [lastWrite?_append, Option.or_eq_none_iff] at hplace
    obtain ⟨hsecond, hfirst⟩ := hplace
    rw [← h.here] at hsecond
    rcases hlater.other place hsecond with hsame | ⟨hnone, hdirectory, hmore⟩
    · rcases h.other place hfirst with hold | ⟨hnone, hdirectory, hmade⟩
      · exact .inl (hsame.trans hold)
      · exact .inr ⟨hnone, hsame.trans hdirectory, List.mem_append_left _ hmade⟩
    · rcases h.other place hfirst with hold | ⟨-, hold, -⟩
      · exact .inr ⟨hold ▸ hnone, hdirectory, List.mem_append_right _ hmore⟩
      · rw [hnone] at hold
        cases hold

/-- A change keeps what is there. -/
theorem keeps (h : Change fs writes made later) : Keeps fs later := by
  refine .of_entries h.here (fun place hplace => ?_) (fun place content hplace => ?_)
  · cases hwrite : lastWrite? fs.here place writes with
    | some content => exact absurd hplace (h.written place content hwrite).1
    | none =>
        rcases h.other place hwrite with hsame | ⟨-, hdirectory, -⟩
        · rw [hsame, hplace]
        · exact hdirectory
  · cases hwrite : lastWrite? fs.here place writes with
    | some new => exact ⟨.text new, (h.written place new hwrite).2⟩
    | none => exact ⟨content, (h.file_iff hwrite).2 hplace⟩

/-- Where nothing has been written, and no directory made, nothing is different. -/
theorem eq_of_not_written (h : Change fs writes [] later) {place : Location}
    (hnone : lastWrite? fs.here place writes = none) :
    later.tree.entryAt? place = fs.tree.entryAt? place := by
  rcases h.other place hnone with hsame | ⟨-, -, habsurd⟩
  · exact hsame
  · cases habsurd

/-- A file that is new, or has another content, has been written. -/
theorem exists_write (h : Change fs writes made later) {place : Location} {content : Content}
    (hfile : fs.tree.entryAt? place = some (.file content) ∨
      later.tree.entryAt? place = some (.file content))
    (hne : later.tree.entryAt? place ≠ fs.tree.entryAt? place) :
    ∃ w ∈ writes, w.1.resolve fs.here = place := by
  refine lastWrite?_isSome_iff.1 (Option.isSome_iff_ne_none.2 fun hnone => ?_)
  rcases h.other place hnone with hsame | ⟨hold, hnew, -⟩
  · exact hne hsame
  · rw [hold, hnew] at hfile
    rcases hfile with hfile | hfile
    · cases hfile
    · cases hfile

/-- A directory that is new has been made where nothing was. -/
theorem made_of_directory (h : Change fs writes made later) {place : Location}
    (hold : fs.tree.entryAt? place ≠ some .directory)
    (hnew : later.tree.entryAt? place = some .directory) : place ∈ made := by
  cases hwrite : lastWrite? fs.here place writes with
  | some content =>
      rw [(h.written place content hwrite).2] at hnew
      cases hnew
  | none =>
      rcases h.other place hwrite with hsame | ⟨-, -, hmade⟩
      · exact absurd (hsame.symm.trans hnew) hold
      · exact hmade

end Change

/-! ### Entries -/

/-- A path that asks for a new entry leads to the place of this entry. -/
theorem resolve_of_target {fs : FileSystem} {p : Path} {place : Location} {name : Text}
    {slash : Bool} (h : fs.target p = .ok (.new place name slash)) :
    p.resolve fs.here = place ++ [name] := by
  obtain ⟨front, rest, hsegments, hrest, -, -, -, hname, hfollow, -⟩ := target_new h
  rw [Path.resolve, moves_of_segments hsegments hname hrest, Location.walk_append,
    eq_walk_of_follow hfollow]
  rfl

/-- A new entry changes what lies where its path leads. -/
theorem entryAt?_put_target {fs : FileSystem} {p : Path} {place : Location} {name : Text}
    {slash : Bool} (h : fs.target p = .ok (.new place name slash)) (entry : Entry)
    (hkeep : fs.tree.entryAt? (place ++ [name]) = some .directory → entry = .directory)
    (other : Location) :
    (fs.tree.put place name entry).entryAt? other =
      if p.resolve fs.here = other then some entry else fs.tree.entryAt? other := by
  obtain ⟨-, -, -, -, -, -, -, -, -, hdirectory⟩ := target_new h
  rw [resolve_of_target h, FileTree.entryAt?_put _ hdirectory hkeep]

/-! ### Writing -/

/-- **What is written** at a path becomes the entry that it asks for, unless there is a
directory. -/
theorem write_of_target {fs : FileSystem} {p : Path} {place : Location} {name : Text}
    (h : fs.target p = .ok (.new place name false)) (content : Content) :
    fs.write p content =
      if fs.tree.entryAt? (place ++ [name]) = some .directory then .error .isADirectory
      else .ok { fs with tree := fs.tree.put place name (.file content) } := by
  rw [write, h]
  rfl

/-- **Writing** puts a file where a path asks for a new entry, unless there is a directory. -/
theorem exists_target_of_write {fs later : FileSystem} {p : Path} {content : Content}
    (h : fs.write p content = .ok later) :
    ∃ place name, fs.target p = .ok (.new place name false) ∧
      fs.tree.entryAt? (place ++ [name]) ≠ some .directory ∧
      later = { fs with tree := fs.tree.put place name (.file content) } := by
  cases htarget : fs.target p with
  | error e => simp [write, htarget, bind, Except.bind] at h
  | ok target =>
      cases target with
      | old => simp [write, htarget, bind, Except.bind, throw, throwThe, MonadExceptOf.throw] at h
      | new place name slash =>
          cases slash with
          | true =>
              simp [write, htarget, bind, Except.bind, throw, throwThe, MonadExceptOf.throw] at h
          | false =>
              rw [write_of_target htarget] at h
              split at h
              · cases h
              · next hfree => exact ⟨place, name, rfl, hfree, (Except.ok.inj h).symm⟩

/-- A write that succeeds changes the place of its path, and nothing else. -/
theorem change_write {fs later : FileSystem} {p : Path} {t : Text}
    (h : fs.write p (.text t) = .ok later) : Change fs [(p, t)] [] later := by
  obtain ⟨place, name, htarget, hfree, rfl⟩ := exists_target_of_write h
  have hentry := entryAt?_put_target htarget (.file (.text t)) fun h => absurd h hfree
  rw [← resolve_of_target htarget] at hfree
  refine ⟨rfl, fun other content hother => ?_, fun other hother => .inl ?_⟩
  · rw [lastWrite?_singleton] at hother
    split at hother
    · next hplace =>
      obtain rfl := Option.some.inj hother
      rw [← hplace]
      exact ⟨hfree, by rw [hentry, if_pos rfl]⟩
    · cases hother
  · rw [lastWrite?_singleton] at hother
    split at hother
    · cases hother
    · next hplace => rw [hentry, if_neg hplace]

/-- Where something has been written, there is a way to it. -/
theorem locate_of_write {fs later : FileSystem} {p : Path} {t : Text}
    (h : fs.write p (.text t) = .ok later) : later.locate p = .ok (p.resolve fs.here) := by
  have hgrows := (change_write h).keeps.toGrows
  obtain ⟨place, name, htarget, hfree, rfl⟩ := exists_target_of_write h
  have hentry := entryAt?_put_target htarget (.file (.text t)) (fun h => absurd h hfree)
    (place ++ [name])
  rw [resolve_of_target htarget, if_pos rfl] at hentry
  obtain ⟨front, rest, hsegments, -, hslash, hnul, hne, hname, hfollow, -⟩ := target_new htarget
  obtain rfl : rest = [] := by simpa using hslash
  refine locate_ok_iff.2 ⟨hnul, hne, ?_⟩
  rw [hsegments, follow_concat, resolve_of_target htarget]
  have hway := follow_of_grows hgrows hfollow
  rw [start, hgrows.here]
  rw [start] at hway
  rw [hway]
  exact (enter_eq_ok_iff hname).2 ⟨by rw [hentry]; rfl, rfl⟩

/-- What a path asks for does not change when a tree grows. -/
theorem target_of_grows {fs later : FileSystem} (h : Grows fs later) {p : Path} {place : Location}
    {name : Text} {slash : Bool} (htarget : fs.target p = .ok (.new place name slash)) :
    later.target p = .ok (.new place name slash) := by
  obtain ⟨front, rest, hsegments, hrest, rfl, hnul, -, hname, hfollow, hdirectory⟩ :=
    target_new htarget
  have hdots : ¬ (name = ['.'] ∨ name = ['.', '.']) :=
    not_or.2 ⟨hname.ne_of_isSilent rfl, hname.notUp⟩
  rw [target_eq later hnul hsegments (hname.ne_of_isSilent rfl) hrest, start, h.here]
  rw [start] at hfollow
  rw [follow_of_grows h hfollow]
  simp only [Except.bind]
  rw [if_pos (h.directory place hdirectory), if_neg hdots]

/-- **Writing again**, where the file that has been written is still a file, succeeds. -/
theorem write_again {fs later other : FileSystem} {p : Path} {t : Text}
    (h : fs.write p (.text t) = .ok later) (hkeeps : Keeps later other) :
    ∃ after, other.write p (.text t) = .ok after := by
  have hchange := change_write h
  obtain ⟨place, name, htarget, -, -⟩ := exists_target_of_write h
  have hplace := resolve_of_target htarget
  have hfile := (hchange.written (place ++ [name]) t
    (by rw [lastWrite?_singleton, if_pos hplace])).2
  obtain ⟨new, hnew⟩ := hkeeps.file _ _ hfile
  have hagain := target_of_grows (hchange.keeps.trans hkeeps).toGrows htarget
  exact ⟨_, by rw [write_of_target hagain, hnew, if_neg (by simp)]⟩

/-! ### Making directories -/

/-- **A directory that is made** at a path becomes the entry that it asks for, unless there is
something. -/
theorem makeDirectory_of_target {fs : FileSystem} {p : Path} {place : Location} {name : Text}
    {slash : Bool} (h : fs.target p = .ok (.new place name slash)) :
    fs.makeDirectory p =
      if (fs.tree.entryAt? (place ++ [name])).isSome then .error .alreadyExists
      else .ok { fs with tree := fs.tree.put place name .directory } := by
  rw [makeDirectory, h]
  rfl

/-- **Making a directory** puts it where a path asks for a new entry, unless something is there. -/
theorem exists_target_of_makeDirectory {fs later : FileSystem} {p : Path}
    (h : fs.makeDirectory p = .ok later) :
    ∃ place name slash, fs.target p = .ok (.new place name slash) ∧
      fs.tree.entryAt? (place ++ [name]) = none ∧
      later = { fs with tree := fs.tree.put place name .directory } := by
  cases htarget : fs.target p with
  | error e => simp [makeDirectory, htarget, bind, Except.bind] at h
  | ok target =>
      cases target with
      | old =>
          simp [makeDirectory, htarget, bind, Except.bind, throw, throwThe,
            MonadExceptOf.throw] at h
      | new place name slash =>
          rw [makeDirectory_of_target htarget] at h
          split at h
          · cases h
          · next hnone =>
            exact ⟨place, name, slash, rfl, Option.not_isSome_iff_eq_none.1 hnone,
              (Except.ok.inj h).symm⟩

/-- A directory that is made changes the place of its path, and nothing else. -/
theorem change_makeDirectory {fs later : FileSystem} {p : Path}
    (h : fs.makeDirectory p = .ok later) : Change fs [] [p.resolve fs.here] later := by
  obtain ⟨place, name, slash, htarget, hnone, rfl⟩ := exists_target_of_makeDirectory h
  have hentry := entryAt?_put_target htarget .directory fun _ => rfl
  rw [← resolve_of_target htarget] at hnone
  refine ⟨rfl, by simp, fun other _ => ?_⟩
  by_cases hplace : p.resolve fs.here = other
  · subst hplace
    exact .inr ⟨hnone, by rw [hentry, if_pos rfl], List.mem_singleton.2 rfl⟩
  · exact .inl (by rw [hentry, if_neg hplace])

/-- Where a directory has been made, there is one. -/
theorem isDirectory_of_makeDirectory {fs later : FileSystem} {p : Path}
    (h : fs.makeDirectory p = .ok later) : later.isDirectory p = true := by
  have hgrows := (change_makeDirectory h).keeps.toGrows
  obtain ⟨place, name, slash, htarget, hnone, rfl⟩ := exists_target_of_makeDirectory h
  have hentry := entryAt?_put_target htarget .directory fun _ => rfl
  obtain ⟨front, rest, hsegments, hrest, -, hnul, hne, hname, hfollow, hdirectory⟩ :=
    target_new htarget
  refine isDirectory_iff.2 ⟨hnul, hne, fun other hother => ?_⟩
  obtain ⟨-, moves, hmoves, rfl⟩ := Path.mem_way_iff.1 hother
  rw [moves_of_segments hsegments hname hrest] at hmoves
  rcases List.prefix_concat_iff.1 hmoves with rfl | hbefore
  · rw [← moves_of_segments hsegments hname hrest]
    exact (hentry (p.resolve fs.here)).trans (if_pos rfl)
  · exact hgrows.directory _ (follow_directory_iff.1 ⟨place, hfollow, hdirectory⟩ moves hbefore)

/-- A directory that is there is not made. -/
theorem makeDirectory_of_isDirectory {fs : FileSystem} {p : Path} (h : fs.isDirectory p = true) :
    fs.makeDirectory p = .error .alreadyExists := by
  obtain ⟨hnul, hne, hway⟩ := isDirectory_iff.1 h
  rcases segments_cases (Text.splitOn '/' p.text) with hsilent |
    ⟨front, name, rest, hsegments, hname, hrest⟩
  · rw [makeDirectory, target_of_silent fs hnul hne hsilent]
    rfl
  have hmoves : Path.spoken front <+: p.moves := by
    rw [Path.moves, hsegments, Path.spoken_append]
    exact List.prefix_append _ _
  obtain ⟨place, hfollow, hdirectory⟩ := follow_directory_iff.2 fun moves hbefore =>
    hway _ (Path.mem_way_iff.2 ⟨hne, moves, hbefore.trans hmoves, rfl⟩)
  have htarget := target_eq fs hnul hsegments hname hrest
  rw [start_eq, hfollow] at htarget
  simp only [Except.bind] at htarget
  rw [if_pos hdirectory] at htarget
  split at htarget
  · rw [makeDirectory, htarget]
    rfl
  · have hthere := hway _ (Path.resolve_mem_way hne fs.here)
    rw [resolve_of_target htarget] at hthere
    rw [makeDirectory_of_target htarget, hthere]
    rfl

/-! ### Making sure of directories -/

/-- Whether a directory is made or found, nothing changes but the place of its path. -/
theorem change_ensureDirectory (fs : FileSystem) (p : Path) :
    Change fs [] [p.resolve fs.here] (fs.ensureDirectory p).fs := by
  rw [ensureDirectory]
  cases hmake : fs.makeDirectory p with
  | ok later => exact change_makeDirectory hmake
  | error e =>
      simp only
      split
      · exact .refl fs _
      · exact .refl fs _

/-- A directory that has been made or found is there. -/
theorem isDirectory_of_ensureDirectory {fs : FileSystem} {p : Path}
    (h : (fs.ensureDirectory p).error? = none) :
    (fs.ensureDirectory p).fs.isDirectory p = true := by
  rw [ensureDirectory] at h ⊢
  cases hmake : fs.makeDirectory p with
  | ok later => exact isDirectory_of_makeDirectory hmake
  | error e =>
      simp only [hmake] at h ⊢
      split
      · next hthere => exact hthere
      · next hmissing =>
        rw [if_neg hmissing] at h
        cases h

/-- What becomes of a chain: its first directory is made at once, or behind the others, or the
others fail. -/
theorem ensureChain_cons_cases (fs : FileSystem) (p : Path) (above : List Path) :
    fs.ensureChain (p :: above) = fs.ensureDirectory p ∨
      (fs.ensureChain above).error? = none ∧
        fs.ensureChain (p :: above) = (fs.ensureChain above).fs.ensureDirectory p ∨
      (fs.ensureChain above).error? ≠ none ∧
        fs.ensureChain (p :: above) = fs.ensureChain above := by
  rw [ensureChain]
  split
  · cases habove : fs.ensureChain above with
    | mk later error? =>
        cases error? with
        | none => exact .inr (.inl ⟨rfl, rfl⟩)
        | some e => exact .inr (.inr ⟨by simp, rfl⟩)
  · exact .inl rfl

/-- Making directories changes nothing but the places where they lead. -/
theorem change_ensureChain (fs : FileSystem) (paths : List Path) :
    Change fs [] (paths.map (·.resolve fs.here)) (fs.ensureChain paths).fs := by
  induction paths with
  | nil => exact .refl fs _
  | cons p above ih =>
      rcases ensureChain_cons_cases fs p above with hone | ⟨-, hlast⟩ | ⟨-, hfailed⟩
      · rw [hone]
        exact (change_ensureDirectory fs p).mono (by simp)
      · rw [hlast]
        have hchange := ih.trans (change_ensureDirectory _ p)
        rw [ih.here] at hchange
        exact hchange.mono (by simp; grind)
      · rw [hfailed]
        exact ih.mono (by simp; grind)

/-- The first directory of a chain that has been made is there. -/
theorem isDirectory_of_ensureChain {fs : FileSystem} {p : Path} {above : List Path}
    (h : (fs.ensureChain (p :: above)).error? = none) :
    (fs.ensureChain (p :: above)).fs.isDirectory p = true := by
  rcases ensureChain_cons_cases fs p above with hone | ⟨-, hlast⟩ | ⟨hne, hfailed⟩
  · rw [hone] at h ⊢
    exact isDirectory_of_ensureDirectory h
  · rw [hlast] at h ⊢
    exact isDirectory_of_ensureDirectory h
  · rw [hfailed] at h
    exact absurd h hne

/-- **Making sure of a directory** makes directories on its way, and changes nothing else. -/
theorem change_ensureDirectories (fs : FileSystem) (p : Path) :
    Change fs [] (p.way fs.here) (fs.ensureDirectories p).fs := by
  refine (change_ensureChain fs p.ancestors).mono fun place hplace => ?_
  obtain ⟨q, hq, rfl⟩ := List.mem_map.1 hplace
  exact Path.resolve_mem_way_of_mem_ancestors hq fs.here

/-- If it succeeds, there is a directory. -/
theorem isDirectory_of_ensureDirectories {fs : FileSystem} {p : Path} (hne : p.text ≠ [])
    (h : (fs.ensureDirectories p).error? = none) :
    (fs.ensureDirectories p).fs.isDirectory p = true := by
  obtain ⟨above, hancestors⟩ := Path.ancestors_eq_cons hne
  rw [ensureDirectories, hancestors] at h ⊢
  exact isDirectory_of_ensureChain h

/-- Where there is a directory, making sure of it does nothing. -/
theorem ensureDirectories_of_isDirectory {fs : FileSystem} {p : Path}
    (h : fs.isDirectory p = true) : fs.ensureDirectories p = ⟨fs, none⟩ := by
  obtain ⟨-, hne, -⟩ := isDirectory_iff.1 h
  obtain ⟨above, hancestors⟩ := Path.ancestors_eq_cons hne
  rw [ensureDirectories, hancestors, ensureChain, makeDirectory_of_isDirectory h]
  simp only [ensureDirectory, makeDirectory_of_isDirectory h, h, if_true]

/-- An empty path asks for nothing. -/
theorem ensureDirectories_of_empty (fs : FileSystem) {p : Path} (h : p.text = []) :
    fs.ensureDirectories p = ⟨fs, none⟩ := by
  obtain ⟨t⟩ := p
  obtain rfl : t = [] := h
  rfl

end FileSystem

end Guidebook
