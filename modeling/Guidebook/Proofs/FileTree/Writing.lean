import Guidebook.FileTree.FileSystem
import Guidebook.Proofs.Path.Components

/-!
# Writing and Reading Files

What is written at a path is read there, and files elsewhere stay what they were. Writing puts one
file into the tree and takes nothing out of it, so a path that led somewhere before leads to the
same place afterwards.

## Main results

* `FileSystem.follow_of_grows`: paths lead to the same places when a tree grows.
* `FileSystem.grows_put`: a file that is put into a tree makes it grow.
* `FileSystem.read_file_eq_ok_iff`: when a file in a directory can be read.
* `FileSystem.read_write`, `FileSystem.read_write_of_ne`: **reading after writing**.
-/

namespace Guidebook.FileSystem

/-! ### Growing -/

/-- The second file system has all directories of the first, and something wherever the first has
something. -/
structure Grows (fs later : FileSystem) : Prop where
  here : later.here = fs.here
  directory : ∀ place, fs.tree.entryAt? place = some .directory →
    later.tree.entryAt? place = some .directory
  something : ∀ place, (fs.tree.entryAt? place).isSome → (later.tree.entryAt? place).isSome

/-- A segment that is entered is entered where there is more. -/
theorem enter_of_grows {fs later : FileSystem} (h : Grows fs later) {place next : Location}
    {segment : Text} (henter : fs.enter place segment = .ok next) :
    later.enter place segment = .ok next := by
  unfold enter at henter ⊢
  split at henter
  · simp at henter
  · simp at henter
  · next hdirectory =>
    rw [h.directory place hdirectory]
    simp only
    split at henter
    · next hsilent => rw [if_pos hsilent]; exact henter
    · next hspeaks =>
      rw [if_neg hspeaks]
      split at henter
      · next hup => rw [if_pos hup]; exact henter
      · next hname =>
        rw [if_neg hname]
        split at henter
        · next hsome => rw [if_pos (h.something _ hsome)]; exact henter
        · simp at henter

/-- Paths lead to the same places when a tree grows. -/
theorem follow_of_grows {fs later : FileSystem} (h : Grows fs later) {place last : Location}
    {segments : List Text} (hfollow : fs.follow place segments = .ok last) :
    later.follow place segments = .ok last := by
  induction segments generalizing place with
  | nil => exact hfollow
  | cons segment segments ih =>
      rw [follow, List.foldlM_cons] at hfollow ⊢
      cases henter : fs.enter place segment with
      | error e => simp [henter, bind, Except.bind] at hfollow
      | ok next =>
          rw [henter] at hfollow
          rw [enter_of_grows h henter]
          exact ih hfollow

/-- Segments are followed but for the last, and then this one is entered. -/
theorem follow_concat (fs : FileSystem) (place : Location) (segments : List Text)
    (segment : Text) :
    fs.follow place (segments ++ [segment]) =
      (fs.follow place segments).bind fun next => fs.enter next segment := by
  rw [follow, List.foldlM_append]
  simp only [List.foldlM_cons, List.foldlM_nil, bind_pure]
  rfl

/-- A new file keeps all that there is, if it replaces no directory. -/
theorem grows_put (fs : FileSystem) {place : Location} {name : Text} {content : Content}
    (hdirectory : fs.tree.entryAt? place = some .directory)
    (hfree : fs.tree.entryAt? (place ++ [name]) ≠ some .directory) :
    Grows fs { fs with tree := fs.tree.put place name (.file content) } where
  here := rfl
  directory := by
    intro other hother
    rw [FileTree.entryAt?_put _ hdirectory fun h => absurd h hfree, if_neg]
    · exact hother
    · rintro rfl
      exact hfree hother
  something := by
    intro other hother
    rw [FileTree.entryAt?_put _ hdirectory fun h => absurd h hfree]
    split
    · rfl
    · exact hother

/-! ### Files in directories -/

/-- The segments that lead to the directory, where something is read from within it. -/
def segmentsTo (directory : Path) : List Text :=
  (Text.splitOn '/' (directory.join ⟨[]⟩).text).dropLast

section File

variable {directory : Path} {name : Text}

/-- The segments of a path to a file are those to its directory and its name. -/
theorem splitOn_file (directory : Path) (h : Path.IsFileName name) :
    Text.splitOn '/' (directory.join ⟨name⟩).text = segmentsTo directory ++ [name] := by
  by_cases hempty : directory.text = []
  · rw [segmentsTo, Path.join_of_empty hempty, Path.join_of_empty hempty]
    exact h.splitOn
  · obtain ⟨t, -, hjoin⟩ := Path.join_eq hempty
    rw [segmentsTo, hjoin _ h.isAbsolute, hjoin ⟨[]⟩ rfl]
    simp only [Text.splitOn_append, h.splitOn]
    rw [show Text.splitOn '/' [] = [[]] from rfl, List.dropLast_concat]

/-- The segments of a file in a directory are those that lead to the directory, and its name. -/
theorem segmentsOf_file (directory : Path) (h : Path.IsFileName name) :
    segmentsOf (directory.join ⟨name⟩) =
      if '\x00' ∈ (directory.join ⟨name⟩).text then .error .invalidInput
      else .ok (segmentsTo directory ++ [name]) := by
  have hsegments := splitOn_file directory h
  have hne : (directory.join ⟨name⟩).text ≠ [] := by
    intro hnil
    rw [hnil] at hsegments
    have hlast := congrArg List.getLast? hsegments
    rw [List.getLast?_concat] at hlast
    exact h.ne_of_isSilent rfl (Option.some.inj hlast).symm
  rw [segmentsOf, hsegments, if_neg hne]

/-- A file in a directory starts where the directory does. -/
theorem start_file (fs : FileSystem) (directory : Path) (h : Path.IsFileName name) :
    fs.start (directory.join ⟨name⟩) = fs.start directory := by
  rw [start, start, Path.isAbsolute_join directory h.isAbsolute]

/-- Entering a name finds what is there. -/
theorem enter_eq_ok_iff {fs : FileSystem} {place next : Location} (h : Path.IsFileName name) :
    fs.enter place name = .ok next ↔
      (fs.tree.entryAt? (place ++ [name])).isSome ∧ next = place ++ [name] := by
  constructor
  · intro henter
    unfold enter at henter
    split at henter
    · simp at henter
    · simp at henter
    · rw [if_neg (Bool.not_eq_true _ ▸ h.speaks), if_neg h.notUp] at henter
      split at henter
      · next hsome => exact ⟨hsome, (Except.ok.inj henter).symm⟩
      · simp at henter
  · rintro ⟨hsome, rfl⟩
    rw [enter, fs.tree.entryAt?_parent hsome]
    simp only [h.speaks, h.notUp, hsome, if_true, if_false]
    rfl

/-- A file is located by way of its directory. -/
theorem locate_file {fs : FileSystem} (h : Path.IsFileName name)
    (hnul : '\x00' ∉ (directory.join ⟨name⟩).text) :
    fs.locate (directory.join ⟨name⟩) =
      (fs.follow (fs.start directory) (segmentsTo directory)).bind fun place =>
        fs.enter place name := by
  rw [locate, segmentsOf_file directory h, if_neg hnul, start_file fs directory h]
  exact follow_concat fs _ _ name

/-- **Reading a file in a directory** finds it among what lies where the directory is. -/
theorem read_file_eq_ok_iff {fs : FileSystem} {t : Text} (h : Path.IsFileName name) :
    fs.read (directory.join ⟨name⟩) = .ok t ↔
      '\x00' ∉ (directory.join ⟨name⟩).text ∧
      ∃ place, fs.follow (fs.start directory) (segmentsTo directory) = .ok place ∧
        fs.tree.entryAt? (place ++ [name]) = some (.file (.text t)) := by
  by_cases hnul : '\x00' ∈ (directory.join ⟨name⟩).text
  · have hsegments := segmentsOf_file directory h
    rw [if_pos hnul] at hsegments
    simp [read, locate, hsegments, hnul, bind, Except.bind]
  · rw [read, locate_file h hnul]
    cases hfollow : fs.follow (fs.start directory) (segmentsTo directory) with
    | error e => simp [bind, Except.bind]
    | ok place =>
        cases henter : fs.enter place name with
        | error e =>
            have hnone : ¬ (fs.tree.entryAt? (place ++ [name])).isSome := by
              intro hsome
              rw [(enter_eq_ok_iff h).2 ⟨hsome, rfl⟩] at henter
              cases henter
            simp only [bind, Except.bind, henter]
            refine ⟨fun hread => (nomatch hread), ?_⟩
            rintro ⟨-, found, hfound, hfile⟩
            obtain rfl := Except.ok.inj hfound
            exact absurd (by rw [hfile]; rfl) hnone
        | ok next =>
            obtain ⟨-, rfl⟩ := (enter_eq_ok_iff h).1 henter
            simp only [bind, Except.bind, henter]
            constructor
            · intro hread
              refine ⟨hnul, place, rfl, ?_⟩
              split at hread
              · next hfile => rw [hfile, Except.ok.inj hread]
              · cases hread
              · cases hread
              · cases hread
            · rintro ⟨-, found, hfound, hfile⟩
              obtain rfl := Except.ok.inj hfound
              rw [hfile]
              rfl

/-- What writing to a file in a directory asks for. -/
theorem target_file {fs : FileSystem} (h : Path.IsFileName name)
    (hnul : '\x00' ∉ (directory.join ⟨name⟩).text) :
    fs.target (directory.join ⟨name⟩) =
      (fs.follow (fs.start directory) (segmentsTo directory)).bind fun place =>
        if fs.tree.entryAt? place = some .directory then .ok (.new place name false)
        else .error .notADirectory := by
  have hne : name ≠ [] := h.ne_of_isSilent rfl
  have hdot : name ≠ ['.'] := h.ne_of_isSilent rfl
  have hnamed : ((segmentsTo directory ++ [name]).reverse.dropWhile (· = [])).reverse =
      segmentsTo directory ++ [name] := by
    simp [hne]
  rw [target, segmentsOf_file directory h, if_neg hnul, start_file fs directory h]
  simp only [bind, Except.bind, hnamed, List.getLast?_concat, List.dropLast_concat]
  cases fs.follow (fs.start directory) (segmentsTo directory) with
  | error e => rfl
  | ok place =>
      simp only [hdot, h.notUp, or_self, if_false, lt_irrefl, decide_false]
      split
      · next hdirectory => rw [if_pos hdirectory]; rfl
      · next hother => rw [if_neg hother]; rfl

/-- **Writing a file in a directory** puts it there. -/
theorem write_file_eq_ok_iff {fs later : FileSystem} {content : Content}
    (h : Path.IsFileName name) :
    fs.write (directory.join ⟨name⟩) content = .ok later ↔
      '\x00' ∉ (directory.join ⟨name⟩).text ∧
      ∃ place, fs.follow (fs.start directory) (segmentsTo directory) = .ok place ∧
        fs.tree.entryAt? place = some .directory ∧
        fs.tree.entryAt? (place ++ [name]) ≠ some .directory ∧
        later = { fs with tree := fs.tree.put place name (.file content) } := by
  by_cases hnul : '\x00' ∈ (directory.join ⟨name⟩).text
  · have hsegments := segmentsOf_file directory h
    rw [if_pos hnul] at hsegments
    simp [write, target, hsegments, hnul, bind, Except.bind]
  · rw [write, target_file h hnul]
    cases hfollow : fs.follow (fs.start directory) (segmentsTo directory) with
    | error e => simp [bind, Except.bind]
    | ok place =>
        by_cases hdirectory : fs.tree.entryAt? place = some .directory
        · by_cases hfree : fs.tree.entryAt? (place ++ [name]) = some .directory
          · simp [bind, Except.bind, hdirectory, hfree, throw, throwThe, MonadExceptOf.throw]
          · simp only [bind, Except.bind, if_pos hdirectory, if_neg hfree]
            constructor
            · intro hwrite
              exact ⟨hnul, place, rfl, hdirectory, hfree, (Except.ok.inj hwrite).symm⟩
            · rintro ⟨-, found, hfound, -, -, rfl⟩
              rw [Except.ok.inj hfound]
              rfl
        · simp only [bind, Except.bind, if_neg hdirectory]
          refine ⟨fun hwrite => (nomatch hwrite), ?_⟩
          rintro ⟨-, found, hfound, hfoundDirectory, -, -⟩
          rw [← Except.ok.inj hfound] at hfoundDirectory
          exact absurd hfoundDirectory hdirectory

/-- A file that is written in a directory keeps all that there is. -/
theorem grows_write_file {fs later : FileSystem} {content : Content} (h : Path.IsFileName name)
    (hwrite : fs.write (directory.join ⟨name⟩) content = .ok later) : Grows fs later := by
  obtain ⟨-, place, -, hdirectory, hfree, rfl⟩ := (write_file_eq_ok_iff h).1 hwrite
  exact grows_put fs hdirectory hfree

/-- **Reading what has been written.** -/
theorem read_write {fs later : FileSystem} {t : Text} (h : Path.IsFileName name)
    (hwrite : fs.write (directory.join ⟨name⟩) (.text t) = .ok later) :
    later.read (directory.join ⟨name⟩) = .ok t := by
  have hgrows := grows_write_file h hwrite
  obtain ⟨hnul, place, hfollow, hdirectory, hfree, hlater⟩ := (write_file_eq_ok_iff h).1 hwrite
  refine (read_file_eq_ok_iff h).2 ⟨hnul, place, ?_, ?_⟩
  · rw [start, hgrows.here]
    exact follow_of_grows hgrows hfollow
  · rw [hlater, FileTree.entryAt?_put _ hdirectory fun heq => absurd heq hfree, if_pos rfl]

/-- **Reading what has been written elsewhere** in the same directory: it is still there. -/
theorem read_write_of_ne {fs later : FileSystem} {content : Content} {t : Text} {other : Text}
    (h : Path.IsFileName name) (hother : Path.IsFileName other) (hne : name ≠ other)
    (hwrite : fs.write (directory.join ⟨name⟩) content = .ok later)
    (hread : fs.read (directory.join ⟨other⟩) = .ok t) :
    later.read (directory.join ⟨other⟩) = .ok t := by
  have hgrows := grows_write_file h hwrite
  obtain ⟨-, place, hfollow, hdirectory, hfree, hlater⟩ := (write_file_eq_ok_iff h).1 hwrite
  obtain ⟨hnul, found, hfound, hfile⟩ := (read_file_eq_ok_iff hother).1 hread
  obtain rfl := Except.ok.inj (hfollow.symm.trans hfound)
  refine (read_file_eq_ok_iff hother).2 ⟨hnul, place, ?_, ?_⟩
  · rw [start, hgrows.here]
    exact follow_of_grows hgrows hfollow
  · have hplaces : place ++ [name] ≠ place ++ [other] := by simpa using hne
    rw [hlater, FileTree.entryAt?_put _ hdirectory fun heq => absurd heq hfree, if_neg hplaces,
      hfile]

end File

end Guidebook.FileSystem
