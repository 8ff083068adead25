import Guidebook.Proofs.Batch.Elsewhere

/-!
# Running Again

A run that has left its candidates as they were can be repeated: the second run, over what the first
has left, reports the same and leaves all files and directories as it found them.

The second run is compared with the first candidate by candidate. Behind as many candidates, the
first run has changed the files from before it by certain writes, and the second has changed those
that the first has left by the same writes, and has made no directory. So a guide that the first run
has read there holds the same for the second: either it has been written by one of those writes, or
it is what it was before, and at the end of, the first run. The same steps follow, and what has
succeeded once succeeds again. In the end all writes of the first run have been repeated, and since
what they have left is what the last writes have left, nothing is different.

## Main results

* `FileSystem.read_again`: a guide holds the same for both runs.
* `processFile_again`: **a candidate in the second run**.
* `generate_again`: **a run that is repeated** changes nothing.
-/

namespace Guidebook

/-! ### Files that both runs see -/

namespace FileSystem

/-- Where a path leads in the second file system, a file of the first is still what it was. -/
def Spares (fs later : FileSystem) (path : Path) : Prop :=
  ∀ place content, later.locate path = .ok place →
    fs.tree.entryAt? place = some (.file content) → later.tree.entryAt? place = some (.file content)

section Comparison

variable {fs mid last other : FileSystem} {writes : List (Path × Text)} {made : List Location}

/-- What can be read behind some writes can be read behind the same writes over another file system,
if a file from before is the same in both. -/
theorem read_again (hmid : Change fs writes made mid) (hother : Change last writes [] other)
    (hlast : Keeps mid last) {path : Path} {t : Text} (hspares : Spares fs last path)
    (hread : mid.read path = .ok t) : other.read path = .ok t := by
  obtain ⟨place, hplace, hfile⟩ := read_ok_iff.1 hread
  have hthere := locate_of_grows hlast.toGrows hplace
  refine read_ok_iff.2 ⟨place, locate_of_grows hother.keeps.toGrows hthere, ?_⟩
  have hhere : last.here = fs.here := hlast.here.trans hmid.here
  cases hwrite : lastWrite? fs.here place writes with
  | some content =>
      rw [(hmid.written place content hwrite).2] at hfile
      rw [← hhere] at hwrite
      rw [(hother.written place content hwrite).2, hfile]
  | none =>
      -- Nothing has been written there, so the file is that from before.
      have hbefore := (hmid.file_iff hwrite).1 hfile
      rw [← hhere] at hwrite
      rw [hother.eq_of_not_written hwrite]
      exact hspares place _ hthere hbefore

/-- All writes repeated change nothing, over what they have left. -/
theorem eq_of_change_again (hlast : Change fs writes made last)
    (hother : Change last writes [] other) : other = last := by
  have hentry : ∀ place, other.tree.entryAt? place = last.tree.entryAt? place := by
    intro place
    cases hwrite : lastWrite? last.here place writes with
    | some content =>
        rw [(hother.written place content hwrite).2]
        rw [hlast.here] at hwrite
        rw [(hlast.written place content hwrite).2]
    | none => exact hother.eq_of_not_written hwrite
  exact congrArg₂ FileSystem.mk (FileTree.ext_entryAt? hentry) hother.here

end Comparison

end FileSystem

/-! ### The second run -/

section Again

variable {publisher : Publisher} {settings : Settings} {fs mid last other : FileSystem}
  {path : Path}
  {outcome : Outcome} {writes : List (Path × Text)} {made : List Location}

/-- **A candidate in the second run** meets with the same, and what it writes is the same. -/
theorem processFile_again
    (h : (processFile publisher settings mid path).result = .ok outcome)
    (hkeeps : FileSystem.Keeps (processFile publisher settings mid path).fs other)
    (hread : ∀ t, mid.read path = .ok t → other.read path = .ok t) :
    (processFile publisher settings other path).result = .ok outcome ∧
      other.Change (writesOf (stepsFor publisher settings mid path)) []
        (processFile publisher settings other path).fs := by
  have helsewhere := processFile_elsewhere h hread
  have hcarried := carriedOut_processFile h
  rw [hcarried.left] at hkeeps
  obtain ⟨hagain, hchange⟩ := performAll_again hcarried.completed hkeeps
  rw [helsewhere.left]
  exact ⟨helsewhere.of_completed hagain, hchange⟩

/-- A run takes no file and no directory away. -/
theorem Took.keeps {taken : List (Path × Outcome)} (h : Took publisher settings fs taken last) :
    FileSystem.Keeps fs last :=
  h.performed.change.keeps

/-- **The candidates of the second run**, behind those that both runs have taken: the others are
taken alike, and both runs end with the same writes. -/
theorem took_again {taken : List (Path × Outcome)}
    (h : Took publisher settings mid taken last)
    (hspares : ∀ candidate ∈ taken, fs.Spares last candidate.1)
    (hmid : fs.Change writes made mid) (hother : last.Change writes [] other) :
    ∃ all more later, Took publisher settings other taken later ∧ fs.Change all more last ∧
      last.Change all [] later := by
  -- `writes` are those that both runs have behind them.
  induction h generalizing writes made other with
  | nil last => exact ⟨writes, made, other, .nil other, hmid, hother⟩
  | @cons mid last path outcome taken first others ih =>
      have hfirst := carriedOut_processFile first
      have hperformed := performed_performAll hfirst.completed
      rw [← hfirst.left] at hperformed
      have hkeeps := hperformed.change.keeps.trans others.keeps
      obtain ⟨hresult, hchange⟩ := processFile_again first (others.keeps.trans hother.keeps)
        fun t => FileSystem.read_again hmid hother hkeeps (hspares _ List.mem_cons_self)
      obtain ⟨all, more, later, htook, hall, hlater⟩ := ih
        (fun candidate hcandidate => hspares candidate (List.mem_cons_of_mem _ hcandidate))
        (hmid.trans hperformed.change) (hother.trans hchange)
      exact ⟨all, more, later, .cons hresult htook, hall, hlater⟩

end Again

/-- **A run that is repeated**, over the files that it has left, reports the same and changes
nothing, if it has left the files to which its candidates lead as they were. -/
theorem generate_again {publisher : Publisher} {settings : Settings} {fs : FileSystem}
    {paths : List Path} {report : Report}
    (h : (generate publisher settings fs paths).result = .ok report)
    (hspares : ∀ path ∈ paths, fs.Spares (generate publisher settings fs paths).fs path) :
    (generate publisher settings (generate publisher settings fs paths).fs paths).result =
        .ok report ∧
      (generate publisher settings (generate publisher settings fs paths).fs paths).fs =
        (generate publisher settings fs paths).fs := by
  obtain ⟨taken, rfl, htook, rfl⟩ := exists_took h
  obtain ⟨all, more, later, hagain, hall, hlater⟩ := took_again htook
    (fun candidate hcandidate => hspares _ (List.mem_map_of_mem hcandidate))
    (.refl fs []) (.refl _ [])
  obtain rfl := FileSystem.eq_of_change_again hall hlater
  exact hagain.generate_eq

/-- Two guides with the same page are taken again: the second is written last both times. -/
theorem generate_again_over_shared_page :
    (generate Guide.publish .plain
        (generate Guide.publish .plain .sharedPage candidatesOfSharedPage).fs
        candidatesOfSharedPage).result = .ok reportOfSharedPage ∧
      (generate Guide.publish .plain
        (generate Guide.publish .plain .sharedPage candidatesOfSharedPage).fs
        candidatesOfSharedPage).fs =
          (generate Guide.publish .plain .sharedPage candidatesOfSharedPage).fs := by
  have hsame : ∀ path ∈ candidatesOfSharedPage,
      ∀ place ∈ ((generate Guide.publish .plain .sharedPage candidatesOfSharedPage).fs.locate
        path).toOption,
      (generate Guide.publish .plain .sharedPage candidatesOfSharedPage).fs.tree.entryAt? place =
        FileSystem.sharedPage.tree.entryAt? place := by
    decide +kernel
  refine generate_again (by decide +kernel) fun path hpath place content hplace hfile => ?_
  exact (hsame path hpath place (by rw [hplace]; rfl)).trans hfile

end Guidebook
