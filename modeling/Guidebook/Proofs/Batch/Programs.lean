import Guidebook.Proofs.Batch.Success
import Guidebook.Proofs.FileTree.Writing
import Mathlib.Data.List.Nodup

/-!
# Programs on Disk

The numbered programs of a guide lie in one directory, under names that differ in their numbers. A
run that has written them without failure leaves every one of them there with its content.

## Main results

* `paddedIndex_injective`, `isFileName_program`: the names of programs.
* `read_performAll_writes`: **what a sequence of writes leaves behind**.
* `programSteps_eq`: putting programs in their place is writing their files.
-/

namespace Guidebook

/-! ### The names of programs -/

/-- Padding can be taken off again. -/
theorem ofDigitChars_paddedIndex (index : Nat) :
    Nat.ofDigitChars 10 (paddedIndex index) 0 = index := by
  rw [paddedIndex, List.leftpad, Nat.ofDigitChars_append, Nat.ofDigitChars_replicate_zero,
    Nat.mul_zero, Text.ofNat, Nat.ofDigitChars_ten_toDigits]

/-- Different numbers are written differently. -/
theorem paddedIndex_injective : Function.Injective paddedIndex := by
  intro i j h
  rw [← ofDigitChars_paddedIndex i, h, ofDigitChars_paddedIndex]

/-- A number is written in digits. -/
theorem isDigit_of_mem_paddedIndex {index : Nat} {c : Char} (h : c ∈ paddedIndex index) :
    c.isDigit = true := by
  rw [paddedIndex, List.leftpad, List.mem_append] at h
  rcases h with hzero | hdigit
  · rw [List.eq_of_mem_replicate hzero]
    rfl
  · exact Nat.isDigit_of_mem_toDigits (by decide) (by decide) hdigit

/-- A number is written with at least three digits. -/
theorem length_paddedIndex (index : Nat) : 3 ≤ (paddedIndex index).length := by
  rw [paddedIndex, List.length_leftpad]
  exact le_max_left 3 _

/-- The name of the file of a program. -/
def programName (name extension : Text) (index : Nat) : Text :=
  name ++ paddedIndex index ++ '.' :: extension

/-- **Programs with different numbers** have different names. -/
theorem programName_injective (name extension : Text) :
    Function.Injective (programName name extension) := by
  intro i j h
  rw [programName, programName, List.append_assoc, List.append_assoc] at h
  exact paddedIndex_injective (List.append_cancel_right (List.append_cancel_left h))

/-- The name of a program is longer than its number. -/
theorem length_programName (name extension : Text) (index : Nat) :
    3 < (programName name extension index).length := by
  have hindex := length_paddedIndex index
  simp only [programName, List.length_append, List.length_cons]
  omega

/-- The name of a program is one that a file can have. -/
theorem isFileName_program {name extension : Text} (hname : '/' ∉ name)
    (hextension : '/' ∉ extension) (index : Nat) :
    Path.IsFileName (programName name extension index) := by
  have hindex : '/' ∉ paddedIndex index := by
    intro hmem
    exact absurd (isDigit_of_mem_paddedIndex hmem) (by decide)
  refine Path.isFileName_of_length (by simp [programName, hname, hindex, hextension]) ?_
  have hlength := length_programName name extension index
  omega

/-! ### Carrying out writes -/

/-- The steps that write files in a directory. -/
def writesIn (kind : OutputKind) (directory : Path) (files : List (Text × Text)) : List Step :=
  files.map fun file => .write kind (directory.join ⟨file.1⟩) file.2

section Writes

variable {kind : OutputKind} {directory : Path} {files : List (Text × Text)}

/-- Writes under other names leave a file alone. -/
theorem read_performAll_of_not_mem {fs : FileSystem} {name content : Text}
    (hname : Path.IsFileName name) (hfiles : ∀ file ∈ files, Path.IsFileName file.1)
    (hother : name ∉ files.map (·.1)) (hread : fs.read (directory.join ⟨name⟩) = .ok content)
    (h : (performAll fs (writesIn kind directory files)).result = .ok ()) :
    (performAll fs (writesIn kind directory files)).fs.read (directory.join ⟨name⟩) =
      .ok content := by
  induction files generalizing fs with
  | nil => exact hread
  | cons file files ih =>
      obtain ⟨hfile, hfiles⟩ := List.forall_mem_cons.1 hfiles
      rw [List.map_cons, List.mem_cons, not_or] at hother
      obtain ⟨hstep, hsteps⟩ := performAll_cons_eq_ok_iff.1 h
      have hkept := FileSystem.read_write_of_ne hfile hname (Ne.symm hother.1)
        (write_of_perform hstep) hread
      have hrest := ih hfiles hother.2 hkept hsteps
      rwa [writesIn, List.map_cons, performAll, Run.fs_andThen hstep]

/-- **What a sequence of writes leaves behind**: each file, if no two have the same name. -/
theorem read_performAll_writes {fs : FileSystem} (hfiles : ∀ file ∈ files, Path.IsFileName file.1)
    (hnodup : (files.map (·.1)).Nodup)
    (h : (performAll fs (writesIn kind directory files)).result = .ok ()) :
    ∀ file ∈ files, (performAll fs (writesIn kind directory files)).fs.read
      (directory.join ⟨file.1⟩) = .ok file.2 := by
  induction files generalizing fs with
  | nil => simp
  | cons file files ih =>
      obtain ⟨hfile, hfiles⟩ := List.forall_mem_cons.1 hfiles
      obtain ⟨hother, hnodup⟩ := List.nodup_cons.1 hnodup
      obtain ⟨hstep, hsteps⟩ := performAll_cons_eq_ok_iff.1 h
      rw [writesIn, List.map_cons, performAll, Run.fs_andThen hstep]
      have hwritten := FileSystem.read_write hfile (write_of_perform hstep)
      exact List.forall_mem_cons.2
        ⟨read_performAll_of_not_mem hfile hfiles hother hwritten hsteps,
          ih hfiles hnodup hsteps⟩

end Writes

/-! ### Numbered programs -/

/-- The files of numbered programs: their names and contents. -/
def programFiles (name extension : Text) (programs : List Text) : List (Text × Text) :=
  programs.mapIdx fun index content => (programName name extension index, content)

/-- The names of all programs of a guide are names that files can have. -/
theorem isFileName_of_mem_programFiles {name extension : Text} {programs : List Text}
    (hname : '/' ∉ name) (hextension : '/' ∉ extension) :
    ∀ file ∈ programFiles name extension programs, Path.IsFileName file.1 := by
  intro file hfile
  obtain ⟨index, hindex, rfl⟩ := List.mem_mapIdx.1 hfile
  exact isFileName_program hname hextension index

/-- No two programs have the same name. -/
theorem nodup_programFiles (name extension : Text) (programs : List Text) :
    ((programFiles name extension programs).map (·.1)).Nodup := by
  have hnames : (programFiles name extension programs).map (·.1) =
      (List.range programs.length).map (programName name extension) :=
    List.ext_getElem (by simp [programFiles]) fun i hi hi' => by simp [programFiles]
  rw [hnames]
  exact List.nodup_range.map (programName_injective name extension)

/-- The program with a number is among the files under the name with this number. -/
theorem mem_programFiles (name extension : Text) {programs : List Text} {index : Nat}
    (h : index < programs.length) :
    (programName name extension index, programs[index]) ∈ programFiles name extension programs :=
  List.mem_mapIdx.2 ⟨index, h, rfl⟩

/-- Numbered programs in a directory, by their numbers. -/
theorem programPaths_eq (directory : Path) (name extension : Text) (programs : List Text) :
    programPaths directory name extension programs =
      (List.range programs.length).map fun index =>
        directory.join ⟨programName name extension index⟩ :=
  List.ext_getElem (by simp [programPaths]) fun index _ _ => by
    simp only [programPaths, List.getElem_mapIdx, List.getElem_map, List.getElem_range]
    rfl

/-- Programs are put in their place by writing their files. -/
theorem programSteps_eq (kind : OutputKind) (directory : Path) (name extension : Text)
    {programs : List Text} (h : programs ≠ []) :
    programSteps kind directory (programPaths directory name extension programs) programs =
      .ensure directory :: writesIn kind directory (programFiles name extension programs) := by
  rw [programSteps, if_neg h]
  congr 1
  refine List.ext_getElem (by simp [programPaths, writesIn, programFiles]) fun i hi hi' => ?_
  simp [programPaths, writesIn, programFiles, programName]

end Guidebook
