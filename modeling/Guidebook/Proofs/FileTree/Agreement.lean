import Guidebook.Proofs.FileTree.Following

/-!
# Agreement

Two file systems agree but for files at some places if they have the same directories and, at all
other places, the same files. Paths are followed through directories, so a path leads to the same in
both unless it leads to one of these places.

## Main results

* `FileSystem.SameBut.follow`: segments lead to the same.
* `FileSystem.SameBut.entryAt?_eq`, `FileSystem.SameBut.read_eq`: **the same lies at a path**,
  unless it leads to a place where the file systems differ.
-/

namespace Guidebook

namespace FileSystem

/-- The second file system is the first but for files at some places. -/
structure SameBut (spared : Location → Prop) (fs other : FileSystem) : Prop where
  here : other.here = fs.here
  directory : ∀ place, other.tree.entryAt? place = some .directory ↔
    fs.tree.entryAt? place = some .directory
  same : ∀ place, ¬ spared place → other.tree.entryAt? place = fs.tree.entryAt? place

namespace SameBut

variable {spared more : Location → Prop} {fs other : FileSystem} {p : Path}

/-- Agreement but for some places holds in both directions. -/
theorem symm (h : SameBut spared fs other) : SameBut spared other fs where
  here := h.here.symm
  directory place := (h.directory place).symm
  same place hplace := (h.same place hplace).symm

/-- File systems that agree but for some places agree but for more of them. -/
theorem mono (h : SameBut spared fs other) (hmore : ∀ place, spared place → more place) :
    SameBut more fs other where
  here := h.here
  directory := h.directory
  same place hplace := h.same place fun hspared => hplace (hmore place hspared)

/-- Segments that lead to what is the same in both lead there in both. -/
theorem follow (h : SameBut spared fs other) {place last : Location} {segments : List Text}
    (hlast : other.tree.entryAt? last = fs.tree.entryAt? last)
    (hfollow : fs.follow place segments = .ok last) : other.follow place segments = .ok last := by
  induction segments generalizing place with
  | nil => exact hfollow
  | cons segment segments ih =>
      obtain ⟨next, henter, hrest⟩ := follow_cons_ok_iff.1 hfollow
      obtain ⟨hplace, hsome, hnext⟩ := enter_ok_iff.1 henter
      have hthere : (other.tree.entryAt? next).isSome := by
        cases segments with
        | nil =>
            obtain rfl : next = last := Except.ok.inj hrest
            rw [hlast]
            exact hsome
        | cons another segments =>
            -- What the segments lead through is a directory.
            obtain ⟨_, hthrough, -⟩ := follow_cons_ok_iff.1 hrest
            rw [(h.directory next).2 (enter_ok_iff.1 hthrough).1]
            rfl
      exact follow_cons_ok_iff.2
        ⟨next, enter_ok_iff.2 ⟨(h.directory place).2 hplace, hthere, hnext⟩, ih hrest⟩

/-- A path that is found is found in both, if the same lies where it leads. -/
theorem locate (h : SameBut spared fs other)
    (hplace : other.tree.entryAt? (p.resolve fs.here) = fs.tree.entryAt? (p.resolve fs.here))
    {place : Location} (hlocate : fs.locate p = .ok place) : other.locate p = .ok place := by
  obtain rfl := eq_resolve_of_locate hlocate
  obtain ⟨hnul, hne, hfollow⟩ := locate_ok_iff.1 hlocate
  refine locate_ok_iff.2 ⟨hnul, hne, ?_⟩
  rw [start, h.here]
  exact h.follow hplace hfollow

/-- **The same lies at a path** that leads to what is the same in both. -/
theorem entryAt?_eq (h : SameBut spared fs other)
    (hplace : other.tree.entryAt? (p.resolve fs.here) = fs.tree.entryAt? (p.resolve fs.here)) :
    other.entryAt? p = fs.entryAt? p := by
  rw [FileSystem.entryAt?, FileSystem.entryAt?]
  cases hlocate : fs.locate p with
  | ok place =>
      rw [h.locate hplace hlocate]
      obtain rfl := eq_resolve_of_locate hlocate
      exact hplace
  | error e =>
      cases hother : other.locate p with
      | error _ => rfl
      | ok place =>
          have hback := h.symm.locate (by rw [h.here]; exact hplace.symm) hother
          rw [hlocate] at hback
          cases hback

/-- A path is that of a file in both or in neither, if the same lies where it leads. -/
theorem isFile_eq (h : SameBut spared fs other)
    (hplace : other.tree.entryAt? (p.resolve fs.here) = fs.tree.entryAt? (p.resolve fs.here)) :
    other.isFile p = fs.isFile p := by
  rw [isFile, isFile, h.entryAt?_eq hplace]

/-- The directories are the same. -/
theorem isDirectory_eq (h : SameBut spared fs other) (p : Path) :
    other.isDirectory p = fs.isDirectory p := by
  rw [Bool.eq_iff_iff, isDirectory_iff, isDirectory_iff, h.here]
  simp only [h.directory]

/-- **The same can be read** at a path that leads to what is the same in both. -/
theorem read_eq (h : SameBut spared fs other)
    (hplace : other.tree.entryAt? (p.resolve fs.here) = fs.tree.entryAt? (p.resolve fs.here))
    {place : Location} (hlocate : fs.locate p = .ok place) : other.read p = fs.read p := by
  rw [read, read, h.locate hplace hlocate, hlocate]
  obtain rfl := eq_resolve_of_locate hlocate
  simp only [bind, Except.bind, hplace]

end SameBut

end FileSystem

end Guidebook
