import Guidebook.Proofs.FileTree.Relocation
import Guidebook.Proofs.Scan.Agreement

/-!
# Scans in Different Places

A scan looks at nothing but names, at what lies beneath its root, and at paths as they are seen from
its root. So where the same lies beneath two roots, scans from the same directory within them find
files under the same names. They find them in the same order, too: the paths that are found begin
with the path of the directory, and what paths begin with makes no difference to their order.

## Main results

* `Scan.exists_filesIn`: the files that are found **lie under the same names**.
* `Scan.exists_files_below`: **scans find the same**, in the same order.
-/

namespace Guidebook

namespace Scan

/-- What leads down, one level after the other: names of files, at least one. -/
def LeadsDown (names : List Text) : Prop :=
  names ≠ [] ∧ ∀ name ∈ names, Path.IsFileName name

/-- Whether an entry is hidden is told by its name. -/
theorem isHidden_descend {name : Text} (hname : Path.IsFileName name) (root : Path)
    (names : List Text) :
    isHidden (root.descend (names ++ [name])) = decide (name.head? = some '.') := by
  rw [isHidden, Path.fileName?_descend hname]

/-- Whether an entry is excluded is told by the names that lead to it. -/
theorem isExcluded_descend {root : Path} {names : List Text} (hroot : root.text ≠ [])
    (hnames : LeadsDown names) (exclude : ExcludeSet) :
    isExcluded exclude root (root.descend names) =
      exclude.covers ⟨Text.join ['/'] names⟩ := by
  rw [isExcluded, Path.relativeTo?_descend hnames.2 hroot hnames.1]

/-- What is found alike at each name is found alike at all of them. -/
theorem exists_flatMap {f g : Text → List Path} {place there : List Text → Path}
    {names : List Text} (h : ∀ name ∈ names, ∃ found : List (List Text),
      (∀ names ∈ found, LeadsDown names) ∧ f name = found.map place ∧ g name = found.map there) :
    ∃ found : List (List Text), (∀ names ∈ found, LeadsDown names) ∧
      names.flatMap f = found.map place ∧ names.flatMap g = found.map there := by
  induction names with
  | nil => exact ⟨[], by simp, rfl, rfl⟩
  | cons name names ih =>
      obtain ⟨first, hfirst, hf, hg⟩ := h name List.mem_cons_self
      obtain ⟨rest, hrest, hfs, hgs⟩ := ih fun other hother =>
        h other (List.mem_cons_of_mem _ hother)
      refine ⟨first ++ rest, List.forall_mem_append.2 ⟨hfirst, hrest⟩, ?_, ?_⟩
      · rw [List.flatMap_cons, hf, hfs, List.map_append]
      · rw [List.flatMap_cons, hg, hgs, List.map_append]

section Relocation

variable {fs other : FileSystem} {root there sources : Path} {exclude : ExcludeSet}
  (h : FileSystem.SameWithin fs root other there) (hnamed : fs.WellNamed)
  (hsources : sources.Inward)

include h hnamed hsources

/-- **Where the same lies beneath two roots**, the files that are found in a directory lie under the
same names. -/
theorem exists_filesIn (depth : Nat) {front : List Text}
    (hfront : ∀ name ∈ front, Path.IsFileName name) :
    ∃ found : List (List Text), (∀ names ∈ found, LeadsDown names) ∧
      filesIn fs exclude (root.join sources) depth ((root.join sources).descend front) =
        found.map (root.join sources).descend ∧
      filesIn other exclude (there.join sources) depth ((there.join sources).descend front) =
        found.map (there.join sources).descend := by
  obtain ⟨hroot, hthere⟩ := h.text_ne_nil
  have hsourcesRoot := FileSystem.text_join_ne_nil hroot hsources.relative
  have hsourcesThere := FileSystem.text_join_ne_nil hthere hsources.relative
  induction depth generalizing front with
  | zero => exact ⟨[], by simp, rfl, rfl⟩
  | succ depth ih =>
      have hpath : ∀ root : Path, (root.join sources).descend front =
          root.join (sources.descend front) := fun root =>
        Path.descend_join hfront root hsources.relative
      have hdirectory := h.isDirectory_eq (hsources.descend hfront)
      rw [← hpath, ← hpath] at hdirectory
      have hlisted : other.tree.namesIn (((there.join sources).descend front).resolve other.here) =
          fs.tree.namesIn (((root.join sources).descend front).resolve fs.here) := by
        obtain ⟨names, hresolve⟩ := Path.exists_resolve_join (hsources.descend hfront)
        rw [hpath, hpath, hresolve, hresolve]
        exact h.namesIn_eq names
      rw [filesIn, filesIn, hdirectory, hlisted]
      split
      · refine exists_flatMap fun name hname => ?_
        have hname := isFileName_of_mem_namesIn hnamed hname
        have hfront' : ∀ other ∈ front ++ [name], Path.IsFileName other :=
          List.forall_mem_append.2 ⟨hfront, by simpa using hname⟩
        have hdown : LeadsDown (front ++ [name]) := ⟨by simp, hfront'⟩
        have hpath' : ∀ root : Path, (root.join sources).descend (front ++ [name]) =
            root.join (sources.descend (front ++ [name])) := fun root =>
          Path.descend_join hfront' root hsources.relative
        have hentry := h.isDirectory_eq (hsources.descend hfront')
        have hfile := h.isFile_eq (hsources.descend hfront')
        rw [← hpath', ← hpath'] at hentry hfile
        rw [← Path.descend_concat, ← Path.descend_concat, filesAt, filesAt,
          isHidden_descend hname, isHidden_descend hname, isExcluded_descend hsourcesRoot hdown,
          isExcluded_descend hsourcesThere hdown, hentry, hfile]
        split_ifs
        · exact ⟨[], by simp, rfl, rfl⟩
        · exact ⟨[], by simp, rfl, rfl⟩
        · exact ih hfront'
        · exact ⟨[front ++ [name]], by simpa using hdown, rfl, rfl⟩
        · exact ⟨[], by simp, rfl, rfl⟩
      · exact ⟨[], by simp, rfl, rfl⟩

/-- **Scans find the same**, in the same order, where the same lies beneath two roots. -/
theorem exists_files_below (hnames : other.WellNamed) {found foundThere : Scan}
    (hfound : below fs (root.join sources) exclude = .ok found)
    (hthere : below other (there.join sources) exclude = .ok foundThere) :
    ∃ places : List (List Text), (∀ names ∈ places, LeadsDown names) ∧
      found.files = places.map (root.join sources).descend ∧
      foundThere.files = places.map (there.join sources).descend := by
  obtain ⟨events, hfiles⟩ := files_below fs (root.join sources) exclude
  obtain ⟨more, hmore⟩ := files_below other (there.join sources) exclude
  rw [hfiles] at hfound
  rw [hmore] at hthere
  obtain rfl := Except.ok.inj hfound
  obtain rfl := Except.ok.inj hthere
  obtain ⟨places, hplaces, hhere, hother⟩ := @exists_filesIn _ _ _ _ _ exclude h hnamed hsources
    (max (depthBound fs) (depthBound other)) [] (by simp)
  rw [filesIn_of_le hnamed (enough_depthBound fs _) (Nat.le_max_left _ _)] at hhere
  rw [filesIn_of_le hnames (enough_depthBound other _) (Nat.le_max_right _ _)] at hother
  have horder : ∀ a ∈ places, ∀ b ∈ places,
      ((root.join sources).descend a).before ((root.join sources).descend b) =
        ((there.join sources).descend a).before ((there.join sources).descend b) := by
    intro a ha b hb
    have hshape : ∀ root : Path, ((root.join sources).descend a).before
        ((root.join sources).descend b) = List.lex (a.map .name) (b.map .name) Component.before :=
      fun root => Path.before_append (Path.components_descend (hplaces a ha).2 _)
        (Path.components_descend (hplaces b hb).2 _)
    rw [hshape, hshape]
  obtain ⟨sorted, hperm, hsorted, hsortedThere⟩ := Path.exists_sort_map horder
  refine ⟨sorted, fun names hmem => hplaces names (hperm.mem_iff.1 hmem), ?_, ?_⟩
  · rw [← hsorted, ← hhere]
    rfl
  · rw [← hsortedThere, ← hother]
    rfl

end Relocation

end Scan

end Guidebook
