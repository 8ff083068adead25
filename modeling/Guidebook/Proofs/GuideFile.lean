import Guidebook.EntryPoint
import Guidebook.Proofs.Path.Descending
import Guidebook.Proofs.Path.Spelling

/-!
# Guide Files Taken Apart

All names of what is generated from a guide are put together from the parts of its path: the path as
it is seen from the root of the guides, its directory there, its name, and its extension. Nothing
gets lost between the path and the parts. Read from within the root, the path seen from there says
what the path says; it says what its directory says, and the name of the file behind that. So no two
guides have the same parts, unless their paths are spellings of each other; and the parts are the
same for all spellings of the path and of the root.

This holds for paths that go on where the root ends. A path that says no more than the root has
parts as well, but nothing is left of it, seen from there; and a path that does not begin like the
root has none.

## Main results

* `GuideFile.components_directoryOf`: what the directory of a path says.
* `GuideFile.components_of_ofPath?`: a path in terms of **its root and its parts**.
* `GuideFile.exists_ofPath?_respelled`: other spellings have **the same parts**.
* `GuideFile.taken_apart`: **nothing is lost**, and what lies outside the root is refused.
-/

namespace Guidebook

/-! ### Formats -/

/-- A path is that of a guide exactly if its extension is `kt`. -/
theorem Format.ofPath?_eq_kotlin_iff {path : Path} :
    Format.ofPath? path = some .kotlin ↔ path.extension? = some "kt".toList := by
  unfold Format.ofPath?
  grind

/-- A path is that of a guide in the retired format exactly if its extension is `md`. -/
theorem Format.ofPath?_eq_legacyMarkdown_iff {path : Path} :
    Format.ofPath? path = some .legacyMarkdown ↔ path.extension? = some "md".toList := by
  unfold Format.ofPath?
  grind

/-! ### Paths that go on -/

namespace Path

/-- The path goes on where the root ends: it begins like the root, and says more. -/
def GoesOnFrom (path root : Path) : Prop :=
  root.components <+: path.components ∧ path.components ≠ root.components

instance (path root : Path) : Decidable (path.GoesOnFrom root) :=
  inferInstanceAs (Decidable (_ ∧ _))

/-- Seen from where a path goes on, it ends as it does by itself. -/
theorem fileName?_of_relativeTo? {p root relative : Path} (h : p.relativeTo? root = some relative)
    (hmore : p.GoesOnFrom root) : relative.fileName? = p.fileName? := by
  have hcomponents := components_of_relativeTo? h
  have hne : relative.components ≠ [] := by
    intro hnil
    rw [hnil, List.append_nil] at hcomponents
    exact hmore.2 hcomponents
  rw [fileName?, fileName?, hcomponents, List.getLast?_append_of_ne_nil _ hne]

end Path

namespace GuideFile

/-! ### Directories -/

/-- The directory of a path that starts where we are starts there as well. -/
theorem isAbsolute_directoryOf {path : Path} (h : path.isAbsolute = false) :
    (directoryOf path).isAbsolute = false := by
  rw [directoryOf]
  cases hparent : path.parent? with
  | none => rfl
  | some parent => exact Path.isAbsolute_parent? hparent h

/-- The directory of a path makes all its moves but the last. -/
theorem moves_directoryOf (path : Path) :
    (directoryOf path).moves = path.moves.dropLast := by
  rw [directoryOf]
  cases hparent : path.parent? with
  | none =>
      rw [Path.moves_of_parent?_eq_none hparent]
      rfl
  | some parent => exact (Path.moves_parent? hparent).1

/-- **The directory of a path** says all but the last component. -/
theorem components_directoryOf (path : Path) :
    (directoryOf path).components = path.components.dropLast := by
  rw [directoryOf]
  cases hparent : path.parent? with
  | none =>
      rw [Path.components_eq path, ← Path.moves, Path.moves_of_parent?_eq_none hparent]
      cases path.split.1 <;> rfl
  | some parent => exact Path.components_parent? hparent

/-- A path says what its directory says, and its file name behind that. -/
theorem components_directoryOf_append {path : Path} {name : Text} (h : path.fileName? = some name) :
    (directoryOf path).components ++ [.name name] = path.components := by
  obtain ⟨front, hfront⟩ := List.getLast?_eq_some_iff.1 (Path.getLast?_components h)
  rw [components_directoryOf, hfront, List.dropLast_concat]

/-- The directory of names between slashes are those before the last. -/
theorem directoryOf_names {front : List Text} {last : Text}
    (hnames : ∀ name ∈ front ++ [last], Path.IsFileName name) :
    directoryOf ⟨Text.join ['/'] (front ++ [last])⟩ = ⟨Text.join ['/'] front⟩ := by
  rw [directoryOf, Path.parent?_names hnames (by simp), List.dropLast_concat]
  rfl

/-! ### The parts of a path -/

/-- **A file does not lie below the root** exactly if its components do not begin with those of the
root. -/
theorem ofPath?_eq_none_iff {root path : Path} :
    ofPath? root path = none ↔ ¬ root.components <+: path.components := by
  rw [ofPath?, Option.map_eq_none_iff, Path.relativeTo?_eq_none_iff]

/-- Where a guide lies below the root, and what it is called, decides its names. -/
theorem eq_of_ofPath? {root path : Path} {file : GuideFile}
    (hguide : path.extension? = some "kt".toList) (h : ofPath? root path = some file) :
    ∃ relative, path.relativeTo? root = some relative ∧
      file = ⟨path, relative, directoryOf relative, path.stem?.getD [], "kt".toList⟩ := by
  obtain ⟨relative, hrelative, hfile⟩ := Option.map_eq_some_iff.1 h
  refine ⟨relative, hrelative, ?_⟩
  rw [← hfile, hguide]
  rfl

/-- Two files have the same parts, however these are spelled. -/
structure SameParts (file other : GuideFile) : Prop where
  relativePath : file.relativePath.components = other.relativePath.components
  relativeDirectory : file.relativeDirectory.components = other.relativeDirectory.components
  name : file.name = other.name
  extension : file.extension = other.extension

section Parts

variable {root path : Path} {file : GuideFile} (h : ofPath? root path = some file)

include h in
/-- The path of a guide file is the one that is reported. -/
theorem relativeTo?_of_ofPath? : path.relativeTo? root = some file.relativePath := by
  obtain ⟨relative, hrelative, rfl⟩ := Option.map_eq_some_iff.1 h
  exact hrelative

include h in
/-- An extension is not made up. -/
theorem extension?_of_ofPath? (hne : file.extension ≠ []) :
    path.extension? = some file.extension := by
  obtain ⟨relative, -, rfl⟩ := Option.map_eq_some_iff.1 h
  cases hextension : path.extension? with
  | none => exact absurd (congrArg (·.getD []) hextension) hne
  | some extension => rfl

include h in
/-- Seen from the root, a path says what the directory says there, and the file name behind that. -/
theorem components_relativePath (hmore : path.GoesOnFrom root) {extension : Text}
    (hextension : path.extension? = some extension) :
    file.relativePath.components =
      file.relativeDirectory.components ++ [.name (file.name ++ '.' :: file.extension)] := by
  obtain ⟨relative, hrelative, rfl⟩ := Option.map_eq_some_iff.1 h
  have hname := Path.fileName?_of_extension? hextension
  rw [← Path.fileName?_of_relativeTo? hrelative hmore] at hname
  rw [hextension]
  exact (components_directoryOf_append hname).symm

include h in
/-- **A path in terms of its root and its parts.** -/
theorem components_of_ofPath? (hmore : path.GoesOnFrom root) (hne : file.extension ≠ []) :
    path.components = root.components ++
      (file.relativeDirectory.components ++ [.name (file.name ++ '.' :: file.extension)]) := by
  rw [← components_relativePath h hmore (extension?_of_ofPath? h hne),
    ← Path.components_of_relativeTo? (relativeTo?_of_ofPath? h)]

include h in
/-- **Other spellings** of the root and of the path have the same parts. -/
theorem exists_ofPath?_respelled {root' path' : Path} (hroot : root.Respells root')
    (hpath : path.Respells path') :
    ∃ file', ofPath? root' path' = some file' ∧ SameParts file' file := by
  have hbelow := Path.components_of_relativeTo? (relativeTo?_of_ofPath? h)
  rw [hroot.components_eq, hpath.components_eq] at hbelow
  obtain ⟨relative, hrelative, hcomponents⟩ := Path.relativeTo?_of_components hbelow
  have hname : path'.fileName? = path.fileName? := by
    rw [Path.fileName?, Path.fileName?, hpath.components_eq]
  obtain ⟨seen, -, rfl⟩ := Option.map_eq_some_iff.1 h
  refine ⟨_, Option.map_eq_some_iff.2 ⟨relative, hrelative, rfl⟩, hcomponents, ?_, ?_, ?_⟩
  · rw [components_directoryOf, components_directoryOf, hcomponents]
  · rw [Path.stem?, Path.stem?, hname]
  · rw [Path.extension?, Path.extension?, hname]

end Parts

/-! ### Found by names that lead down -/

section Descend

variable {root : Path} {names : List Text} {file : GuideFile}
  (hnames : ∀ name ∈ names, Path.IsFileName name)
  (h : ofPath? root (root.descend names) = some file)

include hnames h in
/-- Seen from the root, the directory of a guide that has been found there says nothing but
names. -/
theorem moves_relativeDirectory :
    file.relativeDirectory.moves = names.dropLast.map .name ∧
      file.relativeDirectory.isAbsolute = false := by
  obtain ⟨relative, hrelative, rfl⟩ := Option.map_eq_some_iff.1 h
  obtain ⟨found, hfound, hmoves, habsolute⟩ := Path.exists_relativeTo?_descend hnames root
  obtain rfl := Option.some.inj (hrelative.symm.trans hfound)
  refine ⟨?_, isAbsolute_directoryOf habsolute⟩
  rw [moves_directoryOf, hmoves, List.map_dropLast]

include hnames h in
/-- Seen from the root, the directory of a guide never climbs. -/
theorem staysBelow_relativeDirectory : file.relativeDirectory.staysBelow = true := by
  rw [Path.staysBelow, (moves_relativeDirectory hnames h).1]
  exact Location.staysBelow_names 0 _

include hnames h in
/-- The names of the directory of a guide, seen from its root, lead on from any other root. -/
theorem resolve_join_relativeDirectory (other : Path) (here : Location) :
    (other.join file.relativeDirectory).resolve here = other.resolve here ++ names.dropLast := by
  obtain ⟨hmoves, habsolute⟩ := moves_relativeDirectory hnames h
  rw [Path.resolve_join _ habsolute, hmoves, Location.walk_names]

end Descend

end GuideFile

/-! ### Without loss -/

namespace EntryPoint

/-- A program lies below its root exactly if a guide at its path would. -/
theorem fileBelow_eq_ok_iff {root path : Path} {file : GuideFile} :
    fileBelow root path = .ok file ↔ GuideFile.ofPath? root path = some file := by
  rw [fileBelow]
  cases GuideFile.ofPath? root path <;> simp

/-- What lies outside the root is refused, and nothing else is. -/
theorem fileBelow_eq_error_iff {root path : Path} {failure : Failure} :
    fileBelow root path = .error failure ↔
      ¬ root.components <+: path.components ∧ failure = .sourceOutsideRoot path root := by
  rw [← GuideFile.ofPath?_eq_none_iff, fileBelow]
  cases GuideFile.ofPath? root path with
  | some file => simp
  | none => simp [eq_comm]

end EntryPoint

namespace GuideFile

/-- **A guide file takes its path apart without loss**, however root and path are spelled. A guide
whose path goes on where the root ends is found below the root. Read from within the root, its path
seen from there says what the path says, and that is what the directory says, and one name behind
it: that of the file, a dot, and the extension. The paths of two guides below one root with the same
directory, name and extension say the same; and the parts are the same for all spellings of the root
and of the path. A path that does not begin like the root is refused as one outside it, and no other
is refused. -/
theorem taken_apart (root path : Path) :
    (Format.ofPath? path = some .kotlin → path.GoesOnFrom root →
      ∃ file, EntryPoint.fileBelow root path = .ok file ∧ file.path = path ∧
        file.extension = "kt".toList ∧
        (root.join file.relativePath).components = path.components ∧
        file.relativePath.components = file.relativeDirectory.components ++
          [.name (file.name ++ '.' :: file.extension)] ∧
        (∀ other otherFile, other.GoesOnFrom root →
          EntryPoint.fileBelow root other = .ok otherFile →
          otherFile.relativeDirectory.components = file.relativeDirectory.components →
          otherFile.name = file.name → otherFile.extension = file.extension →
          other.components = path.components) ∧
        ∀ root' path', root.Respells root' → path.Respells path' →
          ∃ file', EntryPoint.fileBelow root' path' = .ok file' ∧ file'.SameParts file) ∧
    ∀ failure, EntryPoint.fileBelow root path = .error failure ↔
      ¬ root.components <+: path.components ∧ failure = .sourceOutsideRoot path root := by
  refine ⟨fun hguide hmore => ?_, fun failure => EntryPoint.fileBelow_eq_error_iff⟩
  have hextension := Format.ofPath?_eq_kotlin_iff.1 hguide
  obtain ⟨file, hfile⟩ : ∃ file, ofPath? root path = some file :=
    Option.ne_none_iff_exists'.1 fun hnone => ofPath?_eq_none_iff.1 hnone hmore.1
  obtain ⟨relative, hrelative, heq⟩ := eq_of_ofPath? hextension hfile
  have hkotlin : file.extension = "kt".toList := by rw [heq]
  have hne : file.extension ≠ [] := by
    rw [hkotlin]
    decide
  refine ⟨file, EntryPoint.fileBelow_eq_ok_iff.2 hfile, congrArg GuideFile.path heq, hkotlin,
    Path.components_join_relativeTo? (relativeTo?_of_ofPath? hfile),
    components_relativePath hfile hmore hextension,
    fun other otherFile hother hotherFile hdirectory hname hsame => ?_,
    fun root' path' hroot hpath => ?_⟩
  · rw [components_of_ofPath? (EntryPoint.fileBelow_eq_ok_iff.1 hotherFile) hother (hsame ▸ hne),
      components_of_ofPath? hfile hmore hne, hdirectory, hname, hsame]
  · obtain ⟨file', hfile', hparts⟩ := exists_ofPath?_respelled hfile hroot hpath
    exact ⟨file', EntryPoint.fileBelow_eq_ok_iff.2 hfile', hparts⟩

/-- A guide with two dots in its name, below a root; both are spelled with more slashes and dots
than they need, and then without. The one guide below the root that has its directory, name and
extension is the guide itself. What merely begins with the letters of a root lies outside. -/
theorem taken_apart_of_spelledGuide :
    ∃ file, EntryPoint.fileBelow ⟨"./src//".toList⟩ ⟨"././src/./tour//intro.v2.kt/.".toList⟩ =
        .ok file ∧
      (Path.join ⟨"./src//".toList⟩ file.relativePath).components =
        [.here, .name "src".toList, .name "tour".toList, .name "intro.v2.kt".toList] ∧
      file.relativePath.components =
        file.relativeDirectory.components ++ [.name "intro.v2.kt".toList] ∧
      (⟨"./src/tour/./intro.v2.kt".toList⟩ : Path).components =
        (⟨"././src/./tour//intro.v2.kt/.".toList⟩ : Path).components ∧
      (∃ file', EntryPoint.fileBelow ⟨"./src".toList⟩ ⟨"./src/tour/intro.v2.kt".toList⟩ =
          .ok file' ∧
        file'.SameParts file) ∧
      EntryPoint.fileBelow ⟨"src".toList⟩ ⟨"srcs/tour/intro.kt".toList⟩ =
        .error (.sourceOutsideRoot ⟨"srcs/tour/intro.kt".toList⟩ ⟨"src".toList⟩) := by
  obtain ⟨file, hfile, -, -, hjoin, hrelative, honly, hspelled⟩ :=
    (taken_apart ⟨"./src//".toList⟩ ⟨"././src/./tour//intro.v2.kt/.".toList⟩).1
      (by decide) (by decide)
  have hparts : EntryPoint.fileBelow ⟨"./src//".toList⟩ ⟨"././src/./tour//intro.v2.kt/.".toList⟩ =
      .ok ⟨⟨"././src/./tour//intro.v2.kt/.".toList⟩, ⟨"tour//intro.v2.kt".toList⟩,
        ⟨"tour".toList⟩, "intro.v2".toList, "kt".toList⟩ := by decide
  obtain rfl := Except.ok.inj (hfile.symm.trans hparts)
  refine ⟨_, hfile, hjoin, hrelative, ?_, ?_, ?_⟩
  · exact honly _ ⟨⟨"./src/tour/./intro.v2.kt".toList⟩, ⟨"tour/./intro.v2.kt".toList⟩,
      ⟨"tour".toList⟩, "intro.v2".toList, "kt".toList⟩ (by decide) (by decide) rfl rfl rfl
  · exact hspelled _ _ (Path.respells_iff.2 (by decide)) (Path.respells_iff.2 (by decide))
  · exact ((taken_apart _ _).2 _).2 ⟨by decide, rfl⟩

end GuideFile

end Guidebook
