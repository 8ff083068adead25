import Guidebook.Path.Basic
import Guidebook.Table

/-!
# File Trees

A file tree says what lies where: at each location, the names that lead to it from the root, there
is a directory, a file with its content, or nothing. Every file and every directory lies in a
directory; the root is always there.

## Main results

* `FileTree.entryAt?_put`: what an entry that is put does to a look-up.
* `FileTree.ext_entryAt?`: a tree is determined by what lies where.
-/

namespace Guidebook

/-- The names that lead to a place from the root. -/
abbrev Location := List Text

/-- The content of a file: a text, or bytes that are not the UTF-8 of any text. -/
inductive Content where
  | text (t : Text)
  | binary (bytes : List UInt8)
  deriving DecidableEq, Repr

namespace Content

/-- The content that consists of the given bytes. -/
def ofBytes (bytes : ByteArray) : Content :=
  match String.fromUTF8? bytes with
  | some t => .text t.toList
  | none => .binary bytes.toList

/-- The bytes of a content. -/
def toBytes : Content → ByteArray
  | .text t => (String.ofList t).toUTF8
  | .binary bytes => ⟨bytes.toArray⟩

end Content

/-- What lies at a location. -/
inductive Entry where
  | directory
  | file (content : Content)
  deriving DecidableEq, Repr

/-- A tree of files and directories. -/
structure FileTree where
  /-- What lies at each location but the root. -/
  entries : Table Location Entry
  rootless : entries.get? [] = none
  /-- What is there lies in a directory. -/
  closed : ∀ (place : Location) (name : Text), (entries.get? (place ++ [name])).isSome →
    place = [] ∨ entries.get? place = some .directory

namespace FileTree

instance : DecidableEq FileTree := fun s t =>
  if h : s.entries = t.entries then
    .isTrue (by cases s; cases t; cases h; rfl)
  else .isFalse fun e => h (by rw [e])

/-- The tree with nothing in it but the root. -/
def empty : FileTree := ⟨.empty, rfl, by simp⟩

instance : Inhabited FileTree := ⟨empty⟩

/-- What lies at a location. -/
def entryAt? (tree : FileTree) (place : Location) : Option Entry :=
  if place = [] then some .directory else tree.entries.get? place

/-- The root is a directory. -/
@[simp] theorem entryAt?_root (tree : FileTree) : tree.entryAt? [] = some .directory := by
  simp [entryAt?]

/-- What is there lies in a directory. -/
theorem entryAt?_parent (tree : FileTree) {place : Location} {name : Text}
    (h : (tree.entryAt? (place ++ [name])).isSome) : tree.entryAt? place = some .directory := by
  simp only [entryAt?] at h ⊢
  rw [if_neg (by simp)] at h
  rcases tree.closed place name h with rfl | hd
  · simp
  · rw [hd]; simp

/-- **Extensionality**: a tree is determined by what lies where. -/
theorem ext_entryAt? {s t : FileTree} (h : ∀ place, s.entryAt? place = t.entryAt? place) :
    s = t := by
  have he : s.entries = t.entries := by
    refine Table.ext_get? fun place => ?_
    have hp := h place
    simp only [entryAt?] at hp
    by_cases hroot : place = []
    · subst hroot; rw [s.rootless, t.rootless]
    · simpa [hroot] using hp
  cases s; cases t; cases he; rfl

/-! ### Changes -/

/-- The tree with an entry at the given name in the directory `place`. Nothing changes if there is
no such directory, or if that would put a file in the place of a directory. -/
def put (tree : FileTree) (place : Location) (name : Text) (entry : Entry) : FileTree :=
  if h : tree.entryAt? place = some .directory ∧
      (tree.entryAt? (place ++ [name]) = some .directory → entry = .directory) then
    { entries := tree.entries.insert (place ++ [name]) entry
      rootless := by rw [Table.get?_insert, if_neg (by simp), tree.rootless]
      closed := by
        intro other otherName hsome
        by_cases hroot : other = []
        · exact .inl hroot
        · right
          rw [Table.get?_insert] at hsome ⊢
          obtain ⟨hdir, hkeep⟩ := h
          simp only [entryAt?] at hdir hkeep
          rw [if_neg (by simp : ¬ place ++ [name] = [])] at hkeep
          by_cases hother : place ++ [name] = other
          · rw [if_pos hother]
            subst hother
            rw [if_neg (by simp)] at hsome
            rcases tree.closed _ _ hsome with hbad | hold
            · simp at hbad
            · rw [hkeep hold]
          · rw [if_neg hother]
            by_cases hnew : place ++ [name] = other ++ [otherName]
            · have hplace : place = other := by
                have := congrArg List.dropLast hnew
                simpa using this
              subst hplace
              simpa [hroot] using hdir
            · rw [if_neg hnew] at hsome
              rcases tree.closed _ _ hsome with hbad | hold
              · exact absurd hbad hroot
              · exact hold }
  else tree

/-- The tree without what lies at `place` or below it. The root stays. -/
def remove (tree : FileTree) (place : Location) : FileTree :=
  if h : place = [] then tree
  else
    { entries := tree.entries.filter fun other => !place.isPrefixOf other
      rootless := by rw [Table.get?_filter, tree.rootless]; simp
      closed := by
        intro other otherName hsome
        rw [Table.get?_filter] at hsome ⊢
        by_cases hbelow : place.isPrefixOf (other ++ [otherName])
        · simp [hbelow] at hsome
        · rw [if_pos (by simp [hbelow])] at hsome
          rcases tree.closed _ _ hsome with hroot | hdir
          · exact .inl hroot
          · right
            have hnot : ¬ place.isPrefixOf other := by
              intro hpre
              apply hbelow
              rw [List.isPrefixOf_iff_prefix] at hpre ⊢
              exact hpre.trans (List.prefix_append _ _)
            rw [if_pos (by simp [hnot]), hdir] }

/-- **Look-up behind a change**: the entry that has been put stands at its place, and everything
else is where it was. A directory must not be replaced by a file. -/
theorem entryAt?_put (tree : FileTree) {place : Location} {name : Text} {entry : Entry}
    (hdir : tree.entryAt? place = some .directory)
    (hkeep : tree.entryAt? (place ++ [name]) = some .directory → entry = .directory)
    (other : Location) :
    (tree.put place name entry).entryAt? other =
      if place ++ [name] = other then some entry else tree.entryAt? other := by
  unfold put
  rw [dif_pos ⟨hdir, hkeep⟩]
  simp only [entryAt?, Table.get?_insert]
  by_cases hroot : other = []
  · subst hroot; simp
  · simp [hroot]

/-! ### Listings -/

/-- The name of `other` in the directory `place`, if it lies directly in it. -/
def nameIn? (place : Location) (other : Location) : Option Text :=
  match place.isPrefixOf? other with
  | some [name] => some name
  | _ => none

/-- The names in a directory, in ascending order. -/
def namesIn (tree : FileTree) (place : Location) : List Text :=
  tree.entries.keys.filterMap (nameIn? place)

end FileTree

end Guidebook
