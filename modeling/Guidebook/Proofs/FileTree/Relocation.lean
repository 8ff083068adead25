import Guidebook.Proofs.FileTree.Change
import Guidebook.Proofs.FileTree.Subtree
import Guidebook.Proofs.Path.Relocation

/-!
# File Systems, Seen From a Root

What lies beneath a root is a file system of its own, in which we stand at the root. A path without
`..` that is read from within the root never leaves it. So every operation at such a path does to
what lies beneath the root what it does there at the path itself, wherever the root is; what it
answers, and how it fails, is the same.

Only the making of directories needs an argument: where something is missing, it climbs from a path
to the one above. As long as this stays within the root, the paths above correspond to each other,
and it goes no further, since the root is there.

## Main results

* `FileSystem.locate_join`, `FileSystem.target_join`: from a root, paths are followed as from
  anywhere.
* `FileSystem.read_seenFrom`, `FileSystem.isDirectory_seenFrom`: **what is found within a root**.
* `FileSystem.write_seenFrom`, `FileSystem.ensureDirectories_seenFrom`: **what is made within a
  root**.
-/

namespace Guidebook

/-- The path of the directory in which we stand. -/
def Path.current : Path := ⟨['.']⟩

namespace FileSystem

/-- The file system as it is seen from a root: what lies beneath the root, and nothing else. -/
def seenFrom (root : Path) (fs : FileSystem) : FileSystem where
  tree := fs.tree.subtree (root.resolve fs.here)
  here := []

/-! ### Following paths from a root -/

section Join

variable {fs : FileSystem} {root q : Path}

/-- The segments of a path that is read from within a root follow those that lead to the root. -/
theorem splitOn_join (hroot : root.text ≠ []) (hq : q.isAbsolute = false) :
    Text.splitOn '/' (root.join q).text = segmentsTo root ++ Text.splitOn '/' q.text := by
  obtain ⟨t, -, hjoin⟩ := Path.join_eq hroot
  rw [segmentsTo, hjoin q hq, hjoin ⟨[]⟩ rfl, Text.splitOn_append, Text.splitOn_append,
    show Text.splitOn '/' [] = [[]] from rfl, List.dropLast_concat]

/-- A path that is read from within a root is not empty. -/
theorem text_join_ne_nil (hroot : root.text ≠ []) (hq : q.isAbsolute = false) :
    (root.join q).text ≠ [] := by
  obtain ⟨t, -, hjoin⟩ := Path.join_eq hroot
  rw [hjoin q hq]
  simp

/-- A path that is read from within a root holds a character that is neither a slash nor in the root
only if the path does. -/
theorem mem_text_join_iff (hq : q.isAbsolute = false) {c : Char} (hc : c ≠ '/')
    (hroot : c ∉ root.text) : c ∈ (root.join q).text ↔ c ∈ q.text := by
  rw [Path.join, hq, if_neg Bool.false_ne_true]
  split <;> simp [hroot, hc]

variable (hroot : fs.isDirectory root = true)

include hroot in
/-- Where a path of a directory leads to, there is a directory. -/
theorem entryAt?_of_isDirectory : fs.tree.entryAt? (root.resolve fs.here) = some .directory := by
  obtain ⟨-, hne, hway⟩ := isDirectory_iff.1 hroot
  exact hway _ (Path.resolve_mem_way hne fs.here)

include hroot in
/-- The segments to a root lead there. -/
theorem follow_segmentsTo :
    fs.follow (fs.start root) (segmentsTo root) = .ok (root.resolve fs.here) := by
  obtain ⟨-, hne, hway⟩ := isDirectory_iff.1 hroot
  have hspoken := spoken_segmentsTo hne
  obtain ⟨last, hfollow, -⟩ := follow_directory_iff.2 fun front hfront =>
    hway _ (Path.mem_way_iff.2 ⟨hne, front, hspoken ▸ hfront, rfl⟩)
  rw [start_eq]
  rw [hfollow, eq_walk_of_follow hfollow, hspoken]
  rfl

include hroot in
/-- Behind the segments that lead to the root, segments are followed from where it lies. -/
theorem follow_join (hq : q.isAbsolute = false) (segments : List Text) :
    fs.follow (fs.start (root.join q)) (segmentsTo root ++ segments) =
      fs.follow (root.resolve fs.here) segments := by
  have hfront := follow_segmentsTo hroot
  rw [start, Path.isAbsolute_join root hq, follow, List.foldlM_append]
  rw [start, follow] at hfront
  rw [hfront]
  rfl

include hroot in
/-- **From a root**, a path is located by its own segments. -/
theorem locate_join (hq : q.isAbsolute = false) :
    fs.locate (root.join q) =
      if '\x00' ∈ q.text then .error .invalidInput
      else fs.follow (root.resolve fs.here) (Text.splitOn '/' q.text) := by
  obtain ⟨hnul, hne, -⟩ := isDirectory_iff.1 hroot
  rw [locate, segmentsOf, if_neg (text_join_ne_nil hne hq)]
  simp only [mem_text_join_iff hq (by decide) hnul]
  split
  · rfl
  · rw [splitOn_join hne hq]
    exact follow_join hroot hq _

include hroot in
/-- **From a root**, what a path asks for is decided by its own segments. -/
theorem target_join (hq : q.isAbsolute = false) (hnul : '\x00' ∉ q.text) {front rest : List Text}
    {name : Text} (hsegments : Text.splitOn '/' q.text = front ++ name :: rest) (hname : name ≠ [])
    (hrest : ∀ s ∈ rest, s = []) :
    fs.target (root.join q) = (fs.follow (root.resolve fs.here) front).bind fun place =>
      if fs.tree.entryAt? place = some .directory then
        if name = ['.'] ∨ name = ['.', '.'] then .ok .old
        else .ok (.new place name (decide (rest ≠ [])))
      else .error .notADirectory := by
  obtain ⟨hnulRoot, hne, -⟩ := isDirectory_iff.1 hroot
  have hwhole : Text.splitOn '/' (root.join q).text =
      (segmentsTo root ++ front) ++ name :: rest := by
    rw [splitOn_join hne hq, hsegments, List.append_assoc]
  have hnulWhole : '\x00' ∉ (root.join q).text :=
    (mem_text_join_iff hq (by decide) hnulRoot).not.2 hnul
  rw [target_eq fs hnulWhole hwhole hname hrest, follow_join hroot hq]

include hroot in
/-- A path with a NUL asks for nothing, from wherever it is read. -/
theorem target_join_of_nul (hq : q.isAbsolute = false) (hnul : '\x00' ∈ q.text) :
    fs.target (root.join q) = .error .invalidInput := by
  obtain ⟨hnulRoot, -, -⟩ := isDirectory_iff.1 hroot
  rw [target, segmentsOf, if_pos ((mem_text_join_iff hq (by decide) hnulRoot).2 hnul)]
  rfl

include hroot in
/-- A path without moves leads from a root to the root itself. -/
theorem isDirectory_join_of_silent (hq : q.isAbsolute = false) (hnul : '\x00' ∉ q.text)
    (hmoves : q.moves = []) : fs.isDirectory (root.join q) = true := by
  obtain ⟨hnulRoot, hne, hway⟩ := isDirectory_iff.1 hroot
  refine isDirectory_iff.2 ⟨(mem_text_join_iff hq (by decide) hnulRoot).not.2 hnul,
    text_join_ne_nil hne hq, fun place hplace => hway place ?_⟩
  obtain ⟨-, front, hfront, rfl⟩ := Path.mem_way_iff.1 hplace
  rw [Path.moves_join root hq, hmoves, List.append_nil] at hfront
  refine Path.mem_way_iff.2 ⟨hne, front, hfront, ?_⟩
  rw [Path.origin, Path.origin, Path.isAbsolute_join root hq]

end Join

/-! ### What is found -/

section Found

variable {fs : FileSystem} {root q : Path} (hroot : fs.isDirectory root = true)

include hroot in
/-- What is seen at names from the root lies at these names beneath it. -/
theorem entryAt?_seenFrom (names : Location) : (fs.seenFrom root).tree.entryAt? names =
    fs.tree.entryAt? (root.resolve fs.here ++ names) :=
  FileTree.entryAt?_subtree (entryAt?_of_isDirectory hroot) names

/-- We stand in a directory. -/
theorem isDirectory_current (fs : FileSystem) (root : Path) :
    (fs.seenFrom root).isDirectory .current = true := by
  refine isDirectory_iff.2 ⟨by decide, by decide, fun place hplace => ?_⟩
  obtain ⟨-, front, hfront, rfl⟩ := Path.mem_way_iff.1 hplace
  obtain rfl := List.prefix_nil.1 (show front <+: [] from hfront)
  exact FileTree.entryAt?_root _

include hroot in
/-- A segment that does not lead up leads to the same place, seen from the root. -/
theorem enter_seenFrom {segment : Text} (hup : segment ≠ ['.', '.']) (names : Location) :
    fs.enter (root.resolve fs.here ++ names) segment =
      ((fs.seenFrom root).enter names segment).map (root.resolve fs.here ++ ·) := by
  rw [enter, enter, entryAt?_seenFrom hroot, entryAt?_seenFrom hroot, ← List.append_assoc]
  split
  · rfl
  · rfl
  · split
    · rfl
    · split
      · rw [List.append_assoc]
        rfl
      · rfl

/-- **Within a root**, segments without `..` lead from a place to where they lead in what lies
beneath the root. -/
theorem follow_seenFrom (hroot : fs.isDirectory root = true) {segments : List Text}
    (hup : .up ∉ Path.spoken segments) (names : Location) :
    fs.follow (root.resolve fs.here ++ names) segments =
      ((fs.seenFrom root).follow names segments).map (root.resolve fs.here ++ ·) := by
  induction segments generalizing names with
  | nil => rfl
  | cons segment segments ih =>
      rw [← List.singleton_append, Path.spoken_append, List.mem_append, not_or] at hup
      have hsegment : segment ≠ ['.', '.'] := by
        rintro rfl
        exact hup.1 (by decide)
      rw [follow, follow, List.foldlM_cons, List.foldlM_cons, enter_seenFrom hroot hsegment]
      cases (fs.seenFrom root).enter names segment with
      | error e => rfl
      | ok next => exact ih hup.2 next

variable (hq : q.Inward)

include hroot hq

/-- **A path that is read from within the root** leads to the same place, seen from it. -/
theorem locate_seenFrom : fs.locate (root.join q) =
    ((fs.seenFrom root).locate (Path.current.join q)).map (root.resolve fs.here ++ ·) := by
  rw [locate_join hroot hq.relative, locate_join (isDirectory_current fs root) hq.relative]
  split
  · rfl
  · have hfollow := follow_seenFrom hroot hq.straight []
    rwa [List.append_nil] at hfollow

/-- The same lies at the path, seen from the root. -/
theorem entryAt?_join_seenFrom :
    fs.entryAt? (root.join q) = (fs.seenFrom root).entryAt? (Path.current.join q) := by
  rw [FileSystem.entryAt?, FileSystem.entryAt?, locate_seenFrom hroot hq]
  cases (fs.seenFrom root).locate (Path.current.join q) with
  | error e => rfl
  | ok names => exact (entryAt?_seenFrom hroot names).symm

/-- The path is that of a directory if it is, seen from the root. -/
theorem isDirectory_seenFrom :
    fs.isDirectory (root.join q) = (fs.seenFrom root).isDirectory (Path.current.join q) := by
  rw [isDirectory, isDirectory, entryAt?_join_seenFrom hroot hq]

/-- The path is that of a file if it is, seen from the root. -/
theorem isFile_seenFrom :
    fs.isFile (root.join q) = (fs.seenFrom root).isFile (Path.current.join q) := by
  rw [isFile, isFile, entryAt?_join_seenFrom hroot hq]

/-- **What is read within a root** is what is read in what lies beneath it. -/
theorem read_seenFrom :
    fs.read (root.join q) = (fs.seenFrom root).read (Path.current.join q) := by
  rw [read, read, locate_seenFrom hroot hq]
  cases (fs.seenFrom root).locate (Path.current.join q) with
  | error e => rfl
  | ok names =>
      simp only [Except.map, bind, Except.bind, ← entryAt?_seenFrom hroot]

end Found

/-! ### What is made -/

/-- What is asked for at a place beneath another, seen from below it. -/
def Target.beneath (place : Location) : Target → Target
  | .new names name slash => .new (place ++ names) name slash
  | .old => .old

section Made

variable {fs : FileSystem} {root q : Path} (hroot : fs.isDirectory root = true)
  (hq : q.Inward)

include hroot hq in
/-- The path asks for the same new entry, seen from the root. -/
theorem target_seenFrom (hmoves : q.moves ≠ []) :
    fs.target (root.join q) = ((fs.seenFrom root).target (Path.current.join q)).map
      (Target.beneath (root.resolve fs.here)) := by
  have hcurrent := isDirectory_current fs root
  by_cases hnul : '\x00' ∈ q.text
  · rw [target_join_of_nul hroot hq.relative hnul, target_join_of_nul hcurrent hq.relative hnul]
    rfl
  rcases segments_cases (Text.splitOn '/' q.text) with hsilent |
    ⟨front, name, rest, hsegments, hname, hrest⟩
  · refine absurd (Path.spoken_eq_nil fun s hs => ?_) hmoves
    rw [hsilent s hs]
    rfl
  have hfront : .up ∉ Path.spoken front := by
    have hup := hq.straight
    rw [Path.moves, hsegments, Path.spoken_append, List.mem_append, not_or] at hup
    exact hup.1
  have hfollow := follow_seenFrom hroot hfront []
  rw [List.append_nil] at hfollow
  rw [target_join hroot hq.relative hnul hsegments hname hrest,
    target_join hcurrent hq.relative hnul hsegments hname hrest, hfollow,
    show Path.current.resolve (fs.seenFrom root).here = [] from rfl]
  cases (fs.seenFrom root).follow [] front with
  | error e => rfl
  | ok names =>
      simp only [Except.map, Except.bind, entryAt?_seenFrom hroot]
      split
      · split <;> rfl
      · rfl

include hroot in
/-- What is put beneath a root is put into what is seen from it. -/
theorem seenFrom_put (names : Location) (name : Text) (entry : Entry) :
    seenFrom root { fs with tree := fs.tree.put (root.resolve fs.here ++ names) name entry } =
      { fs.seenFrom root with tree := (fs.seenFrom root).tree.put names name entry } :=
  congrArg (FileSystem.mk · [])
    (FileTree.subtree_put (entryAt?_of_isDirectory hroot) names name entry)

include hroot hq in
/-- **What is written within a root** is written into what lies beneath it. -/
theorem write_seenFrom (hmoves : q.moves ≠ []) (content : Content) :
    (fs.write (root.join q) content).map (seenFrom root) =
      (fs.seenFrom root).write (Path.current.join q) content := by
  rw [write, write, target_seenFrom hroot hq hmoves]
  cases (fs.seenFrom root).target (Path.current.join q) with
  | error e => rfl
  | ok target =>
      rcases target with ⟨names, name, _ | _⟩ | _
      · simp only [Except.map, Target.beneath, bind, Except.bind, entryAt?_seenFrom hroot,
          ← List.append_assoc]
        by_cases hfree :
            fs.tree.entryAt? (root.resolve fs.here ++ names ++ [name]) = some .directory
        · rw [if_pos hfree, if_pos hfree]
          rfl
        · rw [if_neg hfree, if_neg hfree]
          exact congrArg Except.ok (seenFrom_put hroot names name _)
      · rfl
      · rfl

include hroot hq in
/-- A directory is made at the path as it is, seen from the root. -/
theorem makeDirectory_seenFrom :
    (fs.makeDirectory (root.join q)).map (seenFrom root) =
      (fs.seenFrom root).makeDirectory (Path.current.join q) := by
  have hcurrent := isDirectory_current fs root
  by_cases hnul : '\x00' ∈ q.text
  · rw [makeDirectory, makeDirectory, target_join_of_nul hroot hq.relative hnul,
      target_join_of_nul hcurrent hq.relative hnul]
    rfl
  by_cases hmoves : q.moves = []
  · rw [makeDirectory_of_isDirectory (isDirectory_join_of_silent hroot hq.relative hnul hmoves),
      makeDirectory_of_isDirectory (isDirectory_join_of_silent hcurrent hq.relative hnul hmoves)]
    rfl
  rw [makeDirectory, makeDirectory, target_seenFrom hroot hq hmoves]
  cases (fs.seenFrom root).target (Path.current.join q) with
  | error e => rfl
  | ok target =>
      cases target with
      | old => rfl
      | new names name slash =>
          simp only [Except.map, Target.beneath, bind, Except.bind, entryAt?_seenFrom hroot,
            ← List.append_assoc]
          by_cases hthere :
              (fs.tree.entryAt? (root.resolve fs.here ++ names ++ [name])).isSome = true
          · rw [if_pos hthere, if_pos hthere]
            rfl
          · rw [if_neg hthere, if_neg hthere]
            exact congrArg Except.ok (seenFrom_put hroot names name _)

/-- The outcome, seen from a root. -/
def Attempt.seenFrom (root : Path) (attempt : Attempt) : Attempt :=
  ⟨attempt.fs.seenFrom root, attempt.error?⟩

include hroot hq in
/-- A directory is made or found at the path as it is, seen from the root. -/
theorem ensureDirectory_seenFrom :
    (fs.ensureDirectory (root.join q)).seenFrom root =
      (fs.seenFrom root).ensureDirectory (Path.current.join q) := by
  rw [ensureDirectory, ensureDirectory, ← makeDirectory_seenFrom hroot hq,
    ← isDirectory_seenFrom hroot hq]
  cases fs.makeDirectory (root.join q) with
  | ok later => rfl
  | error e =>
      simp only [Except.map]
      split <;> rfl

/-- A root stays a directory. -/
theorem Change.isDirectory {writes : List (Path × Text)} {made : List Location}
    {later : FileSystem} (h : Change fs writes made later) (hroot : fs.isDirectory root = true) :
    later.isDirectory root = true :=
  isDirectory_of_grows h.keeps.toGrows hroot

/-- Nothing has to be made where there is a directory. -/
theorem ensureChain_of_isDirectory {p : Path} (h : fs.isDirectory p = true) (above : List Path) :
    fs.ensureChain (p :: above) = ⟨fs, none⟩ := by
  rw [ensureChain, makeDirectory_of_isDirectory h]
  simp only [ensureDirectory, makeDirectory_of_isDirectory h, h, if_true]

include hroot in
/-- Above a path with one move within a root, nothing is made: this is the root. -/
theorem ensureChain_above (hq : q.isAbsolute = false) (hnul : '\x00' ∉ q.text)
    (hmoves : q.moves.dropLast = []) (n : Nat) :
    fs.ensureChain (((root.join q).parent?.map (Path.ancestors.upFrom n)).getD []) =
      ⟨fs, none⟩ := by
  obtain ⟨hnulRoot, hne, hway⟩ := isDirectory_iff.1 hroot
  cases hparent : (root.join q).parent? with
  | none => rfl
  | some above =>
      cases n with
      | zero => rfl
      | succ n =>
          simp only [Option.map_some, Option.getD_some]
          rw [Path.ancestors.upFrom]
          split
          · rfl
          · next hempty =>
            refine ensureChain_of_isDirectory (isDirectory_iff.2 ⟨fun hmem => ?_, hempty,
              fun place hplace => hway place ?_⟩) _
            · exact (mem_text_join_iff hq (by decide) hnulRoot).not.2 hnul
                ((Path.text_prefix_of_parent? hparent).subset hmem)
            · obtain ⟨hup, hstart⟩ := Path.moves_parent? hparent
              obtain ⟨-, front, hfront, rfl⟩ := Path.mem_way_iff.1 hplace
              refine Path.mem_way_iff.2 ⟨hne, front, ?_, ?_⟩
              · rw [hup, Path.moves_join root hq] at hfront
                by_cases hnone : q.moves = []
                · rw [hnone, List.append_nil] at hfront
                  exact hfront.trans (List.dropLast_prefix _)
                · rwa [List.dropLast_append_of_ne_nil hnone, hmoves, List.append_nil] at hfront
              · rw [Path.origin, Path.origin, hstart, Path.isAbsolute_join root hq]

include hroot hq in
/-- What becomes of a chain within a root, given what becomes of it above. -/
theorem ensureChain_cons_seenFrom {above others : List Path}
    (habove : fs.makeDirectory (root.join q) = .error .notFound →
      (fs.ensureChain above).seenFrom root = (fs.seenFrom root).ensureChain others) :
    (fs.ensureChain (root.join q :: above)).seenFrom root =
      (fs.seenFrom root).ensureChain (Path.current.join q :: others) := by
  have hfirst := ensureDirectory_seenFrom hroot hq
  have hsame := makeDirectory_seenFrom hroot hq
  rw [ensureChain, ensureChain, ← hsame]
  cases hmake : fs.makeDirectory (root.join q) with
  | ok later => exact hfirst
  | error e =>
      cases e with
      | notFound =>
          simp only [Except.map]
          rw [← habove hmake]
          have hkept := (change_ensureChain fs above).isDirectory hroot
          cases hchain : fs.ensureChain above with
          | mk later error? =>
              rw [hchain] at hkept
              cases error? with
              | none => exact ensureDirectory_seenFrom hkept hq
              | some e => rfl
      | notADirectory => exact hfirst
      | isADirectory => exact hfirst
      | alreadyExists => exact hfirst
      | invalidData => exact hfirst
      | invalidInput => exact hfirst

include hroot in
/-- Where something is missing within a root, the same is made above it. -/
theorem ensureChain_seenFrom {q : Path} (hq : q.Inward)
    {n m : Nat} (hn : q.moves.length < n) (hm : q.moves.length < m) :
    (fs.ensureChain (Path.ancestors.upFrom n (root.join q))).seenFrom root =
      (fs.seenFrom root).ensureChain (Path.ancestors.upFrom m (Path.current.join q)) := by
  have hcurrent := isDirectory_current fs root
  obtain ⟨-, hne, -⟩ := isDirectory_iff.1 hroot
  obtain ⟨-, hneCurrent, -⟩ := isDirectory_iff.1 hcurrent
  induction n generalizing q m with
  | zero => exact absurd hn (Nat.not_lt_zero _)
  | succ n ih =>
      obtain ⟨m, rfl⟩ : ∃ k, m = k + 1 := ⟨m - 1, by omega⟩
      rw [Path.ancestors.upFrom, Path.ancestors.upFrom, if_neg (text_join_ne_nil hne hq.relative),
        if_neg (text_join_ne_nil hneCurrent hq.relative)]
      refine ensureChain_cons_seenFrom hroot hq fun hmissing => ?_
      have hnul : '\x00' ∉ q.text := by
        intro hnul
        rw [makeDirectory, target_join_of_nul hroot hq.relative hnul] at hmissing
        cases hmissing
      by_cases hmoves : q.moves.dropLast = []
      · rw [ensureChain_above hroot hq.relative hnul hmoves,
          ensureChain_above hcurrent hq.relative hnul hmoves]
        rfl
      · obtain ⟨above, hparent, habove⟩ := Path.parent?_join hne hq.relative hmoves
        obtain ⟨other, hother, haboveCurrent⟩ := Path.parent?_join hneCurrent hq.relative hmoves
        obtain rfl := Option.some.inj (hparent.symm.trans hother)
        have hfront := (Path.moves_parent? hparent).1
        have hlength : above.moves.length < q.moves.length := by
          rw [hfront, List.length_dropLast]
          have hpos : q.moves ≠ [] := fun hnil => hmoves (by rw [hnil]; rfl)
          have := List.length_pos_iff.2 hpos
          omega
        rw [habove, haboveCurrent]
        exact ih (hq.parent? hparent) (by omega) (by omega)

include hroot hq in
/-- **What is made sure of within a root** is made sure of in what lies beneath it. -/
theorem ensureDirectories_seenFrom :
    (fs.ensureDirectories (root.join q)).seenFrom root =
      (fs.seenFrom root).ensureDirectories (Path.current.join q) := by
  have hlength : ∀ {p : Path}, p.text ≠ [] → q.moves.length < (p.join q).text.length := by
    intro p hp
    obtain ⟨t, -, hjoin⟩ := Path.join_eq hp
    rw [hjoin q hq.relative, List.length_append, List.length_cons]
    have := Path.length_moves_le q
    omega
  obtain ⟨-, hne, -⟩ := isDirectory_iff.1 hroot
  exact ensureChain_seenFrom hroot hq (hlength hne) (hlength (List.cons_ne_nil _ _))

end Made

/-! ### Two roots -/

/-- The same lies beneath two roots, each of them in its file system. -/
structure SameWithin (fs : FileSystem) (root : Path) (other : FileSystem)
    (there : Path) : Prop where
  directory : fs.isDirectory root = true
  directoryThere : other.isDirectory there = true
  same : other.seenFrom there = fs.seenFrom root

instance (fs : FileSystem) (root : Path) (other : FileSystem) (there : Path) :
    Decidable (SameWithin fs root other there) :=
  decidable_of_iff (fs.isDirectory root = true ∧ other.isDirectory there = true ∧
      other.seenFrom there = fs.seenFrom root)
    ⟨fun h => ⟨h.1, h.2.1, h.2.2⟩, fun h => ⟨h.directory, h.directoryThere, h.same⟩⟩

namespace SameWithin

variable {fs other : FileSystem} {root there q : Path} (h : SameWithin fs root other there)

include h in
/-- A root beneath which something lies is not the empty path. -/
theorem text_ne_nil : root.text ≠ [] ∧ there.text ≠ [] :=
  ⟨(isDirectory_iff.1 h.directory).2.1, (isDirectory_iff.1 h.directoryThere).2.1⟩

include h in
/-- The same names stand in directories that lie at the same names beneath both roots. -/
theorem namesIn_eq (names : Location) :
    other.tree.namesIn (there.resolve other.here ++ names) =
      fs.tree.namesIn (root.resolve fs.here ++ names) := by
  have hlisted := congrArg (fun seen : FileSystem => seen.tree.namesIn names) h.same
  simpa only [seenFrom, FileTree.namesIn_subtree] using hlisted

variable (hq : q.Inward)

include h hq

/-- A path that is read from within both roots is that of a directory in both or in neither. -/
theorem isDirectory_eq : other.isDirectory (there.join q) = fs.isDirectory (root.join q) := by
  rw [isDirectory_seenFrom h.directory hq, isDirectory_seenFrom h.directoryThere hq, h.same]

/-- A path that is read from within both roots is that of a file in both or in neither. -/
theorem isFile_eq : other.isFile (there.join q) = fs.isFile (root.join q) := by
  rw [isFile_seenFrom h.directory hq, isFile_seenFrom h.directoryThere hq, h.same]

/-- **The same is read** within both roots. -/
theorem read_eq : other.read (there.join q) = fs.read (root.join q) := by
  rw [read_seenFrom h.directory hq, read_seenFrom h.directoryThere hq, h.same]

/-- **Writing the same** within both roots fails in the same way, or leaves the same. -/
theorem write (hmoves : q.moves ≠ []) (t : Text) :
    (∃ e, fs.write (root.join q) (.text t) = .error e ∧
        other.write (there.join q) (.text t) = .error e) ∨
      ∃ later after, fs.write (root.join q) (.text t) = .ok later ∧
        other.write (there.join q) (.text t) = .ok after ∧ SameWithin later root after there := by
  have hsame : (other.write (there.join q) (.text t)).map (seenFrom there) =
      (fs.write (root.join q) (.text t)).map (seenFrom root) := by
    rw [write_seenFrom h.directory hq hmoves, write_seenFrom h.directoryThere hq hmoves,
      h.same]
  cases hwrite : fs.write (root.join q) (.text t) with
  | error e =>
      cases hother : other.write (there.join q) (.text t) with
      | error e' =>
          rw [hwrite, hother] at hsame
          exact .inl ⟨e, rfl, congrArg Except.error (Except.error.inj hsame)⟩
      | ok after =>
          rw [hwrite, hother] at hsame
          cases hsame
  | ok later =>
      cases hother : other.write (there.join q) (.text t) with
      | error e' =>
          rw [hwrite, hother] at hsame
          cases hsame
      | ok after =>
          rw [hwrite, hother] at hsame
          exact .inr ⟨later, after, rfl, rfl, (change_write hwrite).isDirectory h.directory,
            (change_write hother).isDirectory h.directoryThere, Except.ok.inj hsame⟩

/-- **Making sure of the same directory** within both roots leaves the same, and fails in the same
way if it fails. -/
theorem ensureDirectories :
    (other.ensureDirectories (there.join q)).error? = (fs.ensureDirectories (root.join q)).error? ∧
      SameWithin (fs.ensureDirectories (root.join q)).fs root
        (other.ensureDirectories (there.join q)).fs there := by
  have hsame : (other.ensureDirectories (there.join q)).seenFrom there =
      (fs.ensureDirectories (root.join q)).seenFrom root := by
    rw [ensureDirectories_seenFrom h.directory hq,
      ensureDirectories_seenFrom h.directoryThere hq, h.same]
  obtain ⟨hfs, herror⟩ := Attempt.mk.inj hsame
  exact ⟨herror, (change_ensureDirectories fs _).isDirectory h.directory,
    (change_ensureDirectories other _).isDirectory h.directoryThere, hfs⟩

end SameWithin

end FileSystem

end Guidebook
