import Guidebook.Proofs.FileTree.Writing
import Guidebook.Proofs.Path.Resolution

/-!
# Following Paths

Following a path in a file system leads where the path leads by itself, if it leads anywhere: every
location that is passed on the way has to be that of a directory. So there is a directory at a path
exactly if there are directories all the way. A path that asks for a new entry names it behind the
way to a directory.

## Main results

* `FileSystem.eq_resolve_of_locate`: a path leads to its resolution, if anywhere.
* `FileSystem.isDirectory_iff`: **there is a directory at a path** if there are directories all the
  way.
* `FileSystem.target_eq`, `FileSystem.target_new`: what a path says that asks for a new entry.
-/

namespace Guidebook

/-- The directory above what is there is there. -/
theorem FileTree.entryAt?_dropLast (tree : FileTree) {place : Location}
    (h : (tree.entryAt? place).isSome) : tree.entryAt? place.dropLast = some .directory := by
  rcases List.eq_nil_or_concat' place with rfl | ⟨front, name, rfl⟩
  · exact tree.entryAt?_root
  · rw [List.dropLast_concat]
    exact tree.entryAt?_parent h

/-- One segment leads nowhere, one level up, or into an entry. -/
theorem Location.walk_spoken_singleton (place : Location) (segment : Text) :
    walk place (Path.spoken [segment]) =
      if Path.isSilent segment then place
      else if segment = ['.', '.'] then place.dropLast
      else place ++ [segment] := by
  by_cases hsilent : Path.isSilent segment = true
  · rw [Path.spoken_cons_of_silent hsilent, if_pos hsilent]
    rfl
  · by_cases hup : segment = ['.', '.']
    · subst hup
      rfl
    · simp [Path.spoken, Path.component?, hsilent, hup, walk, move]

/-- What lies on the way of segments is the place to begin with, and what lies on the way of the
others from where the first leads. -/
theorem Location.forall_way_cons {P : Location → Prop} (place : Location) (segment : Text)
    (segments : List Text) :
    (∀ front, front <+: Path.spoken (segment :: segments) → P (walk place front)) ↔
      P place ∧ ∀ front, front <+: Path.spoken segments →
        P (walk (walk place (Path.spoken [segment])) front) := by
  cases hsegment : Path.component? segment with
  | none =>
      have hsilent := Path.component?_eq_none_iff.1 hsegment
      rw [Path.spoken_cons_of_silent hsilent, Path.spoken_cons_of_silent hsilent]
      exact ⟨fun h => ⟨h [] List.nil_prefix, h⟩, And.right⟩
  | some component =>
      have hone : ∀ more, Path.spoken (segment :: more) = component :: Path.spoken more := by
        intro more
        simp [Path.spoken, hsegment]
      rw [hone, hone]
      constructor
      · intro h
        exact ⟨h [] List.nil_prefix,
          fun front hfront => h (component :: front) (List.cons_prefix_cons.2 ⟨rfl, hfront⟩)⟩
      · rintro ⟨hplace, h⟩ front hfront
        rcases List.prefix_cons_iff.1 hfront with rfl | ⟨rest, rfl, hrest⟩
        · exact hplace
        · exact h rest hrest

/-- A walk by segments goes by the first and then by the others. -/
theorem Location.walk_spoken_cons (place : Location) (segment : Text) (segments : List Text) :
    walk place (Path.spoken (segment :: segments)) =
      walk (walk place (Path.spoken [segment])) (Path.spoken segments) := by
  rw [← walk_append, ← Path.spoken_append]
  rfl

namespace FileSystem

/-! ### Following -/

/-- From a directory, a segment leads where it leads by itself, if there is something. -/
theorem enter_directory {fs : FileSystem} {place : Location}
    (h : fs.tree.entryAt? place = some .directory) (segment : Text) :
    fs.enter place segment =
      if (fs.tree.entryAt? (Location.walk place (Path.spoken [segment]))).isSome then
        .ok (Location.walk place (Path.spoken [segment]))
      else .error .notFound := by
  rw [enter, h, Location.walk_spoken_singleton]
  by_cases hsilent : Path.isSilent segment = true
  · simp [hsilent, h]
  · by_cases hup : segment = ['.', '.']
    · subst hup
      have habove : fs.tree.entryAt? (List.dropLast place) = some .directory :=
        fs.tree.entryAt?_dropLast (by rw [h]; rfl)
      simp [hsilent, habove]
    · simp [hsilent, hup]

/-- **A segment is entered** exactly if it is entered from a directory and something lies where it
leads. -/
theorem enter_ok_iff {fs : FileSystem} {place next : Location} {segment : Text} :
    fs.enter place segment = .ok next ↔
      fs.tree.entryAt? place = some .directory ∧ (fs.tree.entryAt? next).isSome ∧
        next = Location.walk place (Path.spoken [segment]) := by
  by_cases hplace : fs.tree.entryAt? place = some .directory
  · rw [enter_directory hplace]
    grind
  · simp only [hplace, false_and, iff_false]
    intro henter
    unfold enter at henter
    split at henter
    · cases henter
    · cases henter
    · next hdirectory => exact hplace hdirectory

/-- Segments are followed exactly if the first one is entered and the others are followed from
there. -/
theorem follow_cons_ok_iff {fs : FileSystem} {place last : Location} {segment : Text}
    {segments : List Text} :
    fs.follow place (segment :: segments) = .ok last ↔
      ∃ next, fs.enter place segment = .ok next ∧ fs.follow next segments = .ok last := by
  rw [follow, List.foldlM_cons]
  cases fs.enter place segment with
  | error e => simp [bind, Except.bind]
  | ok next => simp [bind, Except.bind, follow]

/-- Segments lead where they lead by themselves, if anywhere. -/
theorem eq_walk_of_follow {fs : FileSystem} {place last : Location} {segments : List Text}
    (h : fs.follow place segments = .ok last) :
    last = Location.walk place (Path.spoken segments) := by
  induction segments generalizing place with
  | nil => exact (Except.ok.inj h).symm
  | cons segment segments ih =>
      obtain ⟨next, henter, hfollow⟩ := follow_cons_ok_iff.1 h
      obtain ⟨-, -, rfl⟩ := enter_ok_iff.1 henter
      rw [ih hfollow, ← Location.walk_spoken_cons place]

/-- Segments lead to a directory if there are directories all the way. -/
theorem follow_directory_iff {fs : FileSystem} {place : Location} {segments : List Text} :
    (∃ last, fs.follow place segments = .ok last ∧ fs.tree.entryAt? last = some .directory) ↔
      ∀ front, front <+: Path.spoken segments →
        fs.tree.entryAt? (Location.walk place front) = some .directory := by
  induction segments generalizing place with
  | nil =>
      constructor
      · rintro ⟨last, hfollow, hlast⟩ front hfront
        obtain rfl := List.prefix_nil.1 hfront
        obtain rfl := Except.ok.inj hfollow
        exact hlast
      · intro h
        exact ⟨place, rfl, h [] List.prefix_rfl⟩
  | cons segment segments ih =>
      refine Iff.trans ?_ (Location.forall_way_cons
        (P := fun next => fs.tree.entryAt? next = some .directory) place segment segments).symm
      rw [← ih]
      constructor
      · rintro ⟨last, hfollow, hlast⟩
        obtain ⟨next, henter, hrest⟩ := follow_cons_ok_iff.1 hfollow
        obtain ⟨hplace, -, rfl⟩ := enter_ok_iff.1 henter
        exact ⟨hplace, last, hrest, hlast⟩
      · rintro ⟨hplace, last, hrest, hlast⟩
        have hnext := ih.1 ⟨last, hrest, hlast⟩ [] List.nil_prefix
        rw [Location.walk_nil] at hnext
        have henter := enter_ok_iff.2 ⟨hplace, by rw [hnext]; rfl, rfl⟩
        exact ⟨last, follow_cons_ok_iff.2 ⟨_, henter, hrest⟩, hlast⟩

/-- Where a path starts does not depend on the files. -/
theorem start_eq (fs : FileSystem) (p : Path) : fs.start p = p.origin fs.here := rfl

/-- **A path is found** exactly if it is neither empty nor holds a NUL, and its segments can be
followed. -/
theorem locate_ok_iff {fs : FileSystem} {p : Path} {place : Location} :
    fs.locate p = .ok place ↔ '\x00' ∉ p.text ∧ p.text ≠ [] ∧
      fs.follow (fs.start p) (Text.splitOn '/' p.text) = .ok place := by
  rw [locate, segmentsOf]
  split
  · next hnul => simp [hnul, bind, Except.bind]
  · next hnul =>
    split
    · next hempty => simp [hempty, bind, Except.bind]
    · next hne => simp [hnul, hne, bind, Except.bind]

/-- A path leads to its resolution, if anywhere. -/
theorem eq_resolve_of_locate {fs : FileSystem} {p : Path} {place : Location}
    (h : fs.locate p = .ok place) : place = p.resolve fs.here := by
  obtain ⟨-, -, hfollow⟩ := locate_ok_iff.1 h
  exact eq_walk_of_follow hfollow

/-- A path can be read if it leads to a file with a text. -/
theorem read_ok_iff {fs : FileSystem} {p : Path} {t : Text} :
    fs.read p = .ok t ↔
      ∃ place, fs.locate p = .ok place ∧ fs.tree.entryAt? place = some (.file (.text t)) := by
  rw [read]
  cases fs.locate p with
  | error e => simp [bind, Except.bind]
  | ok place =>
      simp only [bind, Except.bind, Except.ok.injEq, exists_eq_left']
      split
      · next hentry => simp [hentry, pure, Except.pure]
      · next hentry => simp [hentry, throw, throwThe, MonadExceptOf.throw]
      · next hentry => simp [hentry, throw, throwThe, MonadExceptOf.throw]
      · next hentry => simp [hentry, throw, throwThe, MonadExceptOf.throw]

/-- The segments to a directory say what its path says. -/
theorem spoken_segmentsTo {directory : Path} (h : directory.text ≠ []) :
    Path.spoken (segmentsTo directory) = directory.moves := by
  obtain ⟨t, hdirectory, hjoin⟩ := Path.join_eq h
  rw [segmentsTo, hjoin ⟨[]⟩ rfl, Text.splitOn_append, show Text.splitOn '/' [] = [[]] from rfl,
    List.dropLast_concat]
  rcases hdirectory with ⟨rfl, -⟩ | rfl
  · rfl
  · rw [Path.moves, Text.splitOn_append, Path.spoken_append]
    exact (List.append_nil _).symm

/-- **There is a directory at a path** if there are directories all the way. -/
theorem isDirectory_iff {fs : FileSystem} {p : Path} :
    fs.isDirectory p = true ↔ '\x00' ∉ p.text ∧ p.text ≠ [] ∧
      ∀ place ∈ p.way fs.here, fs.tree.entryAt? place = some .directory := by
  have hlocate : fs.isDirectory p = true ↔
      ∃ last, fs.locate p = .ok last ∧ fs.tree.entryAt? last = some .directory := by
    rw [isDirectory, entryAt?]
    cases fs.locate p <;> simp
  rw [hlocate]
  constructor
  · rintro ⟨last, hlast, hdirectory⟩
    obtain ⟨hnul, hne, hfollow⟩ := locate_ok_iff.1 hlast
    refine ⟨hnul, hne, fun place hplace => ?_⟩
    obtain ⟨-, front, hfront, rfl⟩ := Path.mem_way_iff.1 hplace
    exact follow_directory_iff.1 ⟨last, hfollow, hdirectory⟩ front hfront
  · rintro ⟨hnul, hne, hway⟩
    obtain ⟨last, hfollow, hlast⟩ := follow_directory_iff.2 fun front hfront =>
      hway _ (Path.mem_way_iff.2 ⟨hne, front, hfront, rfl⟩)
    exact ⟨last, locate_ok_iff.2 ⟨hnul, hne, hfollow⟩, hlast⟩

/-! ### Asking for new entries -/

section Target

variable {p : Path} {front rest : List Text} {name : Text}

/-- Segments end with a name and slashes behind it, unless they are all empty. -/
theorem segments_cases (segments : List Text) :
    (∀ s ∈ segments, s = []) ∨ ∃ front name rest, segments = front ++ name :: rest ∧
      name ≠ [] ∧ ∀ s ∈ rest, s = [] := by
  induction segments with
  | nil => simp
  | cons segment segments ih =>
      rcases ih with hsilent | ⟨front, name, rest, rfl, hname, hrest⟩
      · by_cases hsegment : segment = []
        · exact .inl (List.forall_mem_cons.2 ⟨hsegment, hsilent⟩)
        · exact .inr ⟨[], segment, segments, rfl, hsegment, hsilent⟩
      · exact .inr ⟨segment :: front, name, rest, rfl, hname, hrest⟩

/-- A path of slashes alone asks for no new entry. -/
theorem target_of_silent (fs : FileSystem) (hnul : '\x00' ∉ p.text) (hne : p.text ≠ [])
    (h : ∀ s ∈ Text.splitOn '/' p.text, s = []) : fs.target p = .ok .old := by
  have hnamed : (Text.splitOn '/' p.text).reverse.dropWhile (· = []) = [] := by
    simpa [List.dropWhile_eq_nil_iff] using h
  rw [target, segmentsOf, if_neg hnul, if_neg hne]
  simp only [bind, Except.bind, hnamed]
  rfl

/-- What a path asks for is decided at the directory in front of its last name. -/
theorem target_eq (fs : FileSystem) (hnul : '\x00' ∉ p.text)
    (hsegments : Text.splitOn '/' p.text = front ++ name :: rest) (hname : name ≠ [])
    (hrest : ∀ s ∈ rest, s = []) :
    fs.target p = (fs.follow (fs.start p) front).bind fun place =>
      if fs.tree.entryAt? place = some .directory then
        if name = ['.'] ∨ name = ['.', '.'] then .ok .old
        else .ok (.new place name (decide (rest ≠ [])))
      else .error .notADirectory := by
  have hnamed : ((Text.splitOn '/' p.text).reverse.dropWhile (· = [])).reverse =
      front ++ [name] := by
    have hdrop : rest.reverse.dropWhile (· = []) = [] := by
      simpa [List.dropWhile_eq_nil_iff] using hrest
    rw [hsegments]
    simp [List.dropWhile_append, hdrop, hname]
  have hne : p.text ≠ [] := by
    intro hempty
    rw [hempty] at hsegments
    rcases front with _ | ⟨_, _ | _⟩ <;> simp_all [Text.splitOn]
  have hslash : decide ((front ++ [name]).length < (front ++ name :: rest).length) =
      decide (rest ≠ []) := by
    cases rest <;> simp
  rw [target, segmentsOf, if_neg hnul, if_neg hne]
  simp only [bind, Except.bind, hnamed, List.getLast?_concat, List.dropLast_concat]
  cases fs.follow (fs.start p) front with
  | error e => rfl
  | ok place =>
      simp only [hsegments, hslash]
      split
      · next hdirectory => rw [if_pos hdirectory]; rfl
      · next hother => rw [if_neg hother]; rfl

/-- The last move of a path with a name at its end is to that name. -/
theorem moves_of_segments (hsegments : Text.splitOn '/' p.text = front ++ name :: rest)
    (hname : Path.IsFileName name) (hrest : ∀ s ∈ rest, s = []) :
    p.moves = Path.spoken front ++ [.name name] := by
  have hsilent : Path.spoken rest = [] := by
    refine Path.spoken_eq_nil fun s hs => ?_
    rw [hrest s hs]
    rfl
  have hlast : Path.spoken (name :: rest) = [.name name] := by
    rw [← List.singleton_append, Path.spoken_append, hname.spoken, hsilent, List.append_nil]
  rw [Path.moves, hsegments, Path.spoken_append, hlast]

end Target

/-- **What a path says that asks for a new entry**: the way to a directory and a name, and nothing
behind the name but slashes. -/
theorem target_new {fs : FileSystem} {p : Path} {place : Location} {name : Text} {slash : Bool}
    (h : fs.target p = .ok (.new place name slash)) :
    ∃ front rest, Text.splitOn '/' p.text = front ++ name :: rest ∧ (∀ s ∈ rest, s = []) ∧
      slash = decide (rest ≠ []) ∧ '\x00' ∉ p.text ∧ p.text ≠ [] ∧ Path.IsFileName name ∧
      fs.follow (fs.start p) front = .ok place ∧ fs.tree.entryAt? place = some .directory := by
  by_cases hnul : '\x00' ∈ p.text
  · simp [target, segmentsOf, hnul, bind, Except.bind] at h
  by_cases hne : p.text = []
  · simp [target, segmentsOf, hne, bind, Except.bind] at h
  rcases segments_cases (Text.splitOn '/' p.text) with hsilent |
    ⟨front, last, rest, hsegments, hlast, hrest⟩
  · rw [target_of_silent fs hnul hne hsilent] at h
    cases h
  · rw [target_eq fs hnul hsegments hlast hrest] at h
    cases hfollow : fs.follow (fs.start p) front with
    | error e => simp [hfollow, Except.bind] at h
    | ok found =>
        simp only [hfollow, Except.bind] at h
        split at h
        · next hdirectory =>
          split at h
          · cases h
          · next hdots =>
            cases h
            refine ⟨front, rest, hsegments, hrest, rfl, hnul, hne, ?_, hfollow, hdirectory⟩
            exact {
              clean := Text.not_mem_of_mem_splitOn (by rw [hsegments]; simp)
              speaks := by simpa [Path.isSilent, hlast] using fun hdot => hdots (.inl hdot)
              notUp := fun hup => hdots (.inr hup) }
        · cases h

end FileSystem

end Guidebook
