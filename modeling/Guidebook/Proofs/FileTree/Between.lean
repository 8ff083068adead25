import Guidebook.Proofs.FileTree.Change

/-!
# Between Two File Systems

What succeeds in a file system may fail in a larger one: there may be a file where a directory has
to be made, or the other way round. Nothing of the kind is in the way if the larger file system is
itself kept by one in which everything is as the operation leaves it. So operations succeed in any
file system between one in which they succeed and one that has what they lead to, and again lead to
file systems in between.

Only the making of directories needs an argument. Which directories are made, and in which order,
depends on what is there. A directory that can be made, or reached, from less can be made or reached
from more; and where something is missing, it is missing from less, too, so that the directories
above it have been made there, and can be made.

## Main results

* `FileSystem.Change.keeps_change`, `FileSystem.Change.keeps_last`: changes preserve the order of
  file systems.
* `FileSystem.ensureDirectories_between`, `FileSystem.write_between`: **operations in between**.
-/

namespace Guidebook

namespace Path

/-- The second path is one on the way of the first, from the same start. -/
structure LeadsOver (p q : Path) : Prop where
  moves : q.moves <+: p.moves
  start : q.isAbsolute = p.isAbsolute

/-- The way of the second path is part of that of the first. -/
theorem LeadsOver.way {p q : Path} (h : LeadsOver p q) (hp : p.text ≠ []) {here place : Location}
    (hplace : place ∈ q.way here) : place ∈ p.way here := by
  obtain ⟨-, front, hfront, rfl⟩ := mem_way_iff.1 hplace
  refine mem_way_iff.2 ⟨hp, front, hfront.trans h.moves, ?_⟩
  rw [origin, origin, h.start]

/-- The second path leads to a place on the way of the first. -/
theorem LeadsOver.resolve_mem_way {p q : Path} (h : LeadsOver p q) (hp : p.text ≠ [])
    (here : Location) : q.resolve here ∈ p.way here :=
  mem_way_iff.2 ⟨hp, q.moves, h.moves, by rw [resolve, origin, origin, h.start]⟩

/-- Each of the directories above a path lies on the ways of those below it. -/
theorem pairwise_upFrom (n : Nat) (p : Path) : (ancestors.upFrom n p).Pairwise LeadsOver := by
  induction n generalizing p with
  | zero => exact .nil
  | succ n ih =>
      rw [ancestors.upFrom]
      split
      · exact .nil
      · next hne =>
        cases hparent : p.parent? with
        | none => exact List.pairwise_singleton _ _
        | some parent =>
            refine List.pairwise_cons.2 ⟨fun q hq => ?_, ih parent⟩
            obtain ⟨-, hmoves, hstart⟩ := moves_of_mem_upFrom hq
            obtain ⟨hup, hsame⟩ := moves_parent? hparent
            rw [hup] at hmoves
            exact ⟨hmoves.trans (List.dropLast_prefix _), hstart.trans hsame⟩

/-- Each ancestor leads over those behind it. -/
theorem pairwise_ancestors (p : Path) : p.ancestors.Pairwise LeadsOver :=
  pairwise_upFrom _ p

end Path

namespace FileSystem

variable {fs mid last after later : FileSystem} {p : Path}

/-! ### Changes and the order of file systems -/

namespace Change

variable {writes : List (Path × Text)} {made more : List Location}

/-- The same writes keep the order, if the directories that the first change makes are there behind
the second. -/
theorem keeps_change (h : Change fs writes made after) (hmid : Change mid writes more later)
    (hkeeps : Keeps fs mid)
    (hmade : ∀ place ∈ made, after.tree.entryAt? place = some .directory →
      later.tree.entryAt? place = some .directory) : Keeps after later := by
  have hkept := hkeeps.trans hmid.keeps
  have hdirectory : ∀ place, after.tree.entryAt? place = some .directory →
      later.tree.entryAt? place = some .directory := by
    intro place hplace
    by_cases hold : fs.tree.entryAt? place = some .directory
    · exact hkept.directory place hold
    · exact hmade place (h.made_of_directory hold hplace) hplace
  have hfile : ∀ place content, after.tree.entryAt? place = some (.file content) →
      ∃ new, later.tree.entryAt? place = some (.file new) := by
    intro place content hplace
    cases hwrite : lastWrite? fs.here place writes with
    | some t =>
        rw [← hkeeps.here] at hwrite
        exact ⟨.text t, (hmid.written place t hwrite).2⟩
    | none => exact hkept.file place content ((h.file_iff hwrite).1 hplace)
  exact .of_entries (hkept.here.trans h.here.symm) hdirectory hfile

/-- What is kept by a file system in which there are files where a change writes and directories
where it makes them is still kept behind the change. -/
theorem keeps_last (h : Change mid writes made later) (hkeeps : Keeps mid last)
    (hwritten : ∀ w ∈ writes, ∃ content,
      last.tree.entryAt? (w.1.resolve last.here) = some (.file content))
    (hmade : ∀ place ∈ made, last.tree.entryAt? place = some .directory) : Keeps later last := by
  have hdirectory : ∀ place, later.tree.entryAt? place = some .directory →
      last.tree.entryAt? place = some .directory := by
    intro place hplace
    by_cases hold : mid.tree.entryAt? place = some .directory
    · exact hkeeps.directory place hold
    · exact hmade place (h.made_of_directory hold hplace)
  have hfile : ∀ place content, later.tree.entryAt? place = some (.file content) →
      ∃ new, last.tree.entryAt? place = some (.file new) := by
    intro place content hplace
    cases hwrite : lastWrite? mid.here place writes with
    | some t =>
        obtain ⟨w, hw, hresolve, -⟩ := exists_mem_of_lastWrite? hwrite
        obtain ⟨new, hnew⟩ := hwritten w hw
        rw [hkeeps.here, hresolve] at hnew
        exact ⟨new, hnew⟩
    | none => exact hkeeps.file place content ((h.file_iff hwrite).1 hplace)
  exact .of_entries (hkeeps.here.trans h.here.symm) hdirectory hfile

end Change

/-! ### Writing -/

/-- **Writing in between**: what can be written can be written where it ends up as a file. -/
theorem write_between {t : Text} (hkeeps : Keeps fs mid) (hlast : Keeps mid last)
    (hfile : ∃ content, last.tree.entryAt? (p.resolve last.here) = some (.file content))
    (h : fs.write p (.text t) = .ok after) : ∃ later, mid.write p (.text t) = .ok later := by
  obtain ⟨place, name, htarget, -, -⟩ := exists_target_of_write h
  obtain ⟨content, hfile⟩ := hfile
  rw [(hkeeps.trans hlast).here, resolve_of_target htarget] at hfile
  have hfree : mid.tree.entryAt? (place ++ [name]) ≠ some .directory := by
    intro hdirectory
    rw [hlast.directory _ hdirectory] at hfile
    cases hfile
  exact ⟨_, by rw [write_of_target (target_of_grows hkeeps.toGrows htarget), if_neg hfree]⟩

/-! ### Directories that are missing -/

/-- From a directory, where no file is in the way, segments lead to a directory, or something is
missing. -/
theorem follow_of_clear {place : Location} {segments : List Text}
    (hplace : fs.tree.entryAt? place = some .directory)
    (h : ∀ front, front <+: Path.spoken segments → ∀ content,
      fs.tree.entryAt? (Location.walk place front) ≠ some (.file content)) :
    fs.follow place segments = .error .notFound ∨
      ∃ next, fs.follow place segments = .ok next ∧ fs.tree.entryAt? next = some .directory := by
  induction segments generalizing place with
  | nil => exact .inr ⟨place, rfl, hplace⟩
  | cons segment segments ih =>
      obtain ⟨-, hrest⟩ := (Location.forall_way_cons
        (P := fun next => ∀ content, fs.tree.entryAt? next ≠ some (.file content))
        place segment segments).1 h
      rw [follow, List.foldlM_cons, enter_directory hplace]
      cases hentry : fs.tree.entryAt? (Location.walk place (Path.spoken [segment])) with
      | none => exact .inl rfl
      | some entry =>
          cases entry with
          | file content => exact absurd hentry (hrest [] List.nil_prefix content)
          | directory => exact ih hentry hrest

/-- A path of slashes alone starts at the root. -/
theorem isAbsolute_of_silent (hne : p.text ≠ []) (h : ∀ s ∈ Text.splitOn '/' p.text, s = []) :
    p.isAbsolute = true := by
  obtain ⟨t⟩ := p
  obtain ⟨c, rest, rfl⟩ := List.exists_cons_of_ne_nil hne
  by_cases hslash : c = '/'
  · subst hslash
    rfl
  · obtain ⟨piece, pieces, -, hcut⟩ := Text.splitOn_cons_of_ne hslash rest
    rw [hcut] at h
    exact absurd (h (c :: piece) List.mem_cons_self) (List.cons_ne_nil c piece)

/-- A path of slashes alone is that of a directory, the root. -/
theorem isDirectory_of_silent (hnul : '\x00' ∉ p.text) (hne : p.text ≠ [])
    (h : ∀ s ∈ Text.splitOn '/' p.text, s = []) : fs.isDirectory p = true := by
  refine isDirectory_iff.2 ⟨hnul, hne, fun place hplace => ?_⟩
  obtain ⟨-, front, hfront, rfl⟩ := Path.mem_way_iff.1 hplace
  have hsilent : p.moves = [] := by
    refine Path.spoken_eq_nil fun s hs => ?_
    rw [h s hs]
    rfl
  rw [hsilent] at hfront
  obtain rfl := List.prefix_nil.1 hfront
  rw [Path.origin, isAbsolute_of_silent hne h]
  exact fs.tree.entryAt?_root

/-- Where there are directories up to the last segment, and there, there is a directory. -/
theorem isDirectory_of_front {front rest : List Text} {name : Text} {place : Location}
    (hnul : '\x00' ∉ p.text) (hne : p.text ≠ [])
    (hsegments : Text.splitOn '/' p.text = front ++ name :: rest) (hrest : ∀ s ∈ rest, s = [])
    (hfollow : fs.follow (fs.start p) front = .ok place)
    (hplace : fs.tree.entryAt? place = some .directory)
    (hlast : fs.tree.entryAt? (Location.walk place (Path.spoken [name])) = some .directory) :
    fs.isDirectory p = true := by
  have hsilent : Path.spoken rest = [] := by
    refine Path.spoken_eq_nil fun s hs => ?_
    rw [hrest s hs]
    rfl
  have hmoves : p.moves = Path.spoken (front ++ [name]) := by
    rw [Path.moves, hsegments, ← List.singleton_append, ← List.append_assoc, Path.spoken_append,
      hsilent, List.append_nil]
  have hname : fs.follow (fs.start p) (front ++ [name]) =
      .ok (Location.walk place (Path.spoken [name])) := by
    rw [follow_concat, hfollow]
    exact enter_ok_iff.2 ⟨hplace, by rw [hlast]; rfl, rfl⟩
  refine isDirectory_iff.2 ⟨hnul, hne, fun other hother => ?_⟩
  obtain ⟨-, moves, hprefix, rfl⟩ := Path.mem_way_iff.1 hother
  rw [hmoves] at hprefix
  exact follow_directory_iff.1 ⟨_, hname, hlast⟩ moves hprefix

/-- Where no file is in the way, a directory can be made or is there, or something is missing. -/
theorem ensureDirectory_of_clear (hnul : '\x00' ∉ p.text) (hne : p.text ≠ [])
    (hstart : fs.tree.entryAt? (fs.start p) = some .directory)
    (h : ∀ place ∈ p.way fs.here, ∀ content, fs.tree.entryAt? place ≠ some (.file content)) :
    fs.makeDirectory p = .error .notFound ∨ (fs.ensureDirectory p).error? = none := by
  have hthere : fs.isDirectory p = true → (fs.ensureDirectory p).error? = none := by
    intro hdirectory
    simp only [ensureDirectory, makeDirectory_of_isDirectory hdirectory, hdirectory, if_true]
  rcases segments_cases (Text.splitOn '/' p.text) with hsilent |
    ⟨front, name, rest, hsegments, hname, hrest⟩
  · exact .inr (hthere (isDirectory_of_silent hnul hne hsilent))
  have hmoves : Path.spoken front <+: p.moves := by
    rw [Path.moves, hsegments, Path.spoken_append]
    exact List.prefix_append _ _
  have htarget := target_eq fs hnul hsegments hname hrest
  rcases follow_of_clear hstart fun moves hbefore =>
    h _ (Path.mem_way_iff.2 ⟨hne, moves, hbefore.trans hmoves, rfl⟩) with
    hmissing | ⟨place, hfollow, hplace⟩
  · left
    rw [makeDirectory, htarget, hmissing]
    rfl
  right
  have hfront := isDirectory_of_front hnul hne hsegments hrest hfollow hplace
  rw [Location.walk_spoken_singleton] at hfront
  rw [hfollow] at htarget
  simp only [Except.bind] at htarget
  rw [if_pos hplace] at htarget
  split at htarget
  · next hdots =>
    refine hthere (hfront ?_)
    rcases hdots with rfl | rfl
    · exact hplace
    · exact fs.tree.entryAt?_dropLast (by rw [hplace]; rfl)
  · next hdots =>
    obtain ⟨-, -, -, -, -, -, -, hfile, -, -⟩ := target_new htarget
    rw [hfile.speaks, if_neg hfile.notUp] at hfront
    cases hentry : fs.tree.entryAt? (place ++ [name]) with
    | none => simp [ensureDirectory, makeDirectory_of_target htarget, hentry]
    | some entry =>
        cases entry with
        | directory => exact hthere (hfront hentry)
        | file content =>
            have hway := Path.resolve_mem_way hne fs.here
            rw [resolve_of_target htarget] at hway
            exact absurd hentry (h _ hway content)

/-! ### Making directories -/

/-- A directory can be made, or is there, only if the path starts in a directory. -/
theorem start_of_ensureDirectory (h : (fs.ensureDirectory p).error? = none) :
    fs.tree.entryAt? (fs.start p) = some .directory := by
  rw [ensureDirectory] at h
  cases hmake : fs.makeDirectory p with
  | ok later =>
      obtain ⟨place, name, slash, htarget, -, -⟩ := exists_target_of_makeDirectory hmake
      obtain ⟨front, rest, -, -, -, -, -, -, hfollow, hplace⟩ := target_new htarget
      exact follow_directory_iff.1 ⟨place, hfollow, hplace⟩ [] List.nil_prefix
  | error e =>
      simp only [hmake] at h
      split at h
      · next hthere =>
        obtain ⟨-, hne, hway⟩ := isDirectory_iff.1 hthere
        exact hway _ (Path.mem_way_iff.2 ⟨hne, [], List.nil_prefix, rfl⟩)
      · cases h

/-- Where a chain of directories has been made, its paths start in a directory. -/
theorem start_of_ensureChain {above : List Path} (hchain : (p :: above).Pairwise Path.LeadsOver)
    (h : (fs.ensureChain (p :: above)).error? = none) :
    fs.tree.entryAt? (fs.start p) = some .directory := by
  induction above generalizing p with
  | nil =>
      rcases ensureChain_cons_cases fs p [] with hone | ⟨-, hlast⟩ | ⟨habsurd, -⟩
      · exact start_of_ensureDirectory (hone ▸ h)
      · exact start_of_ensureDirectory (hlast ▸ h)
      · exact absurd rfl habsurd
  | cons q above ih =>
      obtain ⟨hover, hrest⟩ := List.pairwise_cons.1 hchain
      rcases ensureChain_cons_cases fs p (q :: above) with hone | ⟨habove, -⟩ | ⟨hfailed, heq⟩
      · exact start_of_ensureDirectory (hone ▸ h)
      · have hstart := ih hrest habove
        rwa [start, (hover q List.mem_cons_self).start] at hstart
      · exact absurd (heq ▸ h) hfailed

/-- What can be made, or is there, is not missing when more is there. -/
theorem makeDirectory_ne_notFound (hgrows : Grows fs mid)
    (h : (fs.ensureDirectory p).error? = none) : mid.makeDirectory p ≠ .error .notFound := by
  intro habsurd
  rw [ensureDirectory] at h
  cases hmake : fs.makeDirectory p with
  | ok later =>
      obtain ⟨place, name, slash, htarget, -, -⟩ := exists_target_of_makeDirectory hmake
      rw [makeDirectory_of_target (target_of_grows hgrows htarget)] at habsurd
      split at habsurd <;> cases habsurd
  | error e =>
      simp only [hmake] at h
      split at h
      · next hthere =>
        rw [makeDirectory_of_isDirectory (isDirectory_of_grows hgrows hthere)] at habsurd
        cases habsurd
      · cases h

/-- A path that starts in a directory does so as well in files that have been kept. -/
theorem start_of_keeps (hkeeps : Keeps fs mid)
    (hstart : fs.tree.entryAt? (fs.start p) = some .directory) :
    mid.tree.entryAt? (mid.start p) = some .directory := by
  rw [start, hkeeps.here]
  exact hkeeps.directory _ hstart

section Directories

variable (hkeeps : Keeps fs mid) (hlast : Keeps mid last)

include hlast in
/-- Before there are directories all the way, a directory can be made or is there, or something is
missing. -/
theorem ensureDirectory_before (hnul : '\x00' ∉ p.text) (hne : p.text ≠ [])
    (hstart : mid.tree.entryAt? (mid.start p) = some .directory)
    (hway : ∀ place ∈ p.way last.here, last.tree.entryAt? place = some .directory) :
    mid.makeDirectory p = .error .notFound ∨ (mid.ensureDirectory p).error? = none := by
  refine ensureDirectory_of_clear hnul hne hstart fun place hplace content hfile => ?_
  obtain ⟨new, hnew⟩ := hlast.file place content hfile
  rw [← hlast.here] at hplace
  rw [hway place hplace] at hnew
  cases hnew

include hkeeps hlast in
/-- **Making a directory** that succeeds over fewer files succeeds between them and files with
directories all the way. -/
theorem ensureDirectory_between
    (hway : ∀ place ∈ p.way last.here, last.tree.entryAt? place = some .directory)
    (h : (fs.ensureDirectory p).error? = none) : (mid.ensureDirectory p).error? = none := by
  obtain ⟨hnul, hne, -⟩ := isDirectory_iff.1 (isDirectory_of_ensureDirectory h)
  exact (ensureDirectory_before hlast hnul hne
    (start_of_keeps hkeeps (start_of_ensureDirectory h)) hway).resolve_left
    (makeDirectory_ne_notFound hkeeps.toGrows h)

/-- Where a chain of directories has been made, there are directories at all its paths. -/
theorem entryAt?_of_ensureChain {chain : List Path} (hchain : chain.Pairwise Path.LeadsOver)
    (h : (fs.ensureChain chain).error? = none) {q : Path} (hq : q ∈ chain) :
    (fs.ensureChain chain).fs.tree.entryAt? (q.resolve fs.here) = some .directory := by
  cases chain with
  | nil => cases hq
  | cons p above =>
      obtain ⟨-, hne, hway⟩ := isDirectory_iff.1 (isDirectory_of_ensureChain h)
      rw [(change_ensureChain fs (p :: above)).here] at hway
      rcases List.mem_cons.1 hq with rfl | hq
      · exact hway _ (Path.resolve_mem_way hne _)
      · exact hway _ ((List.rel_of_pairwise_cons hchain hq).resolve_mem_way hne _)

/-- Where something is missing on the way, a directory is made behind those above it. -/
theorem ensureChain_of_missing {above : List Path}
    (hmissing : fs.makeDirectory p = .error .notFound)
    (h : (fs.ensureChain above).error? = none) :
    fs.ensureChain (p :: above) = (fs.ensureChain above).fs.ensureDirectory p := by
  rw [ensureChain, hmissing]
  cases habove : fs.ensureChain above with
  | mk later error? =>
      rw [habove] at h
      obtain rfl : error? = none := h
      rfl

/-- Where nothing is missing on the way, those above a directory are left alone. -/
theorem ensureChain_of_not_missing {above : List Path}
    (h : fs.makeDirectory p ≠ .error .notFound) :
    fs.ensureChain (p :: above) = fs.ensureDirectory p := by
  rw [ensureChain]
  split
  · next hmissing => exact absurd hmissing h
  · rfl

include hkeeps hlast in
/-- **A chain of directories in between** can be made. -/
theorem ensureChain_between {chain : List Path} (hchain : chain.Pairwise Path.LeadsOver)
    (hway : ∀ q ∈ chain, ∀ place ∈ q.way last.here,
      last.tree.entryAt? place = some .directory)
    (h : (fs.ensureChain chain).error? = none) : (mid.ensureChain chain).error? = none := by
  induction chain with
  | nil => rfl
  | cons p above ih =>
      obtain ⟨hnul, hne, -⟩ := isDirectory_iff.1 (isDirectory_of_ensureChain h)
      obtain ⟨hp, hothers⟩ := List.forall_mem_cons.1 hway
      have hover := (List.pairwise_cons.1 hchain).2
      have hbefore := ensureDirectory_before hlast hnul hne
        (start_of_keeps hkeeps (start_of_ensureChain hchain h)) hp
      by_cases hmissing : mid.makeDirectory p = .error .notFound
      swap
      · rw [ensureChain_of_not_missing hmissing]
        exact hbefore.resolve_left hmissing
      -- It is missing from less, too, so that the directories above it have been made there.
      rcases ensureChain_cons_cases fs p above with hone | ⟨habove, hbehind⟩ | ⟨hfailed, heq⟩
      · rw [hone] at h
        exact absurd hmissing (makeDirectory_ne_notFound hkeeps.toGrows h)
      · have hbetween := ih hover hothers habove
        rw [ensureChain_of_missing hmissing hbetween]
        rw [hbehind] at h
        have hless := change_ensureChain fs above
        have hmore := change_ensureChain mid above
        refine ensureDirectory_between (hless.keeps_change hmore hkeeps ?_)
          (hmore.keeps_last hlast (fun w hw => absurd hw List.not_mem_nil) ?_) hp h
        · rintro place hplace -
          obtain ⟨q, hq, rfl⟩ := List.mem_map.1 hplace
          rw [← hkeeps.here]
          exact entryAt?_of_ensureChain hover hbetween hq
        · intro place hplace
          obtain ⟨q, hq, rfl⟩ := List.mem_map.1 hplace
          rw [← hlast.here]
          exact hp _ ((List.rel_of_pairwise_cons hchain hq).resolve_mem_way hne _)
      · rw [heq] at h
        exact absurd h hfailed

include hkeeps hlast in
/-- **Directories in between**: what can be made sure of can be made sure of where it ends up as a
directory. -/
theorem ensureDirectories_between (hthere : p.text ≠ [] → last.isDirectory p = true)
    (h : (fs.ensureDirectories p).error? = none) : (mid.ensureDirectories p).error? = none := by
  refine ensureChain_between hkeeps hlast (Path.pairwise_ancestors p)
    (fun q hq place hplace => ?_) h
  obtain ⟨hne, hmoves, hstart⟩ := Path.moves_of_mem_upFrom hq
  exact (isDirectory_iff.1 (hthere hne)).2.2 place
    (Path.LeadsOver.way ⟨hmoves, hstart⟩ hne hplace)

end Directories

end FileSystem

end Guidebook
