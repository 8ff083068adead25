import Guidebook.FileTree.Basic
import Guidebook.Proofs.Path.Components
import Mathlib.Data.List.Infix

/-!
# Where Paths Lead

What a path means to somebody who stands in a directory: the location it leads to once `.` and `..`
are resolved, and the locations that are passed on the way. Both are read off the path alone; what
lies at those locations is for the file tree to say.

The directories of which a path consists, from the path itself upwards, lead to locations on its
way: the way up leaves out the last move.

## Main results

* `Path.moves_parent?`, `Path.components_parent?`: what the path one level up says.
* `Path.resolve_mem_way`: a path ends on its own way.
* `Path.resolve_mem_way_of_mem_ancestors`: **the ancestors of a path** lead to locations on its way.
-/

namespace Guidebook

namespace Location

/-- The location that a component leads to. -/
def move (place : Location) : Component → Location
  | .root => []
  | .here => place
  | .up => place.dropLast
  | .name n => place ++ [n]

/-- The location that components lead to, one after the other. -/
def walk (place : Location) (moves : List Component) : Location :=
  moves.foldl move place

/-- Without moves, one stays at the place. -/
@[simp] theorem walk_nil (place : Location) : walk place [] = place := rfl

/-- A walk goes by the first moves and then by the others. -/
theorem walk_append (place : Location) (first second : List Component) :
    walk place (first ++ second) = walk (walk place first) second :=
  List.foldl_append

end Location

namespace Path

/-- What the path says behind its anchor. -/
def moves (p : Path) : List Component :=
  spoken (Text.splitOn '/' p.text)

/-- The location at which the path starts, for somebody who stands in `here`. -/
def origin (p : Path) (here : Location) : Location :=
  if p.isAbsolute then [] else here

/-- The location that the path leads to, `.` and `..` resolved. -/
def resolve (p : Path) (here : Location) : Location :=
  Location.walk (p.origin here) p.moves

/-- The locations on the way, from the first to the last. An empty path leads nowhere. -/
def way (p : Path) (here : Location) : List Location :=
  if p.text = [] then [] else p.moves.inits.map (Location.walk (p.origin here))

/-- **The way of a path** passes the places to which its first moves lead. -/
theorem mem_way_iff {p : Path} {here place : Location} :
    place ∈ p.way here ↔
      p.text ≠ [] ∧ ∃ front, front <+: p.moves ∧ Location.walk (p.origin here) front = place := by
  rw [way]
  split
  · next hempty => simp [hempty]
  · next hne => simp [hne]

/-- A path ends on its own way. -/
theorem resolve_mem_way {p : Path} (h : p.text ≠ []) (here : Location) :
    p.resolve here ∈ p.way here :=
  mem_way_iff.2 ⟨h, p.moves, List.prefix_rfl, rfl⟩

/-! ### Paths that end with a name -/

/-- A path that ends with a name says the name last. -/
theorem getLast?_moves {p : Path} {name : Text} (h : p.fileName? = some name) :
    p.moves.getLast? = some (.name name) := by
  have hlast := getLast?_components h
  rw [components_eq, ← moves, List.getLast?_append] at hlast
  cases hmoves : p.moves.getLast? with
  | some component => simpa [hmoves] using hlast
  | none =>
      -- An anchor is no name.
      rw [hmoves] at hlast
      cases hanchor : p.split.1 <;> simp [hanchor, Anchor.components] at hlast

/-- A path that ends with a name leads to what has this name, wherever it starts. -/
theorem getLast?_walk_moves {p : Path} {name : Text} (h : p.fileName? = some name)
    (start : Location) : (Location.walk start p.moves).getLast? = some name := by
  obtain ⟨front, hmoves⟩ := List.getLast?_eq_some_iff.1 (getLast?_moves h)
  rw [hmoves, Location.walk_append]
  exact List.getLast?_concat

/-! ### The way up -/

/-- The moves of a path are what its segments say. -/
theorem moves_eq (p : Path) : p.moves = spoken p.split.2 :=
  (List.append_cancel_left (components_eq p)).symm

/-- What is put together from an anchor and segments says the segments. -/
theorem moves_build {anchor : Anchor} {segments : List Text} (h : Follows anchor segments) :
    (build anchor segments).moves = spoken segments := by
  have hcomponents := components_build h
  rw [components_eq, anchor_build h] at hcomponents
  exact List.append_cancel_left hcomponents

/-- Without the last segment that speaks, the last component is missing. -/
theorem spoken_dropLast_dropSilentEnd {segments : List Text} (h : dropSilentEnd segments ≠ []) :
    spoken (dropSilentEnd segments).dropLast = (spoken segments).dropLast := by
  have hspeaks : ¬ isSilent ((dropSilentEnd segments).getLast h) = true :=
    List.rdropWhile_last_not isSilent segments h
  obtain ⟨component, hlast⟩ := Option.ne_none_iff_exists'.1
    (component?_eq_none_iff.not.2 hspeaks)
  have hconcat := List.dropLast_append_getLast h
  have hspoken : spoken segments =
      spoken (dropSilentEnd segments).dropLast ++ [component] := by
    rw [← spoken_dropSilentEnd, ← hconcat, spoken_append, List.dropLast_concat]
    simp [spoken, hlast]
  rw [hspoken, List.dropLast_concat]

/-- One level up from where we are is the empty path; from any other path, the way up leaves out the
last move behind the same anchor. -/
theorem parent?_cases {p q : Path} (h : p.parent? = some q) :
    (p.split.1 = .here ∧ p.moves = [] ∧ q = ⟨[]⟩) ∨
      (q.split.1 = p.split.1 ∧ p.moves ≠ [] ∧ q.moves = p.moves.dropLast) := by
  have hfollows := follows_split p
  rw [moves_eq p]
  unfold parent? at h
  generalize p.split = split at h hfollows
  obtain ⟨anchor, segments⟩ := split
  simp only at h hfollows ⊢
  split at h
  · next hsilent =>
    have hnone : spoken segments = [] := by rw [← spoken_dropSilentEnd, hsilent]; rfl
    exact .inl ⟨rfl, hnone, (Option.some.inj h).symm⟩
  · simp at h
  · next hspeaks _ =>
    obtain rfl := Option.some.inj h
    have hfront := (hfollows.of_front (List.dropLast_prefix _)).dropSilentEnd
    have hlast : ¬ isSilent ((dropSilentEnd segments).getLast hspeaks) = true :=
      List.rdropWhile_last_not isSilent segments hspeaks
    have hsome : spoken segments ≠ [] := by
      rw [← spoken_dropSilentEnd]
      intro hnone
      exact hlast (component?_eq_none_iff.1
        (List.filterMap_eq_nil_iff.1 hnone _ (List.getLast_mem hspeaks)))
    refine .inr ⟨anchor_build hfront, hsome, ?_⟩
    rw [moves_build hfront, spoken_dropSilentEnd, spoken_dropLast_dropSilentEnd hspeaks]

/-- **The way up** leaves out the last move and starts where the path starts. -/
theorem moves_parent? {p q : Path} (h : p.parent? = some q) :
    q.moves = p.moves.dropLast ∧ q.isAbsolute = p.isAbsolute := by
  rw [isAbsolute, isAbsolute]
  rcases parent?_cases h with ⟨hhere, hnone, rfl⟩ | ⟨hanchor, -, hmoves⟩
  · rw [hhere, hnone]
    exact ⟨rfl, rfl⟩
  · rw [hanchor]
    exact ⟨hmoves, rfl⟩

/-- **The way up** leaves out the last component. -/
theorem components_parent? {p q : Path} (h : p.parent? = some q) :
    q.components = p.components.dropLast := by
  rw [components_eq p, ← moves]
  rcases parent?_cases h with ⟨hhere, hnone, rfl⟩ | ⟨hanchor, hsome, hmoves⟩
  · rw [hhere, hnone]
    rfl
  · rw [components_eq q, ← moves, hanchor, hmoves, List.dropLast_append_of_ne_nil hsome]

/-- A path with no way up has no moves. -/
theorem moves_of_parent?_eq_none {p : Path} (h : p.parent? = none) : p.moves = [] := by
  have hsilent : dropSilentEnd p.split.2 = [] := by
    unfold parent? at h
    generalize p.split = split at h
    obtain ⟨anchor, segments⟩ := split
    simp only at h ⊢
    split at h
    · cases h
    · next hsilent _ => exact hsilent
    · cases h
  rw [moves_eq, ← spoken_dropSilentEnd, hsilent]
  rfl

/-- A directory above a path makes its first moves from the same start. -/
theorem moves_of_mem_upFrom {n : Nat} {p q : Path} (h : q ∈ ancestors.upFrom n p) :
    p.text ≠ [] ∧ q.moves <+: p.moves ∧ q.isAbsolute = p.isAbsolute := by
  induction n generalizing p with
  | zero => simp [ancestors.upFrom] at h
  | succ n ih =>
      rw [ancestors.upFrom] at h
      split at h
      · simp at h
      · next hne =>
        refine ⟨hne, ?_⟩
        rcases List.mem_cons.1 h with rfl | habove
        · exact ⟨List.prefix_rfl, rfl⟩
        · cases hparent : p.parent? with
          | none => simp [hparent] at habove
          | some parent =>
              obtain ⟨-, hmoves, habsolute⟩ := ih (by simpa [hparent] using habove)
              obtain ⟨hup, hstart⟩ := moves_parent? hparent
              rw [hup] at hmoves
              exact ⟨hmoves.trans (List.dropLast_prefix _), habsolute.trans hstart⟩

/-- **The ancestors of a path** lead to locations on its way. -/
theorem resolve_mem_way_of_mem_ancestors {p q : Path} (h : q ∈ p.ancestors) (here : Location) :
    q.resolve here ∈ p.way here := by
  obtain ⟨hne, hmoves, habsolute⟩ := moves_of_mem_upFrom h
  refine mem_way_iff.2 ⟨hne, q.moves, hmoves, ?_⟩
  rw [resolve, origin, origin, habsolute]

/-- The first of the ancestors is the path itself. -/
theorem ancestors_eq_cons {p : Path} (h : p.text ≠ []) : ∃ above, p.ancestors = p :: above := by
  have hlength : p.text.length ≠ 0 := by simpa using h
  obtain ⟨n, hn⟩ := Nat.exists_eq_succ_of_ne_zero hlength
  rw [ancestors, hn, ancestors.upFrom, if_neg h]
  exact ⟨_, rfl⟩

end Path

end Guidebook
