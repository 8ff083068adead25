import Guidebook.Proofs.Path.Resolution
import Mathlib.Data.Fintype.EquivFin

/-!
# Going Down

A path that is read from within a directory goes on from where the directory leads. A name leads one
level down, and `..` one level up; so names alone lead to a place beneath the directory, and any
path does that has, on its way, never more `..` than names. No other path does, whatever the
directory is.

## Main results

* `Path.resolve_join`: where a path leads from within a directory.
* `Path.components_join_relativeTo?`: a path **seen from a root**, and read from there again.
* `Path.resolve_descend`, `Path.exists_relativeTo?_descend`: **names lead down**.
* `Path.staysBelow_iff`: **paths that never climb** are those that always lead to a place beneath
  their start.
-/

namespace Guidebook

/-! ### Moves that never climb -/

namespace Location

/-- Whether moves lead never above the place that lies `depth` levels above their start. -/
def staysBelow : Nat → List Component → Bool
  | _, [] => true
  | depth, .name _ :: moves => staysBelow (depth + 1) moves
  | depth + 1, .up :: moves => staysBelow depth moves
  | 0, .up :: _ => false
  | depth, .here :: moves => staysBelow depth moves
  | _, .root :: _ => false

/-- **Moves that never lead above a place** lead to one beneath it. -/
theorem prefix_walk_of_staysBelow {depth : Nat} {moves : List Component}
    (h : staysBelow depth moves = true) (place below : Location)
    (hbelow : below.length = depth) : place <+: walk (place ++ below) moves := by
  induction moves generalizing depth below with
  | nil => exact List.prefix_append _ _
  | cons component moves ih =>
      cases component with
      | root => simp [staysBelow] at h
      | here => exact ih (by simpa [staysBelow] using h) below hbelow
      | name n =>
          have hmore := ih (by simpa [staysBelow] using h) (below ++ [n])
            (by rw [List.length_append, hbelow]; rfl)
          rwa [← List.append_assoc] at hmore
      | up =>
          cases depth with
          | zero => simp [staysBelow] at h
          | succ depth =>
              have hne : below ≠ [] := List.ne_nil_of_length_eq_add_one hbelow
              have hless := ih (by simpa [staysBelow] using h) below.dropLast
                (by rw [List.length_dropLast, hbelow]; rfl)
              rwa [← List.dropLast_append_of_ne_nil hne] at hless

/-- Moves lead to no name that is not among theirs. -/
theorem not_mem_walk {name : Text} {moves : List Component} (hmoves : .name name ∉ moves)
    {place : Location} (hplace : name ∉ place) : name ∉ walk place moves := by
  induction moves generalizing place with
  | nil => exact hplace
  | cons component moves ih =>
      obtain ⟨hfirst, hrest⟩ := not_or.1 (List.mem_cons.not.1 hmoves)
      refine ih hrest ?_
      cases component with
      | root => exact List.not_mem_nil
      | here => exact hplace
      | up => exact fun hmem => hplace (List.dropLast_subset _ hmem)
      | name n =>
          simp only [move, List.mem_append, List.mem_singleton, not_or]
          exact ⟨hplace, fun heq => hfirst (by rw [heq])⟩

/-- Moves that climb lead away from a name that is not among theirs. -/
theorem not_mem_walk_of_climbs {name : Text} {depth : Nat} {moves : List Component}
    (h : staysBelow depth moves = false) (hmoves : .name name ∉ moves) (below : Location)
    (hname : name ∉ below) (hbelow : below.length = depth) :
    name ∉ walk (name :: below) moves := by
  induction moves generalizing depth below with
  | nil => simp [staysBelow] at h
  | cons component moves ih =>
      obtain ⟨hfirst, hrest⟩ := not_or.1 (List.mem_cons.not.1 hmoves)
      cases component with
      | root => exact not_mem_walk hrest List.not_mem_nil
      | here => exact ih (by simpa [staysBelow] using h) hrest below hname hbelow
      | name n =>
          refine ih (by simpa [staysBelow] using h) hrest (below ++ [n]) ?_
            (by rw [List.length_append, hbelow]; rfl)
          simp only [List.mem_append, List.mem_singleton, not_or]
          exact ⟨hname, fun heq => hfirst (by rw [heq])⟩
      | up =>
          cases depth with
          | zero =>
              obtain rfl := List.length_eq_zero_iff.1 hbelow
              exact not_mem_walk hrest List.not_mem_nil
          | succ depth =>
              have hne : below ≠ [] := List.ne_nil_of_length_eq_add_one hbelow
              have hless := ih (by simpa [staysBelow] using h) hrest below.dropLast
                (fun hmem => hname (List.dropLast_subset _ hmem))
                (by rw [List.length_dropLast, hbelow]; rfl)
              rwa [← List.dropLast_cons_of_ne_nil hne] at hless

/-- Names lead to the place at these names. -/
theorem walk_names (place : Location) (names : List Text) :
    walk place (names.map .name) = place ++ names := by
  induction names generalizing place with
  | nil => exact (List.append_nil place).symm
  | cons name names ih => exact (ih (place ++ [name])).trans (by simp)

/-- Names alone never climb. -/
theorem staysBelow_names (depth : Nat) (names : List Text) :
    staysBelow depth (names.map .name) = true := by
  induction names generalizing depth with
  | nil => rfl
  | cons name names ih => exact ih (depth + 1)

end Location

namespace Path

/-! ### Paths within directories -/

/-- A slash at the end of a path makes no move. -/
theorem moves_of_front {p : Path} {t : Text} (h : p = ⟨t⟩ ∧ t ≠ [] ∨ p = ⟨t ++ ['/']⟩) :
    p.moves = spoken (Text.splitOn '/' t) := by
  rcases h with ⟨rfl, -⟩ | rfl
  · rfl
  · rw [moves, Text.splitOn_append, spoken_append]
    exact List.append_nil _

/-- **From within a directory**, a path makes its moves behind those of the directory. -/
theorem moves_join (p : Path) {q : Path} (hq : q.isAbsolute = false) :
    (p.join q).moves = p.moves ++ q.moves := by
  by_cases hp : p.text = []
  · obtain ⟨t⟩ := p
    obtain rfl : t = [] := hp
    rw [join_of_empty rfl]
    rfl
  · obtain ⟨t, hp, hjoin⟩ := join_eq hp
    rw [hjoin q hq, moves_of_front hp, moves, Text.splitOn_append, spoken_append]
    rfl

/-- A path that is read from within a directory goes on from where the directory lies. -/
theorem resolve_join (p : Path) {q : Path} (hq : q.isAbsolute = false) (here : Location) :
    (p.join q).resolve here = Location.walk (p.resolve here) q.moves := by
  rw [resolve, moves_join p hq, Location.walk_append, origin, isAbsolute_join p hq]
  rfl

/-- The name of a file makes one move. -/
theorem moves_file {name : Text} (h : IsFileName name) :
    (⟨name⟩ : Path).moves = [.name name] := by
  rw [moves, h.splitOn, h.spoken]

/-- A file lies in the directory that it is read from. -/
theorem resolve_file (directory : Path) {name : Text} (h : IsFileName name) (here : Location) :
    (directory.join ⟨name⟩).resolve here = directory.resolve here ++ [name] := by
  rw [resolve_join directory h.isAbsolute, moves_file h]
  rfl

/-! ### Seen from a root, and read from there -/

/-- A path that does not say where it starts makes all that it says as its moves. -/
theorem moves_of_not_mem {p : Path} (hroot : .root ∉ p.components) (hhere : .here ∉ p.components) :
    p.moves = p.components ∧ p.isAbsolute = false := by
  have hplain : p.split.1 = .plain := by
    rw [components_eq] at hroot hhere
    cases hcase : p.split.1 with
    | plain => rfl
    | root => simp [hcase, Anchor.components] at hroot
    | here => simp [hcase, Anchor.components] at hhere
  rw [components_eq, isAbsolute, hplain]
  exact ⟨rfl, rfl⟩

/-- Behind any path, a path that does not say where it starts says what it says by itself. -/
theorem components_join_of_not_mem (p : Path) {q : Path} (hroot : .root ∉ q.components)
    (hhere : .here ∉ q.components) : (p.join q).components = p.components ++ q.components := by
  obtain ⟨hmoves, habsolute⟩ := moves_of_not_mem hroot hhere
  by_cases hp : p.text = []
  · obtain ⟨t⟩ := p
    obtain rfl : t = [] := hp
    rw [join_of_empty rfl]
    rfl
  · rw [components_join hp habsolute, ← moves, hmoves]

/-- Only the first component can be an anchor. -/
theorem tail_components_subset (p : Path) : p.components.tail ⊆ p.moves := by
  rw [components_eq]
  cases p.split.1 with
  | root => exact List.Subset.refl _
  | here => exact List.Subset.refl _
  | plain => exact List.tail_subset _

/-- **Read from within a root**, a path that is seen from there says what it says by itself. -/
theorem components_join_relativeTo? {p root relative : Path}
    (h : p.relativeTo? root = some relative) :
    (root.join relative).components = p.components := by
  have hcomponents := components_of_relativeTo? h
  by_cases hroot : root.text = []
  · obtain ⟨t⟩ := root
    obtain rfl : t = [] := hroot
    rw [join_of_empty rfl, hcomponents]
    rfl
  · -- What comes behind the root is no anchor.
    obtain ⟨first, others, hfirst⟩ := List.exists_cons_of_ne_nil (components_ne_nil hroot)
    have hbehind : relative.components ⊆ p.moves := by
      refine List.Subset.trans ?_ (tail_components_subset p)
      rw [hcomponents, hfirst]
      exact List.subset_append_right _ _
    rw [components_join_of_not_mem root (fun hmem => (not_mem_spoken _).1 (hbehind hmem))
      (fun hmem => (not_mem_spoken _).2 (hbehind hmem)), hcomponents]

/-! ### Paths that never climb -/

/-- Whether the path leads, on its way, never above its start. -/
def staysBelow (p : Path) : Bool :=
  Location.staysBelow 0 p.moves

/-- The name that a move leads to. -/
def nameOf? : Component → Option Text
  | .name name => some name
  | _ => none

/-- **Paths that never climb** are those that lead, from any place, to one beneath it. -/
theorem staysBelow_iff {p : Path} :
    p.staysBelow = true ↔ ∀ place, place <+: Location.walk place p.moves := by
  constructor
  · intro h place
    have hbelow := Location.prefix_walk_of_staysBelow h place [] rfl
    rwa [List.append_nil] at hbelow
  · intro h
    by_contra hclimbs
    obtain ⟨name, hname⟩ := Infinite.exists_notMem_finset (p.moves.filterMap nameOf?).toFinset
    have hmoves : Component.name name ∉ p.moves := by
      intro hmem
      exact hname (List.mem_toFinset.2 (List.mem_filterMap.2 ⟨_, hmem, rfl⟩))
    refine Location.not_mem_walk_of_climbs (Bool.eq_false_iff.2 hclimbs) hmoves []
      List.not_mem_nil rfl ?_
    exact (h [name]).subset List.mem_cons_self

/-! ### Names that lead down -/

/-- The path of what lies under names below a root. -/
def descend (root : Path) (names : List Text) : Path :=
  names.foldl (fun directory name => directory.join ⟨name⟩) root

/-- The last name leads to a file in the directory of the others. -/
theorem descend_concat (root : Path) (names : List Text) (name : Text) :
    root.descend (names ++ [name]) = (root.descend names).join ⟨name⟩ := by
  rw [descend, List.foldl_append]
  rfl

/-- The path of a file in a directory is not empty. -/
theorem text_join_ne_nil (directory : Path) {name : Text} (h : IsFileName name) :
    (directory.join ⟨name⟩).text ≠ [] := by
  have hne : name ≠ [] := h.ne_of_isSilent rfl
  rw [join]
  split
  · exact hne
  · split
    · exact List.append_ne_nil_of_right_ne_nil _ hne
    · simp

section Descend

variable {root : Path} {names : List Text} (hnames : ∀ name ∈ names, IsFileName name)

include hnames in
/-- Names add themselves to the components of the root. -/
theorem components_descend (root : Path) :
    (root.descend names).components = root.components ++ names.map .name := by
  induction names using List.reverseRecOn with
  | nil => exact (List.append_nil _).symm
  | append_singleton names name ih =>
      rw [List.forall_mem_append] at hnames
      rw [descend_concat, components_file _ (hnames.2 name (List.mem_singleton.2 rfl)),
        ih hnames.1, List.map_append, List.append_assoc]
      rfl

include hnames in
/-- **Names lead down.** -/
theorem resolve_descend (root : Path) (here : Location) :
    (root.descend names).resolve here = root.resolve here ++ names := by
  induction names using List.reverseRecOn with
  | nil => exact (List.append_nil _).symm
  | append_singleton names name ih =>
      rw [List.forall_mem_append] at hnames
      rw [descend_concat, resolve_file _ (hnames.2 name (List.mem_singleton.2 rfl)), ih hnames.1,
        List.append_assoc]

/-- Different names lead to paths with different components. -/
theorem descend_injective {others : List Text} (hnames : ∀ name ∈ names, IsFileName name)
    (hothers : ∀ name ∈ others, IsFileName name) (h : root.descend names = root.descend others) :
    names = others := by
  have hcomponents := congrArg components h
  rw [components_descend hnames, components_descend hothers] at hcomponents
  exact List.map_injective_iff.2 (fun a b hab => Component.name.inj hab)
    (List.append_cancel_left hcomponents)

/-- The file name of what names lead down to is the last of them. -/
theorem fileName?_descend {name : Text} (hname : IsFileName name) (root : Path)
    (names : List Text) : (root.descend (names ++ [name])).fileName? = some name := by
  rw [descend_concat, fileName?, components_file _ hname, List.getLast?_concat]

/-- A path that says nothing but names starts where we are, and has them as its moves. -/
theorem moves_of_components {p : Path} (h : p.components = names.map .name) :
    p.moves = names.map .name ∧ p.isAbsolute = false := by
  rw [← h]
  exact moves_of_not_mem (by simp [h]) (by simp [h])

include hnames in
/-- **Names that lead down from a root** are what is left of the path, seen from the root. -/
theorem exists_relativeTo?_descend (root : Path) :
    ∃ relative, (root.descend names).relativeTo? root = some relative ∧
      relative.moves = names.map .name ∧ relative.isAbsolute = false := by
  obtain ⟨relative, hrelative, hcomponents⟩ :=
    relativeTo?_of_components (components_descend hnames root)
  exact ⟨relative, hrelative, moves_of_components hcomponents⟩

end Descend

/-! ### Names between slashes -/

section Slashes

variable {names : List Text} (hnames : ∀ name ∈ names, IsFileName name)

include hnames in
/-- Names can follow any anchor. -/
theorem follows_names (anchor : Anchor) : Follows anchor names where
  clean := fun name hname => (hnames name hname).clean
  speaks := fun _ name hname => (hnames name (List.mem_of_mem_head? hname)).speaks

include hnames in
/-- Joined names are segments without an anchor. -/
theorem split_names (hne : names ≠ []) :
    (⟨Text.join ['/'] names⟩ : Path).split = (.plain, names) := by
  rw [split_of_isPlain (isPlain_join (follows_names hnames _)),
    Text.splitOn_join hne fun name hname => (hnames name hname).clean]

include hnames in
/-- Joined names start where we are. -/
theorem isAbsolute_names : (⟨Text.join ['/'] names⟩ : Path).isAbsolute = false :=
  congrArg (fun anchor => decide (anchor = Anchor.root))
    (anchor_build (follows_names hnames .plain))

include hnames in
/-- None of the names is silent. -/
theorem dropSilentEnd_names : dropSilentEnd names = names := by
  refine List.rdropWhile_eq_self_iff.2 fun hne => ?_
  rw [(hnames _ (List.getLast_mem hne)).speaks]
  exact Bool.false_ne_true

include hnames in
/-- **Names that lead down** are those of the path that has slashes between them. -/
theorem descend_eq_join (hne : names ≠ []) (root : Path) :
    root.descend names = root.join ⟨Text.join ['/'] names⟩ := by
  induction names generalizing root with
  | nil => exact absurd rfl hne
  | cons name names ih =>
      obtain ⟨hname, hnames⟩ := List.forall_mem_cons.1 hnames
      cases names with
      | nil => rfl
      | cons next names =>
          have htext : name ≠ [] := hname.ne_of_isSilent rfl
          have hslash : name.getLast? ≠ some '/' := fun hlast =>
            hname.clean (List.mem_of_getLast? hlast)
          have hinner : (⟨name⟩ : Path).join ⟨Text.join ['/'] (next :: names)⟩ =
              ⟨Text.join ['/'] (name :: next :: names)⟩ := by
            rw [join, isAbsolute_names hnames, if_neg Bool.false_ne_true,
              if_neg (not_or.2 ⟨htext, hslash⟩)]
            simp [Text.join]
          rw [← hinner, ← join_assoc root hname.isAbsolute (isAbsolute_names hnames)]
          exact ih hnames (List.cons_ne_nil _ _) (root.join ⟨name⟩)

include hnames in
/-- A file in a directory whose path has slashes between names. -/
theorem join_names_join {name : Text} (hname : IsFileName name) (root : Path) :
    (root.join ⟨Text.join ['/'] names⟩).join ⟨name⟩ = root.descend (names ++ [name]) := by
  rw [descend_concat]
  by_cases hne : names = []
  · subst hne
    rw [show Text.join ['/'] [] = [] from rfl, join_assoc root rfl hname.isAbsolute,
      join_of_empty rfl]
    rfl
  · rw [descend_eq_join hnames hne]

include hnames in
/-- The way up from a path that has slashes between names leaves out the last of them. -/
theorem parent?_names (hne : names ≠ []) :
    (⟨Text.join ['/'] names⟩ : Path).parent? = some ⟨Text.join ['/'] names.dropLast⟩ := by
  have hfront : ∀ name ∈ names.dropLast, IsFileName name := fun name hname =>
    hnames name (List.dropLast_subset _ hname)
  obtain ⟨name, rest, rfl⟩ := List.exists_cons_of_ne_nil hne
  rw [parent?, split_names hnames hne]
  simp only [dropSilentEnd_names hnames, dropSilentEnd_names hfront]
  rfl

include hnames in
/-- The components of joined names are these names. -/
theorem components_names : (⟨Text.join ['/'] names⟩ : Path).components = names.map .name := by
  by_cases hne : names = []
  · rw [hne]
    rfl
  · have hroot := components_descend hnames ⟨[]⟩
    rw [descend_eq_join hnames hne, join_of_empty rfl] at hroot
    exact hroot

include hnames in
/-- The file name of joined names is the last of them. -/
theorem fileName?_names (hne : names ≠ []) :
    (⟨Text.join ['/'] names⟩ : Path).fileName? = names.getLast? := by
  obtain ⟨front, name, rfl⟩ := (List.eq_nil_or_concat' names).resolve_left hne
  rw [fileName?, components_names hnames, List.map_append, List.map_singleton,
    List.getLast?_concat, List.getLast?_concat]

end Slashes

end Path

end Guidebook
