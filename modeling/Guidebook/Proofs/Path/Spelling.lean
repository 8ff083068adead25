import Guidebook.Proofs.Path.Components
import Mathlib.Logic.Relation

/-!
# Spellings of Paths

One path can be written in many ways. A slash may be doubled or stand at the end, and a `.` may
stand between two slashes or behind the last. To leave out such a slash or such a `.` is to shorten
the text; two paths are spellings of each other if they are joined by texts each of which is the one
before it, shortened or lengthened.

What a path says is what its spellings have in common: no shortening changes the components, and
each path is a spelling of the text in which its components are written out.

## Main results

* `Path.Shortens.components_eq`: shortening a path does not change **what it says**.
* `Path.respells_written`: each path is a spelling of its components, written out.
* `Path.respells_iff`: paths are spellings of each other **exactly if they say the same**.
-/

namespace Guidebook.Path

/-- The second text is the first without some of what says nothing in it. -/
inductive Shortens : Text → Text → Prop where
  /-- Of two slashes in a row, one is left out. -/
  | doubled (front rest : Text) : Shortens (front ++ '/' :: '/' :: rest) (front ++ '/' :: rest)
  /-- Of a `.` between two slashes, one of these is left. -/
  | dot (front rest : Text) : Shortens (front ++ '/' :: '.' :: '/' :: rest) (front ++ '/' :: rest)
  /-- A `.` behind the last slash is left out. -/
  | dotAtEnd (front : Text) : Shortens (front ++ ['/', '.']) (front ++ ['/'])
  /-- A slash at the end is left out, unless it is all there is. -/
  | slashAtEnd {front : Text} (h : front ≠ []) : Shortens (front ++ ['/']) front

/-- The paths are spellings of each other. -/
def Respells (p q : Path) : Prop :=
  Relation.EqvGen Shortens p.text q.text

/-! ### What no spelling changes -/

/-- What a path says, part before and part behind a slash. -/
theorem components_slash (front rest : Text) :
    (⟨front ++ '/' :: rest⟩ : Path).components =
      (⟨front ++ ['/']⟩ : Path).components ++ spoken (Text.splitOn '/' rest) := by
  by_cases hfront : front = []
  · rw [hfront]
    rfl
  · rw [components_append hfront, components_append hfront, List.append_assoc]
    rfl

/-- **Shortening** a path does not change what it says. -/
theorem Shortens.components_eq {t s : Text} (h : Shortens t s) :
    (⟨t⟩ : Path).components = (⟨s⟩ : Path).components := by
  cases h with
  | doubled front rest =>
      have hempty : spoken (Text.splitOn '/' ('/' :: rest)) = spoken (Text.splitOn '/' rest) :=
        spoken_cons_of_silent (by decide) _
      rw [components_slash, hempty, ← components_slash]
  | dot front rest =>
      have hdot : spoken (Text.splitOn '/' ('.' :: '/' :: rest)) =
          spoken (Text.splitOn '/' rest) := spoken_cons_of_silent (by decide) _
      rw [components_slash, hdot, ← components_slash]
  | dotAtEnd front =>
      rw [components_slash]
      exact List.append_nil _
  | slashAtEnd hfront =>
      rw [components_append hfront]
      exact List.append_nil _

/-- Spellings of each other say the same. -/
theorem Respells.components_eq {p q : Path} (h : p.Respells q) : p.components = q.components := by
  have hsame : ∀ t s : Text, Relation.EqvGen Shortens t s →
      (⟨t⟩ : Path).components = (⟨s⟩ : Path).components := by
    intro t s h
    induction h with
    | rel t s hstep => exact hstep.components_eq
    | refl t => rfl
    | symm t s _ ih => exact ih.symm
    | trans t s r _ _ first second => exact first.trans second
  exact hsame p.text q.text h

/-! ### Components, written out -/

/-- Segments, each behind a slash. -/
def behindSlashes (segments : List Text) : Text :=
  segments.flatMap ('/' :: ·)

/-- How a component is written. -/
def word : Component → Text
  | .root => ['/']
  | .here => ['.']
  | .up => ['.', '.']
  | .name n => n

/-- Components, with a slash before each but the first. The root is a slash of its own. -/
def written : List Component → Text
  | [] => []
  | component :: components => word component ++ behindSlashes (components.map word)

/-- A component is written as the segment that says it. -/
theorem word_of_component? {segment : Text} {component : Component}
    (h : component? segment = some component) : word component = segment := by
  unfold component? at h
  split at h
  · cases h
  · split at h
    · next hup =>
      cases h
      exact hup.symm
    · cases h
      rfl

/-- The first segment stands before any slash, and the others stand behind slashes. -/
theorem join_eq_append_behindSlashes (segment : Text) (segments : List Text) :
    Text.join ['/'] (segment :: segments) = segment ++ behindSlashes segments := by
  induction segments generalizing segment with
  | nil => simp [Text.join, behindSlashes]
  | cons next segments ih =>
      rw [Text.join, ih]
      simp [behindSlashes]

/-- All segments of a text behind slashes are the text behind a slash. -/
theorem behindSlashes_splitOn (t : Text) : behindSlashes (Text.splitOn '/' t) = '/' :: t := by
  obtain ⟨segment, segments, hcut⟩ := List.exists_cons_of_ne_nil (Text.splitOn_ne_nil '/' t)
  have htext := Text.join_splitOn '/' t
  rw [hcut, join_eq_append_behindSlashes] at htext
  rw [hcut, ← htext]
  rfl

/-! ### Every path is a spelling of its components -/

/-- A silent segment can be left out. -/
theorem shortens_silent {front segment : Text} (hfront : front ≠ [])
    (h : isSilent segment = true) (segments : List Text) :
    Relation.EqvGen Shortens (front ++ behindSlashes (segment :: segments))
      (front ++ behindSlashes segments) := by
  have hsegment : segment = [] ∨ segment = ['.'] := by simpa [isSilent] using h
  -- Whether a slash follows decides which of the steps leads on.
  cases segments with
  | nil =>
      have hslash : Relation.EqvGen Shortens (front ++ ['/']) (front ++ behindSlashes []) := by
        rw [behindSlashes, List.flatMap_nil, List.append_nil]
        exact .rel _ _ (.slashAtEnd hfront)
      rcases hsegment with rfl | rfl
      · exact hslash
      · exact .trans _ _ _ (.rel _ _ (.dotAtEnd front)) hslash
  | cons next segments =>
      rcases hsegment with rfl | rfl
      · exact .rel _ _ (.doubled front _)
      · exact .rel _ _ (.dot front _)

/-- Only the segments that speak have to be written. -/
theorem shortens_behindSlashes {front : Text} (hfront : front ≠ []) (segments : List Text) :
    Relation.EqvGen Shortens (front ++ behindSlashes segments)
      (front ++ behindSlashes ((spoken segments).map word)) := by
  induction segments generalizing front with
  | nil => exact .refl _
  | cons segment segments ih =>
      cases hsegment : component? segment with
      | none =>
          have hsilent := component?_eq_none_iff.1 hsegment
          rw [spoken_cons_of_silent hsilent]
          exact .trans _ _ _ (shortens_silent hfront hsilent segments) (ih hfront)
      | some component =>
          have hspoken : spoken (segment :: segments) = component :: spoken segments := by
            rw [spoken, List.filterMap_cons, hsegment]
            rfl
          have hfront' : front ++ '/' :: segment ≠ [] := by simp
          have hmore := ih hfront'
          rw [hspoken, List.map_cons, word_of_component? hsegment]
          simpa [behindSlashes] using hmore

/-- **Each path is a spelling** of its components, written out. -/
theorem respells_written (p : Path) : p.Respells ⟨written p.components⟩ := by
  obtain ⟨t⟩ := p
  change Relation.EqvGen Shortens t (written (⟨t⟩ : Path).components)
  rcases text_cases t with ⟨rest, rfl⟩ | rfl | ⟨rest, rfl⟩ | hplain
  · -- The root is written as a slash more.
    have hmore := shortens_behindSlashes (List.cons_ne_nil '/' []) (Text.splitOn '/' rest)
    rw [behindSlashes_splitOn] at hmore
    exact .trans _ _ _ (.symm _ _ (.rel _ _ (.doubled [] rest))) hmore
  · exact .refl _
  · have hmore := shortens_behindSlashes (List.cons_ne_nil '.' []) (Text.splitOn '/' rest)
    rwa [behindSlashes_splitOn] at hmore
  · by_cases ht : t = []
    · rw [ht]
      exact .refl _
    · obtain ⟨segment, segments, component, hcut, hcomponent, hsaid⟩ :=
        exists_components_of_isPlain hplain ht
      have htext : t = segment ++ behindSlashes segments := by
        rw [← join_eq_append_behindSlashes, ← hcut, Text.join_splitOn]
      have hsegment : segment ≠ [] := by
        rintro rfl
        cases hcomponent
      rw [hsaid, written, word_of_component? hcomponent]
      conv_lhs => rw [htext]
      exact shortens_behindSlashes hsegment segments

/-- **Paths are spellings of each other** exactly if they say the same. -/
theorem respells_iff {p q : Path} : p.Respells q ↔ p.components = q.components := by
  refine ⟨Respells.components_eq, fun h => ?_⟩
  have hwritten := respells_written p
  rw [h] at hwritten
  exact .trans _ _ _ hwritten (.symm _ _ (respells_written q))

end Guidebook.Path
