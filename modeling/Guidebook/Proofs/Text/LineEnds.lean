import Guidebook.Proofs.Text.Lines
import Mathlib.Data.List.Chain

/-!
# Line Ends

The lines of a text may end with line feeds, with carriage returns, or with the pair of both, each
in its own way. `Text.unifyLineEnds` looks for the pairs first and for the carriage returns that
are left in a second pass; here both passes are shown to be one, from left to right, that never
looks further than at the next character. What it leaves are the lines with a line feed each,
unless two line ends happen to make a pair: a carriage return that ends a line, and a line feed
that ends an empty one.

## Main results

* `Text.unifyLineEnds_eq`: both passes **are one pass**.
* `Text.not_mem_unifyLineEnds`, `Text.unifyLineEnds_unifyLineEnds`: nothing is left to unify.
* `Text.unifyLineEnds_ended`: **lines with any line ends**, unified.
-/

namespace Guidebook.Text

/-! ### One pass -/

/-- The text with each line end turned into a line feed as soon as it is met: a carriage return with
the line feed behind it, and a carriage return alone. -/
def withFeeds : Text → Text
  | [] => []
  | '\r' :: '\n' :: rest => '\n' :: withFeeds rest
  | '\r' :: rest => '\n' :: withFeeds rest
  | c :: rest => c :: withFeeds rest

/-- A character that begins no pair is kept. -/
theorem replacePair_cons {a b c : Char} (new : Char) {rest : Text}
    (h : c = a → rest.head? ≠ some b) :
    replacePair a b new (c :: rest) = c :: replacePair a b new rest := by
  cases rest with
  | nil => rfl
  | cons d rest =>
      rw [replacePair, if_neg]
      rintro ⟨hc, rfl⟩
      exact h hc rfl

/-- A carriage return by itself becomes a line feed. -/
theorem withFeeds_return {rest : Text} (h : rest.head? ≠ some '\n') :
    withFeeds ('\r' :: rest) = '\n' :: withFeeds rest := by
  rw [withFeeds]
  rintro tail rfl
  exact h rfl

/-- A character other than a carriage return is kept. -/
theorem withFeeds_cons {c : Char} (h : c ≠ '\r') (rest : Text) :
    withFeeds (c :: rest) = c :: withFeeds rest := by
  rw [withFeeds]
  · exact fun tail hc _ => h hc
  · exact h

/-- **Both passes are one pass.** -/
theorem unifyLineEnds_eq (t : Text) : unifyLineEnds t = withFeeds t := by
  have hcons : ∀ {c : Char} {rest : Text}, (c = '\r' → rest.head? ≠ some '\n') →
      unifyLineEnds (c :: rest) = (if c = '\r' then '\n' else c) :: unifyLineEnds rest := by
    intro c rest h
    rw [unifyLineEnds, replacePair_cons '\n' h, List.map_cons]
    rfl
  fun_induction withFeeds t with
  | case1 => rfl
  | case2 rest ih => exact congrArg ('\n' :: ·) ih
  | case3 rest hpair ih =>
      rw [hcons, ih, if_pos rfl]
      rintro - hhead
      obtain ⟨tail, rfl⟩ := List.head?_eq_some_iff.1 hhead
      exact hpair tail rfl
  | case4 c rest hpair hc ih => rw [hcons fun heq => absurd heq hc, ih, if_neg hc]

/-! ### What is left -/

/-- No carriage return is left. -/
theorem not_mem_unifyLineEnds (t : Text) : '\r' ∉ unifyLineEnds t := by
  rw [unifyLineEnds, List.mem_map]
  rintro ⟨c, -, hc⟩
  split at hc
  · cases hc
  · next hne => exact hne hc

/-- A text without carriage returns is kept, in front of any other. -/
theorem withFeeds_append {front : Text} (h : '\r' ∉ front) (rest : Text) :
    withFeeds (front ++ rest) = front ++ withFeeds rest := by
  induction front with
  | nil => rfl
  | cons c front ih =>
      rw [List.mem_cons, not_or] at h
      rw [List.cons_append, withFeeds_cons (Ne.symm h.1), ih h.2]
      rfl

/-- **There is nothing left to unify.** -/
theorem unifyLineEnds_unifyLineEnds (t : Text) :
    unifyLineEnds (unifyLineEnds t) = unifyLineEnds t := by
  have hkept := withFeeds_append (not_mem_unifyLineEnds t) []
  rw [List.append_nil] at hkept
  rw [unifyLineEnds_eq (unifyLineEnds t), hkept]
  exact List.append_nil _

/-! ### Lines with line ends -/

/-- What can end a line. -/
inductive LineEnd where
  | feed
  | carriageReturn
  /-- A carriage return and a line feed. -/
  | pair
  deriving DecidableEq, Repr

/-- The characters of a line end. -/
def LineEnd.text : LineEnd → Text
  | .feed => ['\n']
  | .carriageReturn => ['\r']
  | .pair => ['\r', '\n']

/-- The lines one below the other, each with its own line end. -/
def ended (block : List (Text × LineEnd)) : Text :=
  block.flatMap fun line => line.1 ++ line.2.text

/-- The end of a line and the beginning of the next do not make a pair by themselves. -/
def KeptApart (line next : Text × LineEnd) : Prop :=
  line.2 = .carriageReturn → next ≠ ([], .feed)

instance (line next : Text × LineEnd) : Decidable (KeptApart line next) :=
  inferInstanceAs (Decidable (_ → _))

/-- A line end is a line feed, unless a line feed behind it makes it a part of a pair. -/
theorem withFeeds_text_append {lineEnd : LineEnd} {rest : Text}
    (h : lineEnd = .carriageReturn → rest.head? ≠ some '\n') :
    withFeeds (lineEnd.text ++ rest) = '\n' :: withFeeds rest := by
  cases lineEnd with
  | feed => exact withFeeds_cons (by decide) rest
  | carriageReturn => exact withFeeds_return (h rfl)
  | pair => rfl

variable {block : List (Text × LineEnd)}

/-- Lines begin with a line feed only if the first of them is empty and ends with it. -/
theorem head?_ended {line : Text × LineEnd} (hline : '\n' ∉ line.1) (hne : line ≠ ([], .feed)) :
    (ended (line :: block)).head? ≠ some '\n' := by
  obtain ⟨text, lineEnd⟩ := line
  intro h
  cases text with
  | nil =>
      cases lineEnd with
      | feed => exact hne rfl
      | carriageReturn | pair => cases h
  | cons c text => exact hline (Option.some.inj h ▸ List.mem_cons_self)

/-- **Lines with any line ends.** Unifying their ends leaves the lines with a line feed each, if no
two line ends make a pair between lines. -/
theorem unifyLineEnds_ended (hlines : ∀ line ∈ block, '\n' ∉ line.1 ∧ '\r' ∉ line.1)
    (hapart : block.IsChain KeptApart) :
    unifyLineEnds (ended block) = unlines (block.map Prod.fst) := by
  rw [unifyLineEnds_eq]
  induction block with
  | nil => rfl
  | cons line block ih =>
      obtain ⟨⟨-, hreturn⟩, hblock⟩ := List.forall_mem_cons.1 hlines
      obtain ⟨hnext, hrest⟩ := List.isChain_cons.1 hapart
      have hhead : line.2 = .carriageReturn → (ended block).head? ≠ some '\n' := by
        intro hend
        cases block with
        | nil => exact nofun
        | cons next block =>
            exact head?_ended (hblock next List.mem_cons_self).1 (hnext next rfl hend)
      rw [List.map_cons, unlines_cons, ← ih hblock hrest, ended, List.flatMap_cons,
        List.append_assoc, withFeeds_append hreturn, ← ended, withFeeds_text_append hhead]

end Guidebook.Text
