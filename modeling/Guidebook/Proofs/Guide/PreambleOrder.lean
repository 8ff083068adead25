import Guidebook.Proofs.Guide.CodeRouting
import Mathlib.Tactic.Choose

/-!
# The Order of the Preamble

The items of the preamble can stand in any order. What a guide says is told by its imports in their
order, its blocks in their order, and, for each name, the last of the directives that have it; so of
two orders of the same items it is enough that they have the same imports in the same order and the
same directives of each name in the same order. Package lines, blanks and comments can stand
anywhere.

## Main results

* `Guide.get?_directives_addAll`: the last directive of a name counts.
* `Guide.addAll_congr`: what a guide is told by.
* `Guide.publish_reordered`: **the order of a preamble is free**.
-/

namespace Guidebook.Guide

/-! ### What a guide is told by -/

/-- The value that an addition gives to a name. -/
def Addition.value? (name : Text) : Addition → Option Text
  | .directive other value => if other = name then some value else none
  | _ => none

/-- **The last directive of a name counts.** -/
theorem get?_directives_addAll (guide : Guide) (additions : List Addition) (name : Text) :
    (guide.addAll additions).directives.get? name =
      (additions.filterMap (Addition.value? name)).getLast?.or (guide.directives.get? name) := by
  induction additions generalizing guide with
  | nil => rfl
  | cons addition additions ih =>
      rw [addAll_cons, ih, List.filterMap_cons]
      cases addition with
      | directive other value =>
          rw [add, addDirective, Table.get?_insert, Addition.value?]
          split
          · rw [List.getLast?_cons]
            cases (additions.filterMap (Addition.value? name)).getLast? <;> rfl
          · rfl
      | nothing | importLine _ | block _ => rfl

/-- **What a guide is told by**: the imports, the blocks, and the directives of each name. -/
theorem addAll_congr {first second : List Addition}
    (himports : first.filterMap Addition.importLine? = second.filterMap Addition.importLine?)
    (hblocks : first.filterMap Addition.block? = second.filterMap Addition.block?)
    (hvalues : ∀ name,
      first.filterMap (Addition.value? name) = second.filterMap (Addition.value? name))
    (guide : Guide) : guide.addAll first = guide.addAll second := by
  have hdirectives : (guide.addAll first).directives = (guide.addAll second).directives :=
    Table.ext_get? fun name => by
      rw [get?_directives_addAll, get?_directives_addAll, hvalues]
  have himport : (guide.addAll first).imports = (guide.addAll second).imports := by
    rw [imports_addAll, imports_addAll, himports]
  have hblock : (guide.addAll first).blocks = (guide.addAll second).blocks := by
    rw [blocks_addAll, blocks_addAll, hblocks]
  have hext : ∀ {g k : Guide}, g.directives = k.directives → g.imports = k.imports →
      g.blocks = k.blocks → g = k := by
    rintro ⟨_, _, _⟩ ⟨_, _, _⟩ rfl rfl rfl
    rfl
  exact hext hdirectives himport hblock

/-! ### Items in another order -/

/-- Whether an item of the preamble is an import. -/
def isImport : List Text → Bool
  | [line] => "import ".toList.isPrefixOf (Text.trim line)
  | _ => false

/-- The name of the directive that an item of the preamble is. -/
def directiveName? : List Text → Option Text
  | [line] =>
    if "@file:".toList.isPrefixOf (Text.trim line) then
      (Directive.parse (Text.trim line)).toOption.map (·.name)
    else none
  | _ => none

/-- The same items in another order, in which neither the imports nor the directives of any name
have changed places with one another. -/
structure IsReordering (items moved : List (List Text)) : Prop where
  perm : items.Perm moved
  imports : items.filter isImport = moved.filter isImport
  directives : ∀ name, items.filter (fun item => directiveName? item = some name) =
    moved.filter fun item => directiveName? item = some name

/-- Whether items are the same in another order can be told from the names of their directives. -/
theorem isReordering_iff {items moved : List (List Text)} :
    IsReordering items moved ↔ items.Perm moved ∧ items.filter isImport = moved.filter isImport ∧
      ∀ name ∈ items.filterMap directiveName?,
        items.filter (fun item => directiveName? item = some name) =
          moved.filter fun item => directiveName? item = some name := by
  refine ⟨fun h => ⟨h.perm, h.imports, fun name _ => h.directives name⟩, ?_⟩
  rintro ⟨hperm, himports, hdirectives⟩
  refine ⟨hperm, himports, fun name => ?_⟩
  by_cases hname : name ∈ items.filterMap directiveName?
  · exact hdirectives name hname
  · have hnone : ∀ {k : List (List Text)}, k ⊆ items →
        k.filter (fun item => directiveName? item = some name) = [] := by
      intro k hk
      rw [List.filter_eq_nil_iff]
      intro item hitem hdirects
      exact hname (List.mem_filterMap.2 ⟨item, hk hitem, of_decide_eq_true hdirects⟩)
    rw [hnone (List.Subset.refl items), hnone hperm.symm.subset]

instance (items moved : List (List Text)) : Decidable (IsReordering items moved) :=
  decidable_of_iff _ isReordering_iff.symm

section Items

variable {part next : Part} {item : List Text} {addition : Addition}

/-- An item that adds an import is an import. -/
theorem Item.isImport_of_isSome (h : Item part item addition next)
    (hsome : addition.importLine?.isSome = true) : isImport item = true := by
  cases h with
  | importLine h _ => exact List.isPrefixOf_iff_prefix.2 h
  | _ => cases hsome

/-- An item that gives the directive of a name a value is a directive with that name. -/
theorem Item.directiveName?_of_isSome (h : Item part item addition next) {name : Text}
    (hsome : (addition.value? name).isSome = true) : directiveName? item = some name := by
  cases h with
  | @directive line d hfile hparse =>
      have hname : d.name = name := by
        by_contra hne
        rw [Addition.value?, if_neg hne] at hsome
        cases hsome
      rw [directiveName?, if_pos (List.isPrefixOf_iff_prefix.2 hfile), hparse, ← hname]
      rfl
  | _ => cases hsome

/-- What the members with a property give is told by these members. -/
theorem filterMap_eq_of_filter_eq {α β : Type} {p : α → Bool} {f : α → Option β} {l m : List α}
    (hl : ∀ a ∈ l, (f a).isSome → p a) (hm : ∀ a ∈ m, (f a).isSome → p a)
    (h : l.filter p = m.filter p) : l.filterMap f = m.filterMap f := by
  have hfilter : ∀ {k : List α}, (∀ a ∈ k, (f a).isSome → p a) →
      (k.filter p).filterMap f = k.filterMap f := by
    intro k hk
    rw [List.filterMap_filter]
    refine List.filterMap_congr fun a ha => ?_
    split
    · rfl
    · next hp => exact (Option.not_isSome_iff_eq_none.1 fun hsome => hp (hk a ha hsome)).symm
  rw [← hfilter hl, ← hfilter hm, h]

/-- Items of one part make a stretch of it that adds what each of them adds. -/
theorem Items.of_map {items : List (List Text)} {adds : List Text → Addition}
    (h : ∀ item ∈ items, Item part item (adds item) part) :
    Items part items.flatten (items.map adds) part := by
  induction items with
  | nil => exact .nil part
  | cons item items ih =>
      obtain ⟨hitem, hitems⟩ := List.forall_mem_cons.1 h
      exact .cons hitem (ih hitems)

/-- **Items in another order** lead the reader to the same. -/
theorem run_reordered {items moved : List (List Text)}
    (hitems : ∀ item ∈ items, IsPreambleItem item) (h : IsReordering items moved) (n : Nat)
    (guide : Guide) :
    Reader.run ⟨n, .preamble, .item, guide⟩ moved.flatten =
      Reader.run ⟨n, .preamble, .item, guide⟩ items.flatten := by
  have hadds : ∀ item, ∃ addition,
      IsPreambleItem item → Item .preamble item addition .preamble := by
    intro item
    by_cases hitem : IsPreambleItem item
    · exact hitem.imp fun _ h _ => h
    · exact ⟨.nothing, fun h => absurd h hitem⟩
  choose adds hadds using hadds
  have hhere : ∀ item ∈ items, Item .preamble item (adds item) .preamble := fun item hmem =>
    hadds item (hitems item hmem)
  have hthere : ∀ item ∈ moved, Item .preamble item (adds item) .preamble := fun item hmem =>
    hhere item (h.perm.mem_iff.2 hmem)
  have hguide : guide.addAll (items.map adds) = guide.addAll (moved.map adds) := by
    refine addAll_congr ?_ ?_ (fun name => ?_) guide
    · rw [List.filterMap_map, List.filterMap_map]
      exact filterMap_eq_of_filter_eq (fun _ hmem => (hhere _ hmem).isImport_of_isSome)
        (fun _ hmem => (hthere _ hmem).isImport_of_isSome) h.imports
    · rw [(Items.of_map hhere).blocks_of_preamble, (Items.of_map hthere).blocks_of_preamble]
    · rw [List.filterMap_map, List.filterMap_map]
      exact filterMap_eq_of_filter_eq
        (fun _ hmem hsome => decide_eq_true ((hhere _ hmem).directiveName?_of_isSome hsome))
        (fun _ hmem hsome => decide_eq_true ((hthere _ hmem).directiveName?_of_isSome hsome))
        (h.directives name)
  rw [Reader.run_items (Items.of_map hhere), Reader.run_items (Items.of_map hthere), hguide,
    h.perm.flatten.length_eq]

end Items

/-! ### Sources -/

/-- **The order of a preamble is free.** Take a source whose first lines can be cut into items of
the preamble, directives, imports, packages, blank lines and comments, and another source with the
same items in another order, in which neither the imports nor the directives of any name have
changed places with one another. It is published as the first is, or rejected as the first is. -/
theorem publish_reordered {content reordered : Text} {items moved : List (List Text)}
    {rest : List Text} (hcontent : sourceLines content = items.flatten ++ rest)
    (hreordered : sourceLines reordered = moved.flatten ++ rest)
    (hitems : ∀ item ∈ items, IsPreambleItem item) (h : IsReordering items moved) (package : Text)
    (link : Option PublicLink) :
    publish reordered package link = publish content package link := by
  have hrun : Reader.start.run (moved.flatten ++ rest) =
      Reader.start.run (items.flatten ++ rest) := by
    rw [Reader.run_append, Reader.run_append, Reader.start, run_reordered hitems h]
  rw [publish, publish, read, read, hcontent, hreordered, ofLines, ofLines, hrun]

/-- The items of a preamble that names a title twice, with an import in a comment. -/
def preambleInOrder : List (List Text) :=
  [["@file:Title(\"One\")".toList], ["import b.c".toList],
    ["/* from here".toList, "import c.d */".toList], ["@file:Title(\"Two\")".toList],
    ["@file:URL(\"p\")".toList], ["import a.b".toList], ["package docs".toList], [[]]]

/-- The items in another order. -/
def preambleMoved : List (List Text) :=
  [["package docs".toList], ["import b.c".toList], ["@file:URL(\"p\")".toList], [[]],
    ["@file:Title(\"One\")".toList], ["import a.b".toList], ["@file:Title(\"Two\")".toList],
    ["/* from here".toList, "import c.d */".toList]]

/-- The items are items of a preamble. -/
theorem isPreambleItem_of_mem_preambleInOrder : ∀ item ∈ preambleInOrder, IsPreambleItem item := by
  have hone : Item .preamble ["@file:Title(\"One\")".toList] _ .preamble :=
    .directive (d := ⟨"Title".toList, "One".toList⟩) (by decide +kernel) (by decide +kernel)
  have htwo : Item .preamble ["@file:Title(\"Two\")".toList] _ .preamble :=
    .directive (d := ⟨"Title".toList, "Two".toList⟩) (by decide +kernel) (by decide +kernel)
  have hplace : Item .preamble ["@file:URL(\"p\")".toList] _ .preamble :=
    .directive (d := ⟨"URL".toList, "p".toList⟩) (by decide +kernel) (by decide +kernel)
  have hcomment : IsSkip ("/* from here".toList :: [] ++ ["import c.d */".toList]) :=
    .longComment (show _ = "/*".toList ++ " from here".toList by decide +kernel) (by decide +kernel)
      (List.forall_mem_nil _) (by decide +kernel)
  simp only [preambleInOrder, List.forall_mem_cons]
  exact ⟨⟨_, hone⟩, ⟨_, .importLine (by decide +kernel) (by decide +kernel)⟩, ⟨_, .skip hcomment⟩,
    ⟨_, htwo⟩, ⟨_, hplace⟩, ⟨_, .importLine (by decide +kernel) (by decide +kernel)⟩,
    ⟨_, .package (by decide +kernel)⟩, ⟨_, .skip (.blank (by decide +kernel))⟩,
    List.forall_mem_nil _⟩

/-- The lines behind the preamble. -/
def bodyWithCode : List Text :=
  ["fun main() \x7b".toList, "@Code f()".toList, ['\x7d']]

/-- A guide with the preamble in either order. -/
theorem publish_reordered_preamble :
    IsReordering preambleInOrder preambleMoved ∧
      (publish (Text.unlines (preambleInOrder.flatten ++ bodyWithCode)) "p".toList none).map
          (fun p => (p.directives.get? "Title".toList, p.runnable)) =
        .ok (some "Two".toList,
          ["package p\n\nimport b.c\nimport a.b\n\nfun main() \x7b\n    f()\n\x7d\n".toList]) ∧
      publish (Text.unlines (preambleMoved.flatten ++ bodyWithCode)) "p".toList none =
        publish (Text.unlines (preambleInOrder.flatten ++ bodyWithCode)) "p".toList none := by
  have horder : IsReordering preambleInOrder preambleMoved := by decide +kernel
  have hcontent : sourceLines (Text.unlines (preambleInOrder.flatten ++ bodyWithCode)) =
      preambleInOrder.flatten ++ bodyWithCode := by
    decide +kernel
  have hmoved : sourceLines (Text.unlines (preambleMoved.flatten ++ bodyWithCode)) =
      preambleMoved.flatten ++ bodyWithCode := by
    decide +kernel
  refine ⟨horder, by decide +kernel, ?_⟩
  exact publish_reordered hcontent hmoved isPreambleItem_of_mem_preambleInOrder horder "p".toList
    none

end Guidebook.Guide
