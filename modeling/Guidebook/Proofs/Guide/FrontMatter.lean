import Guidebook.FrontMatter
import Guidebook.Guide.Publication
import Guidebook.Proofs.Path.Components
import Guidebook.Proofs.Text.Lines
import Mathlib.Algebra.GroupWithZero.Nat

/-!
# Reading Front Matter Back

The front matter of a page is nine lines: a line `---`, seven lines that say what the page is, and
another line `---`. A reader that goes from line to line finds the body of the page behind the
second of these, and the values of the fields behind their keys.

Values are written as they are. They come from the directives of the guide, which can hold any
character, so a value can hold line feeds. Then the front matter has more lines than it should have,
and what a reader finds is not what was written. As long as no value holds a line feed, everything
is read back, whatever else the values hold: a value `---` stands behind its key.

## Main results

* `FrontMatter.render_eq`: the lines of a front matter.
* `FrontMatter.read?_render`: what has been written on one line each is read back.
* `FrontMatter.count_of_read?`: a page that can be read has nine lines more than its body.
* `FrontMatter.exists_readBack_iff`: **when the front matter of a page can be read back**.
-/

namespace Guidebook

namespace Text

/-- Lines that hold no line feed are found again, and behind them the lines of the rest. -/
theorem splitOn_unlines_append {block : List Text} (h : ∀ line ∈ block, '\n' ∉ line) (rest : Text) :
    splitOn '\n' (unlines block ++ rest) = block ++ splitOn '\n' rest := by
  induction block with
  | nil => rfl
  | cons line block ih =>
      obtain ⟨hline, hblock⟩ := List.forall_mem_cons.1 h
      rw [unlines_cons, List.append_assoc, List.cons_append, splitOn_append,
        splitOn_of_not_mem hline, ih hblock]
      rfl

/-- Every line has a line feed at its end, and those that it holds. -/
theorem count_unlines (block : List Text) :
    (unlines block).count '\n' = block.length + (block.map (·.count '\n')).sum := by
  induction block with
  | nil => rfl
  | cons line block ih =>
      rw [unlines_cons, List.count_append, List.count_cons_self, ih, List.map_cons, List.sum_cons,
        List.length_cons]
      omega

end Text

namespace FrontMatter

/-! ### Lines -/

/-- The line in front of and behind the fields. -/
def fence : Text := "---".toList

/-- What stands on the line of a field. -/
def field (key : Text) : Option Text → Text
  | some value => key ++ ": ".toList ++ value
  | none => key ++ [':']

/-- The line that says how a page has come about. -/
def notice : Text := "# File generated by dokgen. Do not edit.".toList

/-- What stands in front of the source, on the line that names it. -/
def editFront : Text := "# Edit '".toList

/-- What stands behind the source on that line. -/
def editEnd : Text := "' instead.".toList

/-- The line with the layout, which is the same for all pages. -/
def layout : Text := "layout: default".toList

/-- How a truth value is written. -/
def flag (value : Bool) : Text :=
  if value then "true".toList else "false".toList

/-- The lines between the fences. -/
def inner (header : FrontMatter) : List Text :=
  [notice, editFront ++ header.source ++ editEnd, layout, field "title".toList header.title,
    field "parent".toList header.parent, field "nav_order".toList header.navOrder,
    field "has_children".toList (some (flag header.hasChildren))]

/-- The line of a field ends with a line feed. -/
theorem fieldLine_eq (key : Text) (value : Option Text) :
    fieldLine key value = field key value ++ ['\n'] := by
  cases value with
  | none =>
      have hcolon : ":\n".toList = [':'] ++ ['\n'] := by decide
      rw [fieldLine, hcolon, field, List.append_assoc]
  | some value => rfl

/-- **The lines of a front matter.** -/
theorem render_eq (header : FrontMatter) :
    header.render = Text.unlines (fence :: (header.inner ++ [fence])) := by
  have hfront : "---\n# File generated by dokgen. Do not edit.\n# Edit '".toList =
      fence ++ ['\n'] ++ (notice ++ ['\n']) ++ editFront := by
    decide +kernel
  have hlayout : "' instead.\nlayout: default\n".toList =
      editEnd ++ ['\n'] ++ (layout ++ ['\n']) := by
    decide +kernel
  have hend : (if header.hasChildren then "has_children: true\n---\n".toList
      else "has_children: false\n---\n".toList) =
        field "has_children".toList (some (flag header.hasChildren)) ++ ['\n'] ++
          (fence ++ ['\n']) := by
    cases header.hasChildren <;> decide +kernel
  -- The pieces are taken as they are: what is put together does not depend on what they say.
  have hparts : ∀ {front middle title parent order last a b c d : Text},
      front = fence ++ ['\n'] ++ (notice ++ ['\n']) ++ editFront →
      middle = editEnd ++ ['\n'] ++ (layout ++ ['\n']) →
      title = a ++ ['\n'] → parent = b ++ ['\n'] → order = c ++ ['\n'] →
      last = d ++ ['\n'] ++ (fence ++ ['\n']) →
      front ++ header.source ++ middle ++ title ++ parent ++ order ++ last =
        Text.unlines (fence :: ([notice, editFront ++ header.source ++ editEnd, layout, a, b, c, d]
          ++ [fence])) := by
    rintro _ _ _ _ _ _ a b c d rfl rfl rfl rfl rfl rfl
    simp only [Text.unlines, List.cons_append, List.nil_append, List.map_cons, List.map_nil,
      List.flatten_cons, List.flatten_nil, List.append_nil, List.append_assoc]
  exact hparts hfront hlayout (fieldLine_eq _ _) (fieldLine_eq _ _) (fieldLine_eq _ _) hend

/-- A field begins with its key. -/
theorem head?_field {key : Text} (h : key ≠ []) (value : Option Text) :
    (field key value).head? = key.head? := by
  cases value with
  | none => rw [field, List.head?_append_of_ne_nil _ h]
  | some value => rw [field, List.append_assoc, List.head?_append_of_ne_nil _ h]

/-- None of the lines is a fence: each begins with a sign of its own. -/
theorem fence_not_mem_inner (header : FrontMatter) : fence ∉ header.inner := by
  have hedit : (editFront ++ header.source ++ editEnd).head? = editFront.head? := by
    rw [List.append_assoc, List.head?_append_of_ne_nil _ (by decide)]
  have hsigns : header.inner.map List.head? = ['#', '#', 'l', 't', 'p', 'n', 'h'].map some := by
    have htitle := head?_field (show "title".toList ≠ [] by decide) header.title
    have hparent := head?_field (show "parent".toList ≠ [] by decide) header.parent
    have hnavOrder := head?_field (show "nav_order".toList ≠ [] by decide) header.navOrder
    have hchildren := head?_field (show "has_children".toList ≠ [] by decide)
      (some (flag header.hasChildren))
    simp only [inner, List.map_cons, List.map_nil, hedit, htitle, hparent, hnavOrder, hchildren]
    decide
  intro hmem
  have habsurd := List.mem_map_of_mem (f := List.head?) hmem
  rw [hsigns] at habsurd
  exact absurd habsurd (by decide)

/-! ### The reader -/

/-- The value on the line of a field, if it is the line of that field at all. -/
def valueOf? (key line : Text) : Option (Option Text) :=
  if line = key ++ [':'] then some none
  else ((key ++ ": ".toList).isPrefixOf? line).map some

/-- The source that the second line names. -/
def sourceOf? (line : Text) : Option Text :=
  (editFront.isPrefixOf? line).bind editEnd.isSuffixOf?

/-- Whether there are children, as the last line says. -/
def flagOf? (line : Text) : Option Bool :=
  [true, false].find? fun value => line = field "has_children".toList (some (flag value))

/-- The front matter with the given lines between its fences. -/
def ofLines? : List Text → Option FrontMatter
  | [first, edit, third, title, parent, order, children] => do
    guard (first = notice ∧ third = layout)
    let source ← sourceOf? edit
    let title ← valueOf? "title".toList title
    let parent ← valueOf? "parent".toList parent
    let navOrder ← valueOf? "nav_order".toList order
    let hasChildren ← flagOf? children
    some { source, title, parent, navOrder, hasChildren }
  | _ => none

/-- The front matter of a page, and its body: what stands between the first line, which has to be
`---`, and the first such line behind it, and what stands behind that. -/
def read? (page : Text) : Option (FrontMatter × Text) :=
  match Text.splitOn '\n' page with
  | [] => none
  | opening :: rest =>
    match rest.dropWhile (· ≠ fence) with
    | _ :: line :: lines =>
      if opening = fence then
        (ofLines? (rest.takeWhile (· ≠ fence))).map fun header =>
          (header, Text.join ['\n'] (line :: lines))
      else none
    | _ => none

/-- The value of a field is found on its line, also if there is none. -/
theorem valueOf?_field (key : Text) (value : Option Text) :
    valueOf? key (field key value) = some value := by
  cases value with
  | none => exact if_pos rfl
  | some value =>
      have hne : field key (some value) ≠ key ++ [':'] := by
        intro heq
        rw [field, List.append_assoc] at heq
        exact absurd (congrArg List.length (List.append_cancel_left heq)) (by simp)
      have hfront : (key ++ ": ".toList).isPrefixOf? (field key (some value)) = some value :=
        List.isPrefixOf?_eq_some_iff_append_eq.2 rfl
      rw [valueOf?, if_neg hne, hfront]
      rfl

/-- The source is found on the line that names it. -/
theorem sourceOf?_edit (source : Text) :
    sourceOf? (editFront ++ source ++ editEnd) = some source := by
  have hfront : editFront.isPrefixOf? (editFront ++ source ++ editEnd) = some (source ++ editEnd) :=
    List.isPrefixOf?_eq_some_iff_append_eq.2 (List.append_assoc _ _ _).symm
  have hback : editEnd.isSuffixOf? (source ++ editEnd) = some source :=
    List.isSuffixOf?_eq_some_iff_append_eq.2 rfl
  rw [sourceOf?, hfront]
  exact hback

/-- Whether there are children is found on the line that says so. -/
theorem flagOf?_flag (value : Bool) :
    flagOf? (field "has_children".toList (some (flag value))) = some value := by
  cases value <;> decide

/-- **The lines say what the front matter is**, whatever its values are. -/
theorem ofLines?_inner (header : FrontMatter) : ofLines? header.inner = some header := by
  rw [inner, ofLines?, sourceOf?_edit, valueOf?_field, valueOf?_field, valueOf?_field, flagOf?_flag]
  rfl

/-! ### Line feeds in values -/

/-- The values that a front matter has. -/
def values (header : FrontMatter) : List Text :=
  header.title.toList ++ header.parent.toList ++ header.navOrder.toList

/-- The line feeds of a field are those of its value. -/
theorem count_field {key : Text} (h : '\n' ∉ key) (value : Option Text) :
    (field key value).count '\n' = (value.toList.map (·.count '\n')).sum := by
  have hkey := List.count_eq_zero_of_not_mem h
  cases value with
  | none => rw [field, List.count_append, hkey]; rfl
  | some value =>
      have hcolon : (": ".toList).count '\n' = 0 := by decide
      rw [field, List.count_append, List.count_append, hkey, hcolon]
      simp

/-- The line feeds on the lines of a front matter are those in its values, and in the path of the
source. -/
theorem sum_count_inner (header : FrontMatter) :
    (header.inner.map (·.count '\n')).sum =
      header.source.count '\n' + (header.values.map (·.count '\n')).sum := by
  have hfixed : ∀ text ∈ [notice, editFront, editEnd, layout], text.count '\n' = 0 := by
    have hnone : ∀ text ∈ [notice, editFront, editEnd, layout], '\n' ∉ text := by decide +kernel
    exact fun text htext => List.count_eq_zero_of_not_mem (hnone text htext)
  simp only [List.forall_mem_cons] at hfixed
  obtain ⟨hnotice, hfront, hend, hlayout, -⟩ := hfixed
  have hflag : (field "has_children".toList (some (flag header.hasChildren))).count '\n' = 0 := by
    cases header.hasChildren <;> decide
  have htitle := count_field (show '\n' ∉ "title".toList by decide) header.title
  have hparent := count_field (show '\n' ∉ "parent".toList by decide) header.parent
  have hnavOrder := count_field (show '\n' ∉ "nav_order".toList by decide) header.navOrder
  rw [inner, values, List.map_append, List.map_append, List.sum_append, List.sum_append, ← htitle,
    ← hparent, ← hnavOrder]
  simp only [List.map_cons, List.map_nil, List.sum_cons, List.sum_nil, List.count_append, hnotice,
    hfront, hend, hlayout, hflag]
  omega

/-- Texts have no line feed in all if none of them holds one. -/
theorem sum_count_eq_zero_iff {texts : List Text} :
    (texts.map (·.count '\n')).sum = 0 ↔ ∀ text ∈ texts, '\n' ∉ text := by
  simp only [List.sum_eq_zero_iff_forall_eq_nat, List.mem_map, forall_exists_index, and_imp,
    forall_apply_eq_imp_iff₂, List.count_eq_zero]

/-- The lines of a page are those of its front matter between two fences, and those of its body, if
no value breaks a line. -/
theorem splitOn_render {header : FrontMatter} (h : ∀ line ∈ header.inner, '\n' ∉ line)
    (body : Text) : Text.splitOn '\n' (header.render ++ body) =
      fence :: (header.inner ++ fence :: Text.splitOn '\n' body) := by
  have hfence : '\n' ∉ fence := by decide
  rw [render_eq, Text.splitOn_unlines_append]
  · simp only [List.cons_append, List.append_assoc, List.nil_append]
  · intro line hline
    simp only [List.mem_cons, List.mem_append, List.not_mem_nil, or_false] at hline
    rcases hline with rfl | hline | rfl
    · exact hfence
    · exact h line hline
    · exact hfence

/-- **What has been written on one line each** is read back. -/
theorem read?_render {header : FrontMatter} (h : ∀ line ∈ header.inner, '\n' ∉ line)
    (body : Text) : read? (header.render ++ body) = some (header, body) := by
  have hinner : ∀ line ∈ header.inner, decide (line ≠ fence) = true := by
    intro line hline
    exact decide_eq_true fun heq => header.fence_not_mem_inner (heq ▸ hline)
  obtain ⟨line, lines, hbody⟩ := List.exists_cons_of_ne_nil (Text.splitOn_ne_nil '\n' body)
  have hjoin := Text.join_splitOn '\n' body
  rw [hbody] at hjoin
  have htake : (fence :: line :: lines).takeWhile (· ≠ fence) = [] :=
    List.takeWhile_cons_of_neg (by simp)
  have hdrop : (fence :: line :: lines).dropWhile (· ≠ fence) = fence :: line :: lines :=
    List.dropWhile_cons_of_neg (by simp)
  rw [read?, splitOn_render h, hbody]
  simp only [List.takeWhile_append_of_pos hinner, List.dropWhile_append_of_pos hinner, htake, hdrop,
    List.append_nil, ofLines?_inner, hjoin, if_true, Option.map_some]

/-- A front matter has seven lines between its fences. -/
theorem length_of_ofLines? {lines : List Text} {header : FrontMatter}
    (h : ofLines? lines = some header) : lines.length = 7 := by
  unfold ofLines? at h
  split at h
  · rfl
  · cases h

/-- **A page that can be read** has nine line feeds more than its body. -/
theorem count_of_read? {page body : Text} {header : FrontMatter}
    (h : read? page = some (header, body)) : page.count '\n' = body.count '\n' + 9 := by
  have hlines := Text.length_splitOn '\n' page
  have hclean : ∀ line ∈ Text.splitOn '\n' page, '\n' ∉ line :=
    fun line hline => Text.not_mem_of_mem_splitOn hline
  rw [read?] at h
  cases hpage : Text.splitOn '\n' page with
  | nil => exact absurd hpage (Text.splitOn_ne_nil _ _)
  | cons opening rest =>
      rw [hpage] at h hlines hclean
      dsimp only at h
      split at h
      · next line lines hdrop =>
        split at h
        · obtain ⟨found, hfound, heq⟩ := Option.map_eq_some_iff.1 h
          obtain ⟨-, rfl⟩ := Prod.mk.inj heq
          have hrest := congrArg List.length
            (List.takeWhile_append_dropWhile (p := (· ≠ fence)) (l := rest))
          rw [List.length_append, length_of_ofLines? hfound, hdrop] at hrest
          have hbehind : ∀ other ∈ line :: lines, '\n' ∉ other := by
            intro other hother
            have hsuffix := List.dropWhile_suffix (l := rest) (· ≠ fence)
            rw [hdrop] at hsuffix
            exact hclean other
              (List.mem_cons_of_mem _ (hsuffix.mem (List.mem_cons_of_mem _ hother)))
          have hbody := Text.length_splitOn '\n' (Text.join ['\n'] (line :: lines))
          rw [Text.splitOn_join (List.cons_ne_nil _ _) hbehind] at hbody
          simp only [List.length_cons] at hlines hrest hbody
          omega
        · cases h
      · cases h

/-- A front matter is read back if no value holds a line feed; otherwise no reader finds the body
behind it. -/
theorem exists_read?_iff {header : FrontMatter} (hsource : '\n' ∉ header.source) (body : Text) :
    (∃ other, read? (header.render ++ body) = some (other, body)) ↔
      ∀ value ∈ header.values, '\n' ∉ value := by
  have hcount := header.sum_count_inner
  rw [List.count_eq_zero_of_not_mem hsource, Nat.zero_add] at hcount
  rw [← sum_count_eq_zero_iff, ← hcount]
  constructor
  · rintro ⟨other, hread⟩
    have hpage := count_of_read? hread
    have hfence : fence.count '\n' = 0 := by decide
    rw [List.count_append, render_eq, Text.count_unlines] at hpage
    simp only [List.length_cons, List.length_append, List.length_nil, List.map_cons,
      List.map_append, List.map_nil, List.sum_cons, List.sum_append, List.sum_nil, hfence,
      show header.inner.length = 7 from rfl] at hpage
    omega
  · intro hnone
    exact ⟨header, read?_render (sum_count_eq_zero_iff.1 hnone) body⟩

/-! ### Pages of guides -/

/-- The directives that a front matter takes its values from: the index of a section does without
the title of its parent. -/
def directivesFor (source : Path) : List Text :=
  ["Title".toList, "Order".toList] ++
    if isSectionIndex source then [] else ["ParentTitle".toList]

/-- A section index is a file with one of the two stems. -/
theorem isSectionIndex_iff {source : Path} : isSectionIndex source = true ↔
    source.stem? = some "index".toList ∨ source.stem? = some "home".toList := by
  rw [isSectionIndex]
  cases source.stem? with
  | none =>
      constructor
      · intro habsurd
        cases habsurd
      · rintro (habsurd | habsurd)
        · cases habsurd
        · cases habsurd
  | some stem =>
      rw [Bool.or_eq_true, decide_eq_true_iff, decide_eq_true_iff, Option.some_inj, Option.some_inj]

/-- The values of a front matter hold no line feed just if the directives that it takes hold
none. -/
theorem forall_values_iff {source : Path} {directives : Directives} :
    (∀ value ∈ (ofDirectives source directives).values, '\n' ∉ value) ↔
      ∀ name ∈ directivesFor source, ∀ value, directives.get? name = some value →
        '\n' ∉ value := by
  have htilde : ∀ value : Text, some ['~'] = some value → '\n' ∉ value := by
    rintro value ⟨⟩
    decide
  rw [values, ofDirectives, directivesFor, List.forall_mem_append, List.forall_mem_append,
    List.forall_mem_append, List.forall_mem_cons, List.forall_mem_singleton]
  simp only [Option.mem_toList]
  cases isSectionIndex source with
  | true =>
      rw [if_pos rfl, if_pos rfl]
      simp only [List.not_mem_nil, false_implies, implies_true, and_true]
      exact ⟨fun h => ⟨h.1.1, h.2⟩, fun h => ⟨⟨h.1, htilde⟩, h.2⟩⟩
  | false =>
      rw [if_neg Bool.false_ne_true, if_neg Bool.false_ne_true, List.forall_mem_singleton]
      exact ⟨fun h => ⟨⟨h.1.1, h.2⟩, h.1.2⟩, fun h => ⟨⟨h.1.1, h.2⟩, h.1.2⟩⟩

end FrontMatter

/-- The text of the page of a publication: its front matter and its body. -/
def Publication.pageText (publication : Publication) (source : Path) : Text :=
  (FrontMatter.ofDirectives source publication.directives).render ++ publication.page

namespace FrontMatter

/-- The page of a guide with the given source can be read back: its front matter ends with the ninth
line, behind it stands the body of the page, and its fields say what the directives say. -/
structure ReadBack (source : Path) (publication : Publication) (header : FrontMatter) : Prop where
  /-- The first line `---` behind the first line is the ninth. -/
  ninth : (Text.splitOn '\n' (publication.pageText source)).tail.idxOf fence = 7
  read : read? (publication.pageText source) = some (header, publication.page)
  cited : header.source = source.slashed
  title : header.title = publication.directives.get? "Title".toList
  navOrder : header.navOrder = publication.directives.get? "Order".toList
  hasChildren : header.hasChildren = true ↔
    source.stem? = some "index".toList ∨ source.stem? = some "home".toList
  parent : header.parent =
    if header.hasChildren then some ['~'] else publication.directives.get? "ParentTitle".toList

/-- **When the front matter of a page can be read back**: exactly if none of the directives that it
takes its values from holds a line feed. -/
theorem exists_readBack_iff {source : Path} (hsource : '\n' ∉ source.text)
    (publication : Publication) :
    (∃ header, ReadBack source publication header) ↔
      ∀ name ∈ directivesFor source, ∀ value, publication.directives.get? name = some value →
        '\n' ∉ value := by
  have hslashed : '\n' ∉ (ofDirectives source publication.directives).source := fun hmem =>
    hsource (Path.mem_text_of_mem_slashed hmem (by decide) (by decide))
  rw [← forall_values_iff]
  constructor
  · rintro ⟨header, h⟩
    exact (exists_read?_iff hslashed _).1 ⟨header, h.read⟩
  · intro hvalues
    have hinner : ∀ line ∈ (ofDirectives source publication.directives).inner, '\n' ∉ line := by
      rw [← sum_count_eq_zero_iff, sum_count_inner, List.count_eq_zero_of_not_mem hslashed,
        Nat.zero_add, sum_count_eq_zero_iff]
      exact hvalues
    exact ⟨_, {
      ninth := by
        rw [Publication.pageText, splitOn_render hinner, List.tail_cons,
          List.idxOf_append_of_notMem (fence_not_mem_inner _), List.idxOf_cons_self]
        rfl
      read := read?_render hinner _
      cited := rfl
      title := rfl
      navOrder := rfl
      hasChildren := isSectionIndex_iff
      parent := rfl }⟩

/-- The index of a section, whose title is `---`. The title of its parent, which has two lines, is
not written. -/
theorem exists_readBack_of_index :
    ∃ publication, Guide.publish
        "@file:Title(\"---\")\n@file:ParentTitle(\"a\\nb\")\nfun main() \x7b\n\x7d\n".toList
        "examples".toList none = .ok publication ∧
      ∃ header, ReadBack ⟨"g/index.kt".toList⟩ publication header := by
  have hvalues : ∀ name ∈ directivesFor ⟨"g/index.kt".toList⟩, ∀ value ∈
      (⟨[("ParentTitle".toList, "a\nb".toList), ("Title".toList, "---".toList)], by decide⟩ :
        Directives).get? name, '\n' ∉ value := by
    decide +kernel
  exact ⟨⟨_, [], [], []⟩, by decide +kernel,
    (exists_readBack_iff (by decide +kernel) ⟨_, [], [], []⟩).2 hvalues⟩

/-- A title of three lines, of which the second is `---`: the front matter seems to end there. -/
theorem exists_not_readBack :
    ∃ publication, Guide.publish
        "@file:URL(\"p\")\n@file:Title(\"a\\n---\\nb\")\nfun main() \x7b\n\x7d\n".toList
        "examples".toList none = .ok publication ∧
      '\n' ∉ "g/a.kt".toList ∧
      (Text.splitOn '\n' (publication.pageText ⟨"g/a.kt".toList⟩)).tail.idxOf fence = 4 ∧
      ¬ ∃ header, ReadBack ⟨"g/a.kt".toList⟩ publication header := by
  have hsixth : (Text.splitOn '\n' (Publication.pageText
      ⟨⟨[("Title".toList, "a\n---\nb".toList), ("URL".toList, "p".toList)], by decide⟩, [], [], []⟩
      ⟨"g/a.kt".toList⟩)).tail.idxOf fence = 4 := by
    decide +kernel
  refine ⟨⟨_, [], [], []⟩, by decide +kernel, by decide +kernel, hsixth, ?_⟩
  rintro ⟨header, h⟩
  exact absurd (hsixth.symm.trans h.ninth) (by decide)

end FrontMatter

end Guidebook
