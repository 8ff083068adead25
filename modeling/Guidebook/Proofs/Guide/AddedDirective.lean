import Guidebook.Proofs.Directive.Grammar
import Guidebook.Proofs.Guide.Composition

/-!
# Adding a Directive

Two things decide what a line of the preamble is. The reader takes it for a directive if it begins
with `@file:`; the lexemes of a directive may have blanks in between, also between `@file` and the
colon. So a directive with blanks there is none for the reader, which rejects it. Any other one can
be added to a preamble, behind those with the same name: it sets its name to its value and changes
nothing else.

## Main results

* `Directive.exists_blanks_of_parse`: a directive begins with `@file`, blanks and a colon.
* `Guide.addAll_addDirective`: a directive can be added before or behind directives of other names.
* `Guide.publish_added_directive`: **what adding a directive does**.
-/

namespace Guidebook

/-! ### Where directives begin -/

namespace Lexeme

/-- Skipping characters is the same as dropping them. -/
theorem listFrom_eq_drop (skip : Nat) (t : Text) : listFrom skip t = listFrom 0 (t.drop skip) := by
  induction t generalizing skip with
  | nil => cases skip <;> rfl
  | cons c t ih =>
      cases skip with
      | zero => rfl
      | succ skip => exact ih skip

/-- In front of the first lexeme there are only blanks. -/
theorem exists_first_of_list {t : Text} {lexeme : Lexeme} {more : List Lexeme}
    (h : listFrom 0 t = lexeme :: more) :
    ∃ blanks c rest, (∀ d ∈ blanks, isSeparator d = true) ∧ t = blanks ++ c :: rest ∧
      (first c rest).1 = lexeme ∧ listFrom 0 (rest.drop (first c rest).2) = more := by
  induction t with
  | nil => cases h
  | cons c t ih =>
      rw [listFrom] at h
      split at h
      · next hc =>
        obtain ⟨blanks, d, rest, hblanks, rfl, hfirst, hrest⟩ := ih h
        exact ⟨c :: blanks, d, rest, List.forall_mem_cons.2 ⟨hc, hblanks⟩, rfl, hfirst, hrest⟩
      · obtain ⟨rfl, rfl⟩ := List.cons.inj h
        exact ⟨[], c, t, List.forall_mem_nil _, rfl, rfl, (listFrom_eq_drop _ t).symm⟩

/-- A text has a word in common with another from the beginning. -/
theorem prefix_of_commonLength {word t : Text} (h : commonLength word t = word.length) :
    word <+: t := by
  induction word generalizing t with
  | nil => exact List.nil_prefix
  | cons a word ih =>
      cases t with
      | nil => cases h
      | cons b t =>
          rw [commonLength] at h
          split at h
          · next heq => exact List.cons_prefix_cons.2 ⟨heq, ih (Nat.succ.inj h)⟩
          · cases h

/-- The lexeme `@file` is made of these characters. -/
theorem eq_of_first_target {c : Char} {rest : Text} (h : (first c rest).1 = .target) :
    ∃ more, c :: rest = "@file".toList ++ more ∧ rest.drop (first c rest).2 = more := by
  revert h
  fun_cases first c rest with
  | case1 hc _ hlength =>
      obtain ⟨more, rfl⟩ := prefix_of_commonLength hlength
      subst hc
      exact fun _ => ⟨more, rfl, rfl⟩
  | case10 =>
      intro h
      dsimp only at h
      split at h <;> cases h
  | _ =>
      intro h
      cases h

/-- What may stand between lexemes is white space. -/
theorem isSpace_of_isSeparator {c : Char} (h : isSeparator c = true) : Text.isSpace c = true := by
  simp only [isSeparator, Bool.or_eq_true, decide_eq_true_eq] at h
  rcases h with (rfl | rfl) | rfl <;> decide

/-- The colon is made of itself. -/
theorem eq_of_first_colon {c : Char} {rest : Text} (h : (first c rest).1 = .colon) : c = ':' := by
  revert h
  fun_cases first c rest with
  | case3 _ hcolon => exact fun _ => hcolon
  | case10 =>
      intro h
      dsimp only at h
      split at h <;> cases h
  | _ =>
      intro h
      cases h

end Lexeme

/-- **How a directive begins**: with `@file`, blanks and a colon. -/
theorem Directive.exists_blanks_of_parse {t : Text} {d : Directive} (ht : Text.IsTrimmed t)
    (h : parse t = .ok d) :
    ∃ blanks rest, (∀ c ∈ blanks, Lexeme.isSeparator c = true) ∧
      t = "@file".toList ++ blanks ++ ':' :: rest := by
  obtain ⟨items, values, hlist, -, -⟩ := (ofLexemes_eq_ok_iff (resolved_list t)).1 h
  obtain ⟨margin, c, more, hmargin, rfl, hfirst, hmore⟩ := Lexeme.exists_first_of_list hlist
  obtain ⟨behind, htarget, hdrop⟩ := Lexeme.eq_of_first_target hfirst
  rw [hdrop] at hmore
  obtain ⟨blanks, colon, rest, hblanks, rfl, hcolon, -⟩ := Lexeme.exists_first_of_list hmore
  obtain rfl := Lexeme.eq_of_first_colon hcolon
  -- a trimmed text does not begin with a blank
  have hnil : margin = [] := by
    cases margin with
    | nil => rfl
    | cons blank margin =>
        have hspace := Lexeme.isSpace_of_isSeparator (hmargin blank List.mem_cons_self)
        exact absurd (ht.1 blank rfl) (by rw [hspace]; decide)
  subst hnil
  exact ⟨blanks, rest, hblanks, by rw [List.nil_append, htarget, List.append_assoc]⟩

/-! ### Directives and other additions -/

namespace Guide

variable {name value : Text}

/-- The addition is a directive with the name. -/
def Addition.Names (name : Text) : Addition → Prop
  | .directive other _ => other = name
  | _ => False

/-- A directive commutes with an addition that is no directive of the same name. -/
theorem add_addDirective {addition : Addition} (h : ¬ addition.Names name) (guide : Guide)
    (value : Text) :
    (guide.addDirective name value).add addition =
      (guide.add addition).addDirective name value := by
  cases addition with
  | directive other _ =>
      have hne : name ≠ other := fun heq => h heq.symm
      simp only [add, addDirective, Table.insert_insert_of_ne hne]
  | nothing | importLine _ | block _ => rfl

/-- **Directives of other names** can come before or behind. -/
theorem addAll_addDirective {additions : List Addition}
    (h : ∀ addition ∈ additions, ¬ addition.Names name) (guide : Guide) (value : Text) :
    (guide.addDirective name value).addAll additions =
      (guide.addAll additions).addDirective name value := by
  induction additions generalizing guide with
  | nil => rfl
  | cons addition additions ih =>
      obtain ⟨hfirst, hrest⟩ := List.forall_mem_cons.1 h
      rw [addAll_cons, addAll_cons, add_addDirective hfirst, ih hrest]

/-! ### Lines with directives -/

namespace Reader

/-- Some line that the reader reads between items of the preamble is a directive with the name. -/
def Directs (r : Reader) (lines : List Text) (name : Text) : Prop :=
  ∃ before line below s d, lines = before ++ line :: below ∧ r.run before = .ok s ∧
    s.part = .preamble ∧ s.pending = .item ∧ "@file:".toList <+: Text.trim line ∧
    Directive.parse (Text.trim line) = .ok d ∧ d.name = name

/-- What no line says is not added. -/
theorem not_names_of_not_directs {n : Nat} {part last : Part} {guide : Guide} {lines : List Text}
    {additions : List Addition} (hitems : Items part lines additions last)
    (h : ¬ Directs ⟨n, part, .item, guide⟩ lines name) :
    ∀ addition ∈ additions, ¬ addition.Names name := by
  induction hitems generalizing n guide with
  | nil _ => exact List.forall_mem_nil _
  | @cons part next last lines more addition additions head _ ih =>
      have hbelow : ¬ Directs ⟨n + lines.length, next, .item, guide.add addition⟩ more name := by
        rintro ⟨before, line, below, s, d, rfl, hrun, hrest⟩
        refine h ⟨lines ++ before, line, below, s, d, by simp, ?_, hrest⟩
        rw [run_append, run_item head]
        exact hrun
      refine List.forall_mem_cons.2 ⟨fun hnames => ?_, ih hbelow⟩
      cases head with
      | @directive line d hfile hparse =>
          exact h ⟨[], line, more, _, d, rfl, rfl, rfl, rfl, hfile, hparse, hnames⟩
      | _ => cases hnames

variable {n : Nat} {guide : Guide} {line : Text} {d : Directive}

/-- A directive without blanks in front of its colon sets its name. -/
theorem step_directive (hfile : "@file:".toList <+: Text.trim line)
    (hparse : Directive.parse (Text.trim line) = .ok d) :
    step ⟨n, .preamble, .item, guide⟩ line =
      .ok ⟨n + 1, .preamble, .item, guide.addDirective d.name d.value⟩ := by
  rw [← run_singleton]
  exact run_item (.directive hfile hparse) n guide

/-- A line that begins with `@file` and a blank is none of the preamble. -/
theorem step_spaced {blank : Char} {rest : Text} (hblank : Lexeme.isSeparator blank = true)
    (hline : Text.trim line = "@file".toList ++ blank :: rest) :
    step ⟨n, .preamble, .item, guide⟩ line =
      .error ⟨n + 1, .beforeMain (Text.trim line)⟩ := by
  have hcolon : "@file:".toList.isPrefixOf (Text.trim line) = false := by
    have hne : ':' ≠ blank := by
      rintro rfl
      exact absurd hblank (by decide)
    rw [hline]
    exact Bool.eq_false_iff.2 fun h => hne (by simpa [List.isPrefixOf] using h)
  have hmain : isMain (Text.trim line) = false := by
    rw [hline]
    exact decide_eq_false fun h => absurd (List.cons.inj h).1 (by decide)
  rw [step, show Text.trim line = '@' :: ("file".toList ++ blank :: rest) from hline,
    itemLine_cons (by decide)]
  rw [hline] at hcolon hmain
  exact (if_neg (Bool.eq_false_iff.1 hcolon)).trans (if_neg (Bool.eq_false_iff.1 hmain))

end Reader

/-! ### Sources -/

/-- The one publication is the other with the name of a directive set to its value. -/
structure SetsDirective (d : Directive) (p q : Publication) : Prop where
  get?_eq : ∀ key, q.directives.get? key =
    if d.name = key then some d.value else p.directives.get? key
  page_eq : q.page = p.page
  runnable_eq : q.runnable = p.runnable
  exported_eq : q.exported = p.exported

/-- A directive that is added to a guide sets its name to its value in what is published, and
nothing else. -/
theorem setsDirective_addDirective (guide : Guide) (d : Directive) (package : Text)
    (link : Option PublicLink) :
    SetsDirective d (guide.publication package link)
      ((guide.addDirective d.name d.value).publication package link) where
  get?_eq key := Table.get?_insert guide.directives d.name key d.value
  page_eq := rfl
  runnable_eq := rfl
  exported_eq := rfl

section Sources

variable {content added line : Text} {front rest : List Text} {r : Reader} {d : Directive}

/-- A directive that the reader takes. -/
theorem publish_added_of_file {package : Text} {link : Option PublicLink} {p : Publication}
    (hcontent : sourceLines content = front ++ rest)
    (hadded : sourceLines added = front ++ line :: rest)
    (hfront : Reader.start.run front = .ok r) (hpart : r.part = .preamble)
    (hitem : r.pending = .item) (hfile : "@file:".toList <+: Text.trim line)
    (hparse : Directive.parse (Text.trim line) = .ok d) (hlast : ¬ r.Directs rest d.name)
    (hpublish : publish content package link = .ok p) :
    ∃ q, publish added package link = .ok q ∧ SetsDirective d p q := by
  obtain ⟨guide, rfl⟩ := exists_guide_of_run hfront hpart hitem
  obtain ⟨whole, hread, rfl⟩ := publish_eq_ok_iff.1 hpublish
  rw [read, hcontent, ofLines_append_eq_ok_iff hfront] at hread
  obtain ⟨additions, hitems, rfl⟩ := hread
  have hnext : Reader.start.run (front ++ [line]) =
      .ok ⟨front.length + 1, .preamble, .item, guide.addDirective d.name d.value⟩ := by
    rw [Reader.run_append, hfront, Except.bind, Reader.run_singleton,
      Reader.step_directive hfile hparse]
  have hguide := addAll_addDirective (Reader.not_names_of_not_directs hitems hlast) guide d.value
  refine ⟨_, publish_eq_ok_iff.2 ⟨(guide.addAll additions).addDirective d.name d.value, ?_, rfl⟩,
    setsDirective_addDirective _ d package link⟩
  rw [read, hadded, ← List.singleton_append, ← List.append_assoc, ofLines_append_eq_ok_iff hnext]
  exact ⟨additions, hitems, hguide.symm⟩

/-- **What adding a directive does.** Take a source that is published, a place in its preamble
between items, and a line that is a directive by its lexemes whose name no directive below the place
has. The line begins with `@file`, blanks and a colon. Without blanks, the source with the line
added is published as the source is, with the name set to the value; with blanks, it is rejected at
the line. -/
theorem publish_added_directive {package : Text} {link : Option PublicLink} {p : Publication}
    (hcontent : sourceLines content = front ++ rest)
    (hadded : sourceLines added = front ++ line :: rest)
    (hfront : Reader.start.run front = .ok r) (hpart : r.part = .preamble)
    (hitem : r.pending = .item) (hparse : Directive.parse (Text.trim line) = .ok d)
    (hlast : ¬ r.Directs rest d.name) (hpublish : publish content package link = .ok p) :
    ∃ blanks tail, (∀ c ∈ blanks, Lexeme.isSeparator c = true) ∧
      Text.trim line = "@file".toList ++ blanks ++ ':' :: tail ∧
      (blanks = [] → ∃ q, publish added package link = .ok q ∧ SetsDirective d p q) ∧
      (blanks ≠ [] → publish added package link =
        .error ⟨front.length + 1,
          "unexpected `".toList ++ Text.trim line ++ "` before `fun main() \x7b`".toList⟩) := by
  obtain ⟨blanks, tail, hblanks, hline⟩ :=
    Directive.exists_blanks_of_parse (Text.isTrimmed_trim line) hparse
  refine ⟨blanks, tail, hblanks, hline, ?_, fun hne => ?_⟩
  · rintro rfl
    have hfile : "@file:".toList <+: Text.trim line := ⟨tail, by rw [hline]; simp⟩
    exact publish_added_of_file hcontent hadded hfront hpart hitem hfile hparse hlast hpublish
  · obtain ⟨blank, more, rfl⟩ := List.exists_cons_of_ne_nil hne
    have hspaced : Text.trim line = "@file".toList ++ blank :: (more ++ ':' :: tail) := by
      rw [hline]
      simp
    obtain ⟨guide, rfl⟩ := exists_guide_of_run hfront hpart hitem
    have hstep : Reader.step ⟨front.length, .preamble, .item, guide⟩ line =
        .error ⟨front.length + 1, .beforeMain (Text.trim line)⟩ :=
      Reader.step_spaced (hblanks blank List.mem_cons_self) hspaced
    exact publish_of_step_error hadded hfront hstep package link

end Sources

/-- The order is set once more, and then with a blank in front of the colon. -/
theorem publish_added_order :
    (∃ q, publish "@file:Order(1)\n@file:Order(50)\nfun main() \x7b\n\x7d\n".toList
          "examples".toList none = .ok q ∧
        q.directives.get? "Order".toList = some "50".toList) ∧
      publish "@file:Order(1)\n@file :Order(50)\nfun main() \x7b\n\x7d\n".toList
          "examples".toList none =
        .error ⟨2, "unexpected `@file :Order(50)` before `fun main() \x7b`".toList⟩ := by
  have hcontent : sourceLines "@file:Order(1)\nfun main() \x7b\n\x7d\n".toList =
      ["@file:Order(1)".toList] ++ ["fun main() \x7b".toList, ['\x7d']] := by
    decide +kernel
  have hfront : Reader.start.run ["@file:Order(1)".toList] =
      .ok ⟨1, .preamble, .item, empty.addDirective "Order".toList "1".toList⟩ := by
    decide +kernel
  have hpublish : publish "@file:Order(1)\nfun main() \x7b\n\x7d\n".toList "examples".toList none =
      .ok ((empty.addDirective "Order".toList "1".toList).publication "examples".toList none) := by
    decide +kernel
  have hlast : ¬ Reader.Directs ⟨1, .preamble, .item, empty.addDirective "Order".toList "1".toList⟩
      ["fun main() \x7b".toList, ['\x7d']] "Order".toList := by
    rintro ⟨before, line, below, s, d, hlines, -, -, -, hfile, -, -⟩
    have hmem : line ∈ ["fun main() \x7b".toList, ['\x7d']] := by
      rw [hlines]
      simp
    simp only [List.mem_cons, List.not_mem_nil, or_false] at hmem
    rcases hmem with rfl | rfl <;> exact absurd hfile (by decide)
  constructor
  · have hadded : sourceLines
          "@file:Order(1)\n@file:Order(50)\nfun main() \x7b\n\x7d\n".toList =
        ["@file:Order(1)".toList] ++ "@file:Order(50)".toList ::
          ["fun main() \x7b".toList, ['\x7d']] := by
      decide +kernel
    have hparse : Directive.parse (Text.trim "@file:Order(50)".toList) =
        .ok ⟨"Order".toList, "50".toList⟩ := by
      decide +kernel
    obtain ⟨blanks, tail, hblanks, hline, haccepted, -⟩ :=
      publish_added_directive hcontent hadded hfront rfl rfl hparse hlast hpublish
    have hnil : blanks = [] := by
      cases blanks with
      | nil => rfl
      | cons blank blanks =>
          have hcolon : some ':' = some blank := congrArg (·[5]?) hline
          obtain rfl := Option.some.inj hcolon
          exact absurd (hblanks ':' List.mem_cons_self) (by decide)
    obtain ⟨q, hq, hsets⟩ := haccepted hnil
    exact ⟨q, hq, (hsets.get?_eq _).trans (if_pos rfl)⟩
  · have hadded : sourceLines
          "@file:Order(1)\n@file :Order(50)\nfun main() \x7b\n\x7d\n".toList =
        ["@file:Order(1)".toList] ++ "@file :Order(50)".toList ::
          ["fun main() \x7b".toList, ['\x7d']] := by
      decide +kernel
    have hparse : Directive.parse (Text.trim "@file :Order(50)".toList) =
        .ok ⟨"Order".toList, "50".toList⟩ := by
      decide +kernel
    obtain ⟨blanks, tail, -, hline, -, hrejected⟩ :=
      publish_added_directive hcontent hadded hfront rfl rfl hparse hlast hpublish
    refine hrejected ?_
    rintro rfl
    have hblank : some ' ' = some ':' := congrArg (·[5]?) hline
    exact absurd hblank (by decide)

/-- A directive by its lexemes that no preamble may hold. -/
theorem publish_spaced_directive :
    Directive.parse "@file : Order ( \"50\" )".toList = .ok ⟨"Order".toList, "50".toList⟩ ∧
      publish "fun main() \x7b\n\x7d\n".toList "examples".toList none =
        .ok ⟨.empty, [], [], []⟩ ∧
      publish "@file : Order ( \"50\" )\nfun main() \x7b\n\x7d\n".toList "examples".toList none =
        .error ⟨1, "unexpected `@file : Order ( \"50\" )` before `fun main() \x7b`".toList⟩ :=
  ⟨by decide +kernel, by decide +kernel, by decide +kernel⟩

end Guide

end Guidebook
