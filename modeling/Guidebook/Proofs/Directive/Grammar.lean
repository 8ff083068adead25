import Guidebook.Guide.Reader
import Guidebook.Proofs.ItemByItem

/-!
# The Grammar of Directives

A line is a directive if its lexemes are `@file`, a colon, a name, and arguments in parentheses,
separated by single commas. There may be no arguments at all, but none may be left out between
commas or before the closing parenthesis, and nothing may come behind it. An argument is a number,
or a string literal whose escapes can be resolved; in a literal without a backslash, that resolves
nothing.

## Main results

* `Lexeme.content_eq_unescape`: the content of a literal is what its escapes **resolve to**, also
  where there are none.
* `Directive.more_of_hasValue`, `Directive.exists_of_more`: arguments are **read as they are
  written**, and nothing else is.
* `Directive.ofLexemes_eq_ok_iff`: which lexemes make up which directive.
* `Directive.exists_ofLexemes_iff`: which lexemes make up any directive at all.
* `Guide.directiveAt_accepts_exactly`: **the grammar of directives**, and how it is violated.
-/

namespace Guidebook

/-! ### Literals -/

namespace Lexeme

/-- Every lexeme of a text is the first one of some rest of it. -/
theorem exists_first_of_mem {skip : Nat} {t : Text} {lexeme : Lexeme}
    (h : lexeme ∈ listFrom skip t) : ∃ c rest, (first c rest).1 = lexeme := by
  induction t generalizing skip with
  | nil => cases skip <;> cases h
  | cons c rest ih =>
      cases skip with
      | succ skip => exact ih h
      | zero =>
          rw [listFrom] at h
          split at h
          · exact ih h
          · rcases List.mem_cons.1 h with rfl | h
            · exact ⟨c, rest, rfl⟩
            · exact ih h

/-- A lexeme is a literal only if it begins with a quote and ends with the one that closes it. -/
theorem literal_of_first {c : Char} {rest l : Text} (h : (first c rest).1 = .literal l) :
    ∃ length, literalLength rest = (length, true) ∧ l = '"' :: rest.take length := by
  revert h
  fun_cases first c rest with
  | case7 _ _ _ _ _ hquote length hlength =>
      subst hquote
      exact fun h => ⟨length, hlength, (Lexeme.literal.inj h).symm⟩
  | case10 =>
      intro h
      dsimp only at h
      split at h <;> cases h
  | _ =>
      intro h
      cases h

/-- A text that does not begin with a quote is no literal. -/
theorem list_ne_literal {c : Char} (hc : c ≠ '"') (rest : Text) :
    list (c :: rest) ≠ [.literal (c :: rest)] := by
  intro heq
  have hmem : .literal (c :: rest) ∈ listFrom 0 (c :: rest) := by
    rw [show listFrom 0 (c :: rest) = list (c :: rest) from rfl, heq]
    exact List.mem_singleton_self _
  obtain ⟨first, more, hfirst⟩ := exists_first_of_mem hmem
  obtain ⟨length, -, hquote⟩ := literal_of_first hfirst
  exact hc (List.cons.inj hquote).1

/-- What belongs to a literal ends with the quote that closes it, the only one unless there are
backslashes. -/
theorem exists_take_literalLength {rest : Text} {length : Nat}
    (h : literalLength rest = (length, true)) :
    ∃ body, rest.take length = body ++ ['"'] ∧ ('\\' ∉ body → '"' ∉ body) := by
  induction rest using literalLength.induct generalizing length with
  | case1 => cases h
  | case2 => cases h
  | case3 rest => simp [literalLength] at h
  | case4 c rest hc more closed hmore ih =>
      rw [literalLength, if_neg hc, hmore] at h
      obtain ⟨rfl, rfl⟩ := Prod.mk.inj h
      obtain ⟨body, hbody, -⟩ := ih hmore
      refine ⟨'\\' :: c :: body, ?_, fun hslash => absurd List.mem_cons_self hslash⟩
      rw [List.take_succ_cons, List.take_succ_cons, hbody]
      rfl
  | case5 rest hend hpair =>
      rw [literalLength, if_pos rfl] at h
      · obtain ⟨rfl, -⟩ := Prod.mk.inj h
        exact ⟨[], rfl, fun _ => List.not_mem_nil⟩
      · exact hend
      · exact hpair
  | case6 c rest hend hpair hquote more closed hmore ih =>
      rw [literalLength, if_neg hquote, hmore] at h
      · obtain ⟨rfl, rfl⟩ := Prod.mk.inj h
        obtain ⟨body, hbody, hclear⟩ := ih hmore
        refine ⟨c :: body, by rw [List.take_succ_cons, hbody]; rfl, fun hslash => ?_⟩
        rw [List.mem_cons, not_or] at hslash ⊢
        exact ⟨Ne.symm hquote, hclear hslash.2⟩
      · exact hend
      · exact hpair

/-- A text without backslashes and quotes is read as it is, up to the quote behind it. -/
theorem contentFrom_clear (literal : Text) {body : Text} (hslash : '\\' ∉ body)
    (hquote : '"' ∉ body) (position : Nat) (rest : Text) :
    Literal.contentFrom literal position 0 (body ++ '"' :: rest) = .ok body := by
  induction body generalizing position with
  | nil => rfl
  | cons c body ih =>
      rw [List.mem_cons, not_or] at hslash hquote
      simp only [List.cons_append, Literal.contentFrom, Ne.symm hquote.1, Ne.symm hslash.1,
        if_false, ih hslash.2 hquote.2]
      rfl

/-- **A literal without a backslash** is its own content, and so are its escapes resolved. -/
theorem unescape_of_clear {skip : Nat} {t l : Text} (h : .literal l ∈ listFrom skip t)
    (hslash : '\\' ∉ l) : Literal.unescape l = .ok (Literal.inner l) := by
  obtain ⟨c, rest, hfirst⟩ := exists_first_of_mem h
  obtain ⟨length, hlength, rfl⟩ := literal_of_first hfirst
  obtain ⟨body, hbody, hclear⟩ := exists_take_literalLength hlength
  rw [hbody] at hslash ⊢
  have hslashBody : '\\' ∉ body := fun hmem => hslash (by simp [hmem])
  rw [Literal.inner, List.tail_cons, List.dropLast_concat]
  exact contentFrom_clear _ hslashBody (hclear hslashBody) 1 []

/-- **The content of a literal** is what its escapes resolve to, also where there are none. -/
theorem content_eq_unescape {skip : Nat} {t l : Text} (h : .literal l ∈ listFrom skip t) :
    Literal.content l = Literal.unescape l := by
  rw [Literal.content]
  split
  · rfl
  · next hslash =>
    refine (unescape_of_clear h fun hmem => hslash ?_).symm
    obtain ⟨c, rest, hfirst⟩ := exists_first_of_mem h
    obtain ⟨length, hlength, rfl⟩ := literal_of_first hfirst
    obtain ⟨body, hbody, -⟩ := exists_take_literalLength hlength
    rw [hbody] at hmem ⊢
    rw [Literal.inner, List.tail_cons, List.dropLast_concat]
    simpa using hmem

end Lexeme

/-! ### Arguments -/

namespace Directive

/-- The lexeme is one that can be an argument. -/
def IsArgument : Lexeme → Prop
  | .literal _ => True
  | .number _ => True
  | _ => False

/-- The value of an argument: of a literal what its escapes resolve to, of a number itself. -/
def HasValue : Lexeme → Text → Prop
  | .literal literal, value => Literal.unescape literal = .ok value
  | .number digits, value => value = digits
  | _, _ => False

/-- Every literal has what its escapes resolve to as its content. -/
def Resolved (lexemes : List Lexeme) : Prop :=
  ∀ literal, .literal literal ∈ lexemes → Literal.content literal = Literal.unescape literal

/-- Arguments behind another, each with a comma in front. -/
def behindCommas (arguments : List Lexeme) : List Lexeme :=
  arguments.flatMap fun argument => [.comma, argument]

variable {lexemes rest items : List Lexeme} {values : List Text} {item : Lexeme} {value : Text}

/-- The first item stands before any comma, and the others stand behind commas. -/
theorem intersperse_cons (item : Lexeme) (items : List Lexeme) :
    (item :: items).intersperse .comma = item :: behindCommas items := by
  induction items generalizing item with
  | nil => rfl
  | cons next items ih =>
      rw [List.intersperse_cons_cons, ih]
      rfl

/-- Items behind commas are still there. -/
theorem mem_behindCommas (h : item ∈ items) : item ∈ behindCommas items :=
  List.mem_flatMap.2 ⟨item, h, by simp⟩

/-- Items with commas between them are still there. -/
theorem mem_intersperse (h : item ∈ items) : item ∈ items.intersperse .comma := by
  cases items with
  | nil => cases h
  | cons first items =>
      rw [intersperse_cons]
      rcases List.mem_cons.1 h with rfl | h
      · exact List.mem_cons_self
      · exact List.mem_cons_of_mem _ (mem_behindCommas h)

/-- Nothing but commas stands between arguments. -/
theorem mem_or_eq_of_mem_intersperse (h : item ∈ items.intersperse .comma) :
    item ∈ items ∨ item = .comma := by
  cases items with
  | nil => cases h
  | cons first items =>
      rw [intersperse_cons, List.mem_cons] at h
      rcases h with rfl | h
      · exact .inl List.mem_cons_self
      · obtain ⟨other, hother, hmem⟩ := List.mem_flatMap.1 h
        rcases List.mem_cons.1 hmem with rfl | hmem
        · exact .inr rfl
        · rw [List.mem_singleton.1 hmem]
          exact .inl (List.mem_cons_of_mem _ hother)

/-- Behind a resolved lexeme, the others are resolved. -/
theorem Resolved.tail (h : Resolved (item :: rest)) : Resolved rest :=
  fun literal hmem => h literal (List.mem_cons_of_mem _ hmem)

/-- An argument that has a value is read, and what follows it. -/
theorem arguments_of_hasValue (hresolved : Resolved lexemes) (hmem : item ∈ lexemes)
    (h : HasValue item value) (isFirst : Bool) (rest : List Lexeme) :
    arguments isFirst (item :: rest) = arguments.more value rest := by
  cases item with
  | literal literal =>
      have hcontent : Literal.content literal = .ok value := (hresolved literal hmem).trans h
      rw [arguments, hcontent]
  | number digits =>
      obtain rfl : value = digits := h
      rw [arguments]
  | target | colon | opening | closing | comma | identifier | unknown => cases h

/-- **Arguments are read as they are written**, up to the closing parenthesis. -/
theorem more_of_hasValue (hresolved : Resolved lexemes) (hmem : ∀ item ∈ items, item ∈ lexemes)
    (hvalues : List.Forall₂ HasValue items values) (value : Text) (rest : List Lexeme) :
    arguments.more value (behindCommas items ++ .closing :: rest) =
      .ok (value :: values, rest) := by
  induction hvalues generalizing value with
  | nil => rfl
  | @cons item next items values hitem _ ih =>
      obtain ⟨hfirst, hmem⟩ := List.forall_mem_cons.1 hmem
      have hrest := (arguments_of_hasValue hresolved hfirst hitem false _).trans (ih hmem next)
      rw [behindCommas, List.flatMap_cons]
      simp only [List.cons_append, List.nil_append, arguments.more]
      rw [← behindCommas, hrest]
      rfl

/-- What is read of an argument is its value, and what is read of the rest. -/
theorem exists_hasValue_of_arguments (hresolved : Resolved (item :: lexemes)) {isFirst : Bool}
    (h : arguments isFirst (item :: lexemes) = .ok (values, rest)) :
    (isFirst = true ∧ item = .closing ∧ values = [] ∧ lexemes = rest) ∨
      ∃ value, HasValue item value ∧ arguments.more value lexemes = .ok (values, rest) := by
  cases item with
  | closing =>
      rw [arguments] at h
      split at h
      · next hfirst =>
        obtain ⟨rfl, rfl⟩ := Prod.mk.inj (Except.ok.inj h)
        exact .inl ⟨hfirst, rfl, rfl, rfl⟩
      · cases h
  | literal literal =>
      rw [arguments] at h
      split at h
      · cases h
      · next value hvalue =>
        exact .inr ⟨value, (hresolved literal List.mem_cons_self).symm.trans hvalue, h⟩
  | number digits => exact .inr ⟨digits, rfl, h⟩
  | target | colon | opening | comma | identifier | unknown => cases h

/-- What is read behind an argument is the closing parenthesis, or a comma and more arguments. -/
theorem exists_comma_of_more
    (h : arguments.more value (item :: lexemes) = .ok (values, rest)) :
    (item = .closing ∧ values = [value] ∧ lexemes = rest) ∨
      ∃ others, item = .comma ∧ values = value :: others ∧
        arguments false lexemes = .ok (others, rest) := by
  cases item with
  | closing =>
      obtain ⟨rfl, rfl⟩ := Prod.mk.inj (Except.ok.inj h)
      exact .inl ⟨rfl, rfl, rfl⟩
  | comma =>
      rw [arguments.more] at h
      cases hmore : arguments false lexemes with
      | error e => simp [hmore, Except.map] at h
      | ok read =>
          rw [hmore] at h
          obtain ⟨rfl, rfl⟩ := Prod.mk.inj (Except.ok.inj h)
          exact .inr ⟨read.1, rfl, rfl, rfl⟩
  | target | colon | opening | literal | number | identifier | unknown => cases h

/-- **Nothing else is read**: what is read up to a closing parenthesis are arguments. -/
theorem exists_of_more (hresolved : Resolved lexemes)
    (h : arguments.more value lexemes = .ok (values, rest)) :
    ∃ items others, lexemes = behindCommas items ++ .closing :: rest ∧
      List.Forall₂ HasValue items others ∧ values = value :: others := by
  -- After a comma, an argument is read as well, so that two lexemes are left behind.
  induction hlength : lexemes.length using Nat.strongRecOn
    generalizing lexemes value values with
  | _ length ih =>
      cases lexemes with
      | nil => cases h
      | cons first lexemes =>
          obtain ⟨rfl, rfl, rfl⟩ | ⟨others, rfl, rfl, hothers⟩ := exists_comma_of_more h
          · exact ⟨[], [], rfl, .nil, rfl⟩
          cases lexemes with
          | nil => cases hothers
          | cons item lexemes =>
              obtain ⟨habsurd, -⟩ | ⟨next, hnext, hmore⟩ :=
                exists_hasValue_of_arguments hresolved.tail hothers
              · cases habsurd
              have hshorter : lexemes.length < length := by
                rw [← hlength, List.length_cons, List.length_cons]
                omega
              obtain ⟨items, values, rfl, hvalues, rfl⟩ :=
                ih _ hshorter hresolved.tail.tail hmore rfl
              exact ⟨item :: items, next :: values, rfl, .cons hnext hvalues, rfl⟩

/-- **Arguments** are read if they stand between commas, up to a closing parenthesis, and each of
them has a value. -/
theorem arguments_eq_ok_iff (hresolved : Resolved lexemes) :
    arguments true lexemes = .ok (values, rest) ↔
      ∃ items, lexemes = items.intersperse .comma ++ .closing :: rest ∧
        List.Forall₂ HasValue items values := by
  constructor
  · intro h
    cases lexemes with
    | nil => cases h
    | cons item lexemes =>
        obtain ⟨-, rfl, rfl, rfl⟩ | ⟨value, hvalue, hmore⟩ :=
          exists_hasValue_of_arguments hresolved h
        · exact ⟨[], rfl, .nil⟩
        · obtain ⟨items, others, rfl, hvalues, rfl⟩ := exists_of_more hresolved.tail hmore
          exact ⟨item :: items, by rw [intersperse_cons]; rfl, .cons hvalue hvalues⟩
  · rintro ⟨items, rfl, hvalues⟩
    cases hvalues with
    | nil => rfl
    | @cons item value items values hitem hitems =>
        rw [intersperse_cons] at hresolved ⊢
        have hmem : ∀ other ∈ items, other ∈ item :: behindCommas items ++ .closing :: rest :=
          fun other hother => by simp [mem_behindCommas hother]
        rw [List.cons_append, arguments_of_hasValue hresolved (by simp) hitem,
          more_of_hasValue hresolved hmem hitems]

/-! ### Directives -/

/-- A lexeme is passed over exactly if it is the expected one. -/
theorem after_eq_ok_iff (expected : Lexeme) {reason : DirectiveError}
    (h : ∀ text, expected ≠ .unknown text) :
    after expected reason lexemes = .ok rest ↔ lexemes = expected :: rest := by
  cases lexemes with
  | nil => exact iff_of_false nofun nofun
  | cons lexeme lexemes =>
      by_cases heq : lexeme = expected
      · subst heq
        have hafter : after lexeme reason (lexeme :: lexemes) = .ok lexemes := by
          cases lexeme with
          | unknown text => exact absurd rfl (h text)
          | target | colon | opening | closing | comma | literal | number | identifier =>
              rw [after, if_pos rfl]
              exact nofun
        simp [hafter]
      · refine iff_of_false (fun hafter => ?_) fun hcons => heq (List.cons.inj hcons).1
        cases lexeme with
        | unknown text => cases hafter
        | target | colon | opening | closing | comma | literal | number | identifier =>
            rw [after, if_neg heq] at hafter
            · cases hafter
            · exact nofun

/-- A name is read exactly if an identifier comes first. -/
theorem nameAndRest_eq_ok_iff {name : Text} :
    nameAndRest lexemes = .ok (name, rest) ↔ lexemes = .identifier name :: rest := by
  cases lexemes with
  | nil => exact iff_of_false nofun nofun
  | cons lexeme lexemes => cases lexeme <;> simp [nameAndRest]

/-- The end is reached exactly if no lexeme is left. -/
theorem atEnd_eq_ok_iff : atEnd lexemes = .ok () ↔ lexemes = [] := by
  cases lexemes with
  | nil => exact iff_of_true rfl rfl
  | cons lexeme lexemes => cases lexeme <;> simp [atEnd]

/-- **Which lexemes make up which directive.** -/
theorem ofLexemes_eq_ok_iff (hresolved : Resolved lexemes) {d : Directive} :
    ofLexemes lexemes = .ok d ↔ ∃ items values,
      lexemes = .target :: .colon :: .identifier d.name :: .opening ::
        (items.intersperse .comma ++ [.closing]) ∧
      List.Forall₂ HasValue items values ∧ d.value = Text.join ", ".toList values := by
  simp only [ofLexemes, bind_eq_ok_iff, Prod.exists, nameAndRest_eq_ok_iff,
    after_eq_ok_iff .target nofun, after_eq_ok_iff .colon nofun, after_eq_ok_iff .opening nofun]
  constructor
  · rintro ⟨_, rfl, _, rfl, name, _, rfl, last, rfl, values, rest, harguments, _, hend, hd⟩
    obtain rfl := atEnd_eq_ok_iff.1 hend
    obtain ⟨items, hitems, hvalues⟩ :=
      (arguments_eq_ok_iff hresolved.tail.tail.tail.tail).1 harguments
    obtain rfl := Except.ok.inj hd
    exact ⟨items, values, by rw [hitems], hvalues, rfl⟩
  · rintro ⟨items, values, rfl, hvalues, hvalue⟩
    have harguments := (arguments_eq_ok_iff hresolved.tail.tail.tail.tail).2 ⟨items, rfl, hvalues⟩
    refine ⟨_, rfl, _, rfl, d.name, _, rfl, _, rfl, values, [], harguments, (), rfl, ?_⟩
    rw [← hvalue]
    rfl

/-- The lexemes of a text are resolved. -/
theorem resolved_list (t : Text) : Resolved (Lexeme.list t) :=
  fun _ hmem => Lexeme.content_eq_unescape hmem

/-- **What has a value**: an argument, if its escapes can be resolved. Without a backslash, there
are none. -/
theorem exists_hasValue_iff {t : Text} (hmem : item ∈ Lexeme.list t) :
    (∃ value, HasValue item value) ↔ IsArgument item ∧ ∀ literal, item = .literal literal →
      '\\' ∈ literal → ∃ value, Literal.unescape literal = .ok value := by
  cases item with
  | number digits => exact iff_of_true ⟨digits, rfl⟩ ⟨trivial, nofun⟩
  | literal literal =>
      constructor
      · rintro ⟨value, hvalue⟩
        exact ⟨trivial, fun other heq _ => ⟨value, Lexeme.literal.inj heq ▸ hvalue⟩⟩
      · rintro ⟨-, hescapes⟩
        by_cases hslash : '\\' ∈ literal
        · exact hescapes literal rfl hslash
        · exact ⟨_, Lexeme.unescape_of_clear hmem hslash⟩
  | target | colon | opening | closing | comma | identifier | unknown =>
      exact iff_of_false (fun ⟨_, hvalue⟩ => hvalue) fun h => h.1

/-- Arguments have values if all their escapes can be resolved. -/
theorem exists_values_iff {t : Text} (hmem : ∀ item ∈ items, item ∈ Lexeme.list t) :
    (∃ values, List.Forall₂ HasValue items values) ↔ (∀ item ∈ items, IsArgument item) ∧
      ∀ literal, Lexeme.literal literal ∈ items → '\\' ∈ literal →
        ∃ value, Literal.unescape literal = .ok value := by
  rw [exists_forall₂_iff]
  constructor
  · intro h
    have hitems := fun item hitem => (exists_hasValue_iff (hmem item hitem)).1 (h item hitem)
    exact ⟨fun item hitem => (hitems item hitem).1,
      fun literal hitem => (hitems _ hitem).2 literal rfl⟩
  · rintro ⟨harguments, hescapes⟩ item hitem
    exact (exists_hasValue_iff (hmem item hitem)).2
      ⟨harguments item hitem, fun literal heq => hescapes literal (heq ▸ hitem)⟩

/-- In a directive, every lexeme is one that is known. -/
theorem unknown_not_mem {name text : Text} (hitems : ∀ item ∈ items, IsArgument item) :
    .unknown text ∉ Lexeme.target :: .colon :: .identifier name :: .opening ::
      (items.intersperse .comma ++ [.closing]) := by
  intro hmem
  simp only [List.mem_cons, List.mem_append, List.not_mem_nil, reduceCtorEq, false_or,
    or_false] at hmem
  rcases mem_or_eq_of_mem_intersperse hmem with hitem | habsurd
  · exact hitems _ hitem
  · cases habsurd

/-- **Whether lexemes make up a directive**: if they stand in the right order, and all the escapes
can be resolved. -/
theorem exists_ofLexemes_iff {t : Text} :
    (∃ d, ofLexemes (Lexeme.list t) = .ok d) ↔ ∃ (name : Text) (items : List Lexeme),
      Lexeme.list t = .target :: .colon :: .identifier name :: .opening ::
        (items.intersperse .comma ++ [.closing]) ∧
      (∀ item ∈ items, IsArgument item) ∧
      ∀ literal, Lexeme.literal literal ∈ items → '\\' ∈ literal →
        ∃ value, Literal.unescape literal = .ok value := by
  have hmem : ∀ {name : Text} {items : List Lexeme}, Lexeme.list t = .target :: .colon ::
      .identifier name :: .opening :: (items.intersperse .comma ++ [.closing]) →
      ∀ item ∈ items, item ∈ Lexeme.list t := by
    intro name items hlist item hitem
    rw [hlist]
    simp [mem_intersperse hitem]
  constructor
  · rintro ⟨d, hd⟩
    obtain ⟨items, values, hlist, hvalues, -⟩ := (ofLexemes_eq_ok_iff (resolved_list t)).1 hd
    exact ⟨d.name, items, hlist, (exists_values_iff (hmem hlist)).1 ⟨values, hvalues⟩⟩
  · rintro ⟨name, items, hlist, harguments⟩
    obtain ⟨values, hvalues⟩ := (exists_values_iff (hmem hlist)).2 harguments
    exact ⟨⟨name, Text.join ", ".toList values⟩,
      (ofLexemes_eq_ok_iff (resolved_list t)).2 ⟨items, values, hlist, hvalues, rfl⟩⟩

end Directive

/-! ### Lines -/

namespace Guide

open Directive Reader

/-- A line is read as the directive that its lexemes make, whatever its number. -/
theorem directiveAt_eq_ok_iff {line : Nat} {t : Text} {d : Directive} :
    directiveAt line t = .ok d ↔ ofLexemes (Lexeme.list t) = .ok d := by
  rw [directiveAt, Directive.parse]
  cases ofLexemes (Lexeme.list t) <;> simp [fail]

/-- A text that is no directive is rejected as such, with its line. -/
theorem line_and_message_of_error {line : Nat} {t : Text} {e : Error}
    (h : directiveAt line t = .error e) :
    e.line = line ∧ "malformed directive".toList <+: e.fault.message := by
  rw [directiveAt] at h
  split at h
  · next reason _ =>
    obtain rfl := Except.error.inj h
    have hmessage : "malformed directive `".toList ++ Text.trim t ++ "`: ".toList ++
        reason.message = Fault.message (.directive (Text.trim t) reason) := rfl
    rw [← hmessage, List.append_assoc, List.append_assoc]
    exact ⟨rfl, List.IsPrefix.trans (by decide) (List.prefix_append _ _)⟩
  · cases h

/-- **The grammar of directives.** A text is a directive if its lexemes are those of one, in the
right order and with nothing behind them, and the escapes of its literals can be resolved; its value
is that of its arguments, in order. A text that is none is rejected with the line that it is said to
stand at. A literal without a backslash is its own content. -/
theorem directiveAt_accepts_exactly (line : Nat) (t : Text) :
    ((∃ d, directiveAt line t = .ok d) ↔ (∀ text, .unknown text ∉ Lexeme.list t) ∧
      ∃ (name : Text) (items : List Lexeme),
        Lexeme.list t = .target :: .colon :: .identifier name :: .opening ::
          (items.intersperse .comma ++ [.closing]) ∧
        (∀ item ∈ items, IsArgument item) ∧
        ∀ literal, Lexeme.literal literal ∈ items → '\\' ∈ literal →
          ∃ value, Literal.unescape literal = .ok value) ∧
    (∀ d, directiveAt line t = .ok d ↔ ∃ (items : List Lexeme) (values : List Text),
      Lexeme.list t = .target :: .colon :: .identifier d.name :: .opening ::
        (items.intersperse .comma ++ [.closing]) ∧
      List.Forall₂ HasValue items values ∧ d.value = Text.join ", ".toList values) ∧
    (∀ e, directiveAt line t = .error e →
      e.line = line ∧ "malformed directive".toList <+: e.fault.message) ∧
    ∀ literal, .literal literal ∈ Lexeme.list t → '\\' ∉ literal →
      Literal.content literal = .ok (Literal.inner literal) ∧
        Literal.unescape literal = .ok (Literal.inner literal) := by
  refine ⟨?_, fun d => directiveAt_eq_ok_iff.trans (ofLexemes_eq_ok_iff (resolved_list t)),
    fun e => line_and_message_of_error, fun literal hmem hslash => ?_⟩
  · simp only [directiveAt_eq_ok_iff, exists_ofLexemes_iff]
    refine ⟨?_, And.right⟩
    rintro ⟨name, items, hlist, harguments, hescapes⟩
    exact ⟨fun text => hlist ▸ unknown_not_mem harguments, name, items, hlist, harguments, hescapes⟩
  · have hclear := Lexeme.unescape_of_clear hmem hslash
    exact ⟨(Lexeme.content_eq_unescape hmem).trans hclear, hclear⟩

/-- A quote behind a backslash does not end its literal, and a comma in a literal separates
nothing. -/
theorem directiveAt_accepts_escaped_quote :
    directiveAt 3 "@file:Title( \"a\\\", b\",-3)".toList =
      .ok ⟨"Title".toList, "a\", b, -3".toList⟩ := by
  have hlist : Lexeme.list "@file:Title( \"a\\\", b\",-3)".toList =
      [.target, .colon, .identifier "Title".toList, .opening, .literal "\"a\\\", b\"".toList,
        .comma, .number "-3".toList, .closing] := by decide +kernel
  have hfirst : Literal.unescape "\"a\\\", b\"".toList = .ok "a\", b".toList := by
    decide +kernel
  obtain ⟨-, haccepts, -, -⟩ := directiveAt_accepts_exactly 3
    "@file:Title( \"a\\\", b\",-3)".toList
  exact (haccepts _).2 ⟨[.literal "\"a\\\", b\"".toList, .number "-3".toList],
    ["a\", b".toList, "-3".toList], hlist, .cons hfirst (.cons rfl .nil), rfl⟩

end Guide

end Guidebook
