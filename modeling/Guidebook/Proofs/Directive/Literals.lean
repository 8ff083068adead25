import Guidebook.Proofs.Directive.Grammar
import Guidebook.Proofs.Directive.Quoting

/-!
# Literals in Both Places

A string literal stands alone, as the path of an image or video, or as an argument of a directive.
In both places it is the same lexeme, because a literal ends with the quote that closes it,
whatever comes next; and in both places its content is the same. So what a text means as a literal
of its own is what the directive with that text as its only argument has as its value. A quoted
text means the text, in both places, and a directive with quoted texts as arguments has these
texts as its value.

## Main results

* `Lexeme.list_literal_append`: a literal is one lexeme, **whatever follows it**.
* `Directive.directiveAt_withArguments_iff`: a literal as the only argument of a directive.
* `Directive.directiveAt_printAll`: quoted texts as the arguments of a directive.
* `Directive.literals_agree`: string literals mean the same everywhere.
-/

namespace Guidebook

/-! ### A literal as a lexeme -/

namespace Lexeme

/-- No more characters belong to a literal than there are. -/
theorem literalLength_le (t : Text) : (literalLength t).1 ≤ t.length := by
  fun_induction literalLength t with
  | case1 => exact le_refl 0
  | case2 => exact le_refl 1
  | case3 rest => simp
  | case4 c rest hc length closed hrest ih =>
      simp only [hrest] at ih
      simp only [List.length_cons]
      omega
  | case5 => simp
  | case6 c rest hend hpair hc length closed hrest ih =>
      simp only [hrest] at ih
      simp only [List.length_cons]
      omega

/-- A literal that is closed is closed at the same place, **whatever follows**. -/
theorem literalLength_append {t : Text} {length : Nat} (h : literalLength t = (length, true))
    (rest : Text) : literalLength (t ++ rest) = (length, true) := by
  induction t using literalLength.induct generalizing length with
  | case1 => cases h
  | case2 => cases h
  | case3 more => simp [literalLength] at h
  | case4 c more hc count closed hmore ih =>
      rw [literalLength, if_neg hc, hmore] at h
      obtain ⟨rfl, rfl⟩ := Prod.mk.inj h
      rw [List.cons_append, List.cons_append, literalLength, if_neg hc, ih hmore]
  | case5 more hend hpair =>
      rw [literalLength, if_pos rfl] at h
      · rw [List.cons_append, literalLength, if_pos rfl, h]
        all_goals simp
      · exact hend
      · exact hpair
  | case6 c more hend hpair hc count closed hmore ih =>
      rw [literalLength, if_neg hc, hmore] at h
      · obtain ⟨rfl, rfl⟩ := Prod.mk.inj h
        have hslash : c ≠ '\\' := by
          rintro rfl
          cases more with
          | nil => exact hend rfl rfl
          | cons d more => exact hpair d more rfl rfl
        rw [List.cons_append, literalLength, if_neg hc, ih hmore]
        all_goals simp [hslash]
      · exact hend
      · exact hpair

/-- What a text is that is one literal. -/
theorem literalLength_of_list {s : Text} (h : list s = [.literal s]) :
    ∃ body, s = '"' :: body ∧ literalLength body = (body.length, true) := by
  cases s with
  | nil => cases h
  | cons c body =>
      obtain rfl : c = '"' := by
        by_contra hc
        exact list_ne_literal hc body h
      rw [list, listFrom, if_neg (by decide)] at h
      have hfirst : (first '"' body).1 = .literal ('"' :: body) := (List.cons.inj h).1
      obtain ⟨length, hlength, htake⟩ := literal_of_first hfirst
      have hle := literalLength_le body
      rw [hlength] at hle
      have heq : length = body.length := by
        have htaken := congrArg List.length (List.cons.inj htake).2
        rw [List.length_take] at htaken
        omega
      exact ⟨body, rfl, heq ▸ hlength⟩

/-- **A literal** is one lexeme, whatever follows it. -/
theorem list_literal_append {s : Text} (h : list s = [.literal s]) (rest : Text) :
    list (s ++ rest) = .literal s :: list rest := by
  obtain ⟨body, rfl, hlength⟩ := literalLength_of_list h
  have hfirst : first '"' (body ++ rest) = (.literal ('"' :: body), body.length) := by
    rw [first, if_neg (by decide), if_neg (by decide), if_neg (by decide), if_neg (by decide),
      if_neg (by decide), if_pos rfl]
    simp only [literalLength_append hlength rest, List.take_left]
  exact list_cons_append (by decide) hfirst

/-- Separators are no lexemes. -/
theorem list_separators_append {front : Text} (h : ∀ c ∈ front, isSeparator c = true)
    (rest : Text) : list (front ++ rest) = list rest := by
  induction front with
  | nil => rfl
  | cons c front ih =>
      obtain ⟨hc, hfront⟩ := List.forall_mem_cons.1 h
      rw [List.cons_append, list, listFrom, if_pos hc]
      exact ih hfront

end Lexeme

/-! ### A literal as an argument -/

namespace Directive

open Guide Guide.Reader

/-- A directive whose arguments are written as the given text. -/
def withArguments (name arguments : Text) : Text :=
  "@file:".toList ++ name ++ '(' :: arguments ++ [')']

/-- A directive whose arguments are quoted texts. Each comma stands between `before` and `after`. -/
def printAll (name before after : Text) (values : List Text) : Text :=
  withArguments name (Text.join (before ++ ',' :: after) (values.map Literal.quote))

variable {name : Text} {line : Nat}

/-- A directive begins with five lexemes, and its arguments follow. -/
theorem list_withArguments (hname : Lexeme.IsName name) (arguments : Text) :
    Lexeme.list (withArguments name arguments) =
      .target :: .colon :: .identifier name :: .opening :: Lexeme.list (arguments ++ [')']) :=
  list_front hname arguments [')']

/-- A directive with a literal as its only argument has the content of the literal as its value. -/
theorem ofLexemes_literal (name literal : Text) :
    ofLexemes [.target, .colon, .identifier name, .opening, .literal literal, .closing] =
      ((Literal.content literal).mapError .escape).map fun value => ⟨name, value⟩ := by
  cases hcontent : Literal.content literal with
  | error e =>
      have harguments : arguments true [.literal literal, .closing] = .error (.escape e) := by
        rw [arguments, hcontent]
      simp only [ofLexemes, after, nameAndRest, if_true, harguments, bind, Except.bind]
      rfl
  | ok value =>
      have harguments : arguments true [.literal literal, .closing] = .ok ([value], []) := by
        rw [arguments, hcontent]
        rfl
      simp only [ofLexemes, after, nameAndRest, if_true, harguments, bind, Except.bind]
      rfl

/-- **A literal by itself** is a text with one lexeme, whose content is the value. -/
theorem parse_eq_ok_iff {s value : Text} :
    Literal.parse s = .ok value ↔ Lexeme.list s = [.literal s] ∧ Literal.content s = .ok value := by
  rw [Literal.parse]
  split
  · next h => cases Literal.content s <;> simp [h]
  · next h => simp [h]

/-- **A literal as the only argument** of a directive: the value of the directive is what the
literal means when it stands alone. -/
theorem directiveAt_withArguments_iff (hname : Lexeme.IsName name) {s : Text}
    (hs : Lexeme.list s = [.literal s]) {d : Directive} :
    directiveAt line (withArguments name s) = .ok d ↔
      d.name = name ∧ Literal.parse s = .ok d.value := by
  have hlist : Lexeme.list (withArguments name s) =
      [.target, .colon, .identifier name, .opening, .literal s, .closing] := by
    rw [list_withArguments hname, Lexeme.list_literal_append hs]
    rfl
  rw [directiveAt_eq_ok_iff, hlist, ofLexemes_literal, parse_eq_ok_iff]
  obtain ⟨dname, dvalue⟩ := d
  cases Literal.content s with
  | error e => simp [Except.mapError, Except.map]
  | ok value => simp [Except.mapError, Except.map, hs, eq_comm]

/-- Quoted texts are arguments, separated by commas. -/
theorem list_quotes {before after : Text} (hbefore : ∀ c ∈ before, Lexeme.isSeparator c = true)
    (hafter : ∀ c ∈ after, Lexeme.isSeparator c = true) (values : List Text) :
    Lexeme.list (Text.join (before ++ ',' :: after) (values.map Literal.quote) ++ [')']) =
      (values.map fun value => .literal (Literal.quote value)).intersperse .comma ++
        [.closing] := by
  have hcomma : ∀ rest, Lexeme.list (before ++ ',' :: after ++ rest) =
      .comma :: Lexeme.list rest := by
    intro rest
    have hnext : ∀ rest, Lexeme.list (',' :: rest) = .comma :: Lexeme.list rest := fun _ => rfl
    rw [List.append_assoc, Lexeme.list_separators_append hbefore, List.cons_append, hnext,
      Lexeme.list_separators_append hafter]
  induction values with
  | nil => rfl
  | cons value values ih =>
      cases values with
      | nil => exact Lexeme.list_quote_append value [')']
      | cons next values =>
          rw [List.map_cons] at ih
          rw [List.map_cons, List.map_cons, Text.join, List.append_assoc, List.append_assoc,
            Lexeme.list_quote_append, hcomma, ih]
          rfl

/-- **Quoted texts as the arguments** of a directive: its value is these texts, in order. -/
theorem directiveAt_printAll (hname : Lexeme.IsName name) {before after : Text}
    (hbefore : ∀ c ∈ before, Lexeme.isSeparator c = true)
    (hafter : ∀ c ∈ after, Lexeme.isSeparator c = true) (values : List Text) :
    directiveAt line (printAll name before after values) =
      .ok ⟨name, Text.join ", ".toList values⟩ := by
  have hvalues : List.Forall₂ HasValue
      (values.map fun value => .literal (Literal.quote value)) values := by
    rw [List.forall₂_map_left_iff, List.forall₂_same]
    exact fun value _ => Literal.contentFrom_escaped _ value 1 []
  rw [directiveAt_eq_ok_iff, ofLexemes_eq_ok_iff (resolved_list _)]
  refine ⟨_, values, ?_, hvalues, rfl⟩
  rw [printAll, list_withArguments hname, list_quotes hbefore hafter]

/-- **String literals mean the same everywhere.** What a text means as a literal of its own, the
directive with that text as its only argument has as its value; and if a text is one literal, it has
no other value there. A quoted text means the text in both places, and a directive with quoted texts
as its arguments has as its value these texts, separated by commas. -/
theorem literals_agree (hname : Lexeme.IsName name) (line : Nat) :
    (∀ s value, Literal.parse s = .ok value →
      directiveAt line (withArguments name s) = .ok ⟨name, value⟩) ∧
    (∀ s d, Lexeme.list s = [.literal s] → directiveAt line (withArguments name s) = .ok d →
      Literal.parse s = .ok d.value) ∧
    (∀ value, Literal.parse (Literal.quote value) = .ok value ∧
      directiveAt line (withArguments name (Literal.quote value)) = .ok ⟨name, value⟩) ∧
    ∀ before after values, (∀ c ∈ before, Lexeme.isSeparator c = true) →
      (∀ c ∈ after, Lexeme.isSeparator c = true) →
      directiveAt line (printAll name before after values) =
        .ok ⟨name, Text.join ", ".toList values⟩ := by
  have hargument : ∀ s value, Literal.parse s = .ok value →
      directiveAt line (withArguments name s) = .ok ⟨name, value⟩ := fun s value h =>
    (directiveAt_withArguments_iff hname (parse_eq_ok_iff.1 h).1).2 ⟨rfl, h⟩
  refine ⟨hargument, fun s d hs h => ((directiveAt_withArguments_iff hname hs).1 h).2,
    fun value => ?_, fun before after values hbefore hafter =>
      directiveAt_printAll hname hbefore hafter values⟩
  have hquote := Literal.parse_quote value
  exact ⟨hquote, hargument _ value hquote⟩

/-- A literal in which a quote, a parenthesis and escapes stand. -/
def literalWithEscapes : Text :=
  "\"a\\\" \\u\x7be9\x7d)\"".toList

/-- Escapes, in a literal that stands alone and in one that is an argument; and two arguments, of
which the first holds a comma and a line feed. -/
theorem literals_agree_on_escapes :
    Lexeme.IsName "X".toList ∧ Lexeme.list literalWithEscapes = [.literal literalWithEscapes] ∧
    Literal.parse literalWithEscapes = .ok "a\" é)".toList ∧
    directiveAt 3 ("@file:X(".toList ++ literalWithEscapes ++ [')']) =
      .ok ⟨"X".toList, "a\" é)".toList⟩ ∧
    directiveAt 3 "@file:X(\"a,\\n\" ,\t\"b\")".toList = .ok ⟨"X".toList, "a,\n, b".toList⟩ := by
  have hname : Lexeme.IsName "X".toList := ⟨'X', [], by decide, by decide, by simp⟩
  have hlist : Lexeme.list literalWithEscapes = [.literal literalWithEscapes] := by
    decide +kernel
  have hvalue : Literal.parse literalWithEscapes = .ok "a\" é)".toList := by decide +kernel
  have hone : "@file:X(".toList ++ literalWithEscapes ++ [')'] =
      withArguments "X".toList literalWithEscapes := by decide +kernel
  have htwo : "@file:X(\"a,\\n\" ,\t\"b\")".toList =
      printAll "X".toList [' '] ['\t'] ["a,\n".toList, "b".toList] := by decide +kernel
  have hjoin : Text.join ", ".toList ["a,\n".toList, "b".toList] = "a,\n, b".toList := by decide
  have hblank : ∀ c ∈ [' '], Lexeme.isSeparator c = true := List.forall_mem_singleton.2 (by decide)
  have htab : ∀ c ∈ ['\t'], Lexeme.isSeparator c = true := List.forall_mem_singleton.2 (by decide)
  obtain ⟨halone, hback, -, hall⟩ := literals_agree hname 3
  have hdirective := halone _ _ hvalue
  refine ⟨hname, hlist, hback _ _ hlist hdirective, by rw [hone, hdirective], ?_⟩
  rw [htwo, hall [' '] ['\t'] _ hblank htab, hjoin]

end Directive

end Guidebook
