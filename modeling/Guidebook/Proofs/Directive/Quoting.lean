import Guidebook.Directive.Basic
import Guidebook.Proofs.Text.Search

/-!
# Quoting and Reading Back

A value is written as a string literal by escaping the characters that a literal cannot hold as they
are: the backslash, the quote, and the two characters that end lines. Reading the literal gives the
value back, alone (`Literal.parse`) or as the argument of a directive (`Directive.parse`).

## Main results

* `Literal.content_quote`: the content of a quoted value is the value.
* `Lexeme.list_quote_append`: a quoted value is one lexeme, whatever follows it.
* `Literal.parse_quote`, `Directive.parse_print`: **quoting and reading back**.
-/

namespace Guidebook

/-! ### Writing -/

namespace Literal

/-- How a character is written in a literal. -/
def escape (c : Char) : Text :=
  if c = '\\' then ['\\', '\\']
  else if c = '"' then ['\\', '"']
  else if c = '\n' then ['\\', 'n']
  else if c = '\r' then ['\\', 'r']
  else [c]

/-- A text as it is written between the quotes of a literal. -/
def escaped (value : Text) : Text :=
  value.flatMap escape

/-- A text as a string literal. -/
def quote (value : Text) : Text :=
  '"' :: escaped value ++ ['"']

/-- Characters are escaped one by one. -/
theorem escaped_cons (c : Char) (value : Text) : escaped (c :: value) = escape c ++ escaped value :=
  List.flatMap_cons

/-- A character is written as itself, or as a backslash and a letter that stands for it. -/
theorem escape_cases (c : Char) :
    (escape c = [c] ∧ c ≠ '\\' ∧ c ≠ '"' ∧ c ≠ '\n' ∧ c ≠ '\r') ∨
      ∃ letter, escape c = ['\\', letter] ∧ simpleEscape? letter = some c ∧ letter ≠ 'u' ∧
        letter ≠ '\n' ∧ letter ≠ '\r' := by
  unfold escape
  split
  · next h => exact .inr ⟨'\\', rfl, by rw [h]; rfl, by decide, by decide, by decide⟩
  · split
    · next h => exact .inr ⟨'"', rfl, by rw [h]; rfl, by decide, by decide, by decide⟩
    · split
      · next h => exact .inr ⟨'n', rfl, by rw [h]; rfl, by decide, by decide, by decide⟩
      · split
        · next h => exact .inr ⟨'r', rfl, by rw [h]; rfl, by decide, by decide, by decide⟩
        · next h₁ h₂ h₃ h₄ => exact .inl ⟨rfl, h₁, h₂, h₃, h₄⟩

/-- A written value holds no line end. -/
theorem not_mem_escaped {c : Char} (hc : c = '\n' ∨ c = '\r') (value : Text) :
    c ∉ escaped value := by
  intro hmem
  obtain ⟨d, -, hd⟩ := List.mem_flatMap.1 hmem
  rcases escape_cases d with ⟨heq, -, -, hfeed, hreturn⟩ | ⟨letter, heq, -, -, hfeed, hreturn⟩
  · rw [heq, List.mem_singleton] at hd
    subst hd
    exact hc.elim hfeed hreturn
  · rw [heq] at hd
    simp only [List.mem_cons, List.not_mem_nil, or_false] at hd
    rcases hc with rfl | rfl
    · exact hd.elim (by decide) (Ne.symm hfeed)
    · exact hd.elim (by decide) (Ne.symm hreturn)

/-- A quoted text holds no line end. -/
theorem not_mem_quote {c : Char} (hc : c = '\n' ∨ c = '\r') (value : Text) : c ∉ quote value := by
  have hquote : c ≠ '"' := by
    rintro rfl
    simp at hc
  simp [quote, not_mem_escaped hc, hquote]

/-! ### The content of a quoted value -/

/-- **Escapes are read back**: the content of an escaped text before a quote is the text. -/
theorem contentFrom_escaped (literal value : Text) (position : Nat) (rest : Text) :
    contentFrom literal position 0 (escaped value ++ '"' :: rest) = .ok value := by
  induction value generalizing position with
  | nil => rfl
  | cons c value ih =>
      rw [escaped_cons, List.append_assoc]
      rcases escape_cases c with ⟨heq, hslash, hquote, -⟩ | ⟨letter, heq, hletter, hu, -⟩
      · simp only [heq, List.singleton_append, contentFrom, hquote, hslash, if_false, ih]
        rfl
      · simp only [heq, List.cons_append, List.nil_append, contentFrom, hu, if_false, if_true,
          hletter, ih]
        rfl

/-- A value that is written without a backslash is written as it is. -/
theorem escaped_eq_self {value : Text} (h : '\\' ∉ escaped value) : escaped value = value := by
  induction value with
  | nil => rfl
  | cons c value ih =>
      rw [escaped_cons, List.mem_append, not_or] at h
      rw [escaped_cons, ih h.2]
      rcases escape_cases c with ⟨heq, -⟩ | ⟨letter, heq, -⟩
      · rw [heq]
        rfl
      · rw [heq] at h
        simp at h

/-- Between the quotes of a quoted text stands the escaped text. -/
theorem inner_quote (value : Text) : inner (quote value) = escaped value := by
  rw [inner, quote, List.cons_append, List.tail_cons, List.dropLast_concat]

/-- **The content of a quoted value** is the value. -/
theorem content_quote (value : Text) : content (quote value) = .ok value := by
  rw [content, inner_quote]
  split
  · exact contentFrom_escaped _ value 1 []
  · next h => rw [escaped_eq_self h]

end Literal

/-! ### Lexemes -/

namespace Lexeme

/-- The characters that belong to a lexeme already are passed over. -/
theorem listFrom_append (front rest : Text) :
    listFrom front.length (front ++ rest) = list rest := by
  induction front with
  | nil => rfl
  | cons c front ih => exact ih

/-- One lexeme, and the lexemes of what follows it. -/
theorem list_cons_append {c : Char} {front rest : Text} {lexeme : Lexeme}
    (hc : isSeparator c = false) (h : first c (front ++ rest) = (lexeme, front.length)) :
    list (c :: front ++ rest) = lexeme :: list rest := by
  rw [list, List.cons_append, listFrom, hc, h]
  simp [listFrom_append]

/-- A written value and the quote behind it are what belongs to the literal. -/
theorem literalLength_escaped (value rest : Text) :
    literalLength (Literal.escaped value ++ '"' :: rest) =
      ((Literal.escaped value).length + 1, true) := by
  induction value with
  | nil => rfl
  | cons c value ih =>
      rw [Literal.escaped_cons, List.append_assoc]
      rcases Literal.escape_cases c with ⟨heq, hslash, hquote, -⟩ | ⟨letter, heq, -, -, hfeed, -⟩
      · rw [heq, List.singleton_append, literalLength, if_neg hquote, ih]
        · simp
        all_goals simp [hslash]
      · rw [heq, List.cons_append, List.cons_append, List.nil_append, literalLength, if_neg hfeed,
          ih]
        simp

/-- **A quoted value** is one lexeme, whatever follows it. -/
theorem list_quote_append (value rest : Text) :
    list (Literal.quote value ++ rest) = .literal (Literal.quote value) :: list rest := by
  have hfirst : first '"' (Literal.escaped value ++ ['"'] ++ rest) =
      (.literal (Literal.quote value), (Literal.escaped value ++ ['"']).length) := by
    have hbody : Literal.escaped value ++ ['"'] ++ rest =
        Literal.escaped value ++ '"' :: rest := by simp
    have htake : (Literal.escaped value ++ '"' :: rest).take
        ((Literal.escaped value).length + 1) = Literal.escaped value ++ ['"'] := by
      rw [← hbody]
      exact List.take_left' (by simp)
    rw [hbody, first, if_neg (by decide), if_neg (by decide), if_neg (by decide),
      if_neg (by decide), if_neg (by decide), if_pos rfl]
    simp only [literalLength_escaped value rest, htake, List.length_append,
      List.length_singleton]
    rfl
  exact list_cons_append (by decide) hfirst

/-- A name: a letter or `_`, and then letters, digits, `_` and dots. -/
def IsName (name : Text) : Prop :=
  ∃ c rest, name = c :: rest ∧ beginsIdentifier c = true ∧ ∀ d ∈ rest, continuesIdentifier d = true

/-- A character that can begin an identifier begins no other lexeme. -/
theorem first_of_begins {c : Char} (hc : beginsIdentifier c = true) (rest : Text) :
    first c rest = (.identifier (c :: rest.takeWhile continuesIdentifier),
      (rest.takeWhile continuesIdentifier).length) ∧ isSeparator c = false := by
  have hne : ∀ d, beginsIdentifier d = false → c ≠ d := by
    rintro d hd rfl
    exact absurd (hd.symm.trans hc) (by decide)
  have hdigit : c.isDigit = false := by
    rw [Bool.eq_false_iff]
    intro hdigit
    have hle : c.toNat ≤ '9'.toNat := by
      obtain ⟨-, hle⟩ := Bool.and_eq_true_iff.1 hdigit
      exact of_decide_eq_true hle
    -- letters and `_` come behind the digits
    rcases Bool.or_eq_true_iff.1 hc with halpha | hline
    · rcases Bool.or_eq_true_iff.1 halpha with hupper | hlower
      · have hge : 'A'.toNat ≤ c.toNat := (of_decide_eq_true hupper).1
        exact absurd (hge.trans hle) (by decide)
      · obtain ⟨hge, -⟩ := Bool.and_eq_true_iff.1 hlower
        have hge : 'a'.toNat ≤ c.toNat := of_decide_eq_true hge
        exact absurd (hge.trans hle) (by decide)
    · rw [of_decide_eq_true hline] at hle
      exact absurd hle (by decide)
  constructor
  · simp only [first, hdigit, hne '@' (by decide), hne ':' (by decide), hne '(' (by decide),
      hne ')' (by decide), hne ',' (by decide), hne '"' (by decide), hne '-' (by decide), hc,
      if_false, if_true, Bool.false_eq_true]
  · simp only [isSeparator, hne ' ' (by decide), hne '\t' (by decide), hne '\r' (by decide),
      decide_false, Bool.or_false]

/-- A name is one lexeme, if what follows it does not go on with it. -/
theorem list_name_append {name rest : Text} (h : IsName name)
    (hrest : ∀ c ∈ rest.head?, continuesIdentifier c = false) :
    list (name ++ rest) = .identifier name :: list rest := by
  obtain ⟨c, more, rfl, hc, hmore⟩ := h
  have htake : (more ++ rest).takeWhile continuesIdentifier = more := by
    rw [List.takeWhile_append_of_pos hmore]
    cases rest with
    | nil => simp
    | cons d rest => simp [hrest d rfl]
  obtain ⟨hfirst, hseparator⟩ := first_of_begins hc (more ++ rest)
  rw [htake] at hfirst
  exact list_cons_append hseparator hfirst

end Lexeme

/-! ### Reading back -/

/-- **A quoted value is read back.** -/
theorem Literal.parse_quote (value : Text) : parse (quote value) = .ok value := by
  have hlist : Lexeme.list (quote value) = [.literal (quote value)] := by
    have happend := Lexeme.list_quote_append value []
    rwa [List.append_nil] at happend
  rw [parse, if_pos hlist, content_quote]

namespace Directive

/-- A directive with one argument, as it is written. -/
def print (name value : Text) : Text :=
  "@file:".toList ++ name ++ '(' :: Literal.quote value ++ [')']

/-- A printed directive begins with `@file:`. -/
theorem target_print (name value : Text) : "@file:".toList <+: print name value := by
  unfold print
  exact ⟨name ++ '(' :: Literal.quote value ++ [')'], by simp only [List.append_assoc]⟩

/-- There is no blank at either end of a printed directive. -/
theorem isTrimmed_print (name value : Text) : Text.IsTrimmed (print name value) :=
  Text.isTrimmed_of_ends (c := '@') (by decide)
    ("file:".toList ++ name ++ '(' :: Literal.quote value) (by decide)

/-- A written directive holds no line end. -/
theorem not_mem_print {c : Char} (hc : c = '\n' ∨ c = '\r') {name : Text}
    (hname : Lexeme.IsName name) (value : Text) : c ∉ print name value := by
  have hcontinues : Lexeme.continuesIdentifier c = false := by
    rcases hc with rfl | rfl <;> decide
  have hmem : c ∉ name := by
    obtain ⟨d, rest, rfl, hd, hrest⟩ := hname
    rw [List.mem_cons, not_or]
    constructor
    · rintro rfl
      rcases hc with rfl | rfl <;> exact absurd hd (by decide)
    · exact fun hin => absurd ((hrest c hin).symm.trans hcontinues) (by decide)
  have htarget : c ∉ "@file:".toList := by rcases hc with rfl | rfl <;> decide
  have hends : c ≠ '(' ∧ c ≠ ')' := by rcases hc with rfl | rfl <;> decide
  unfold print
  simp only [List.mem_append, List.mem_cons, List.not_mem_nil, not_or, or_false]
  exact ⟨⟨⟨htarget, hmem⟩, hends.1, Literal.not_mem_quote hc value⟩, hends.2⟩

/-- The lexemes of a directive: its front, up to the opening parenthesis, and its arguments. -/
theorem list_front {name : Text} (hname : Lexeme.IsName name) (arguments tail : Text) :
    Lexeme.list ("@file:".toList ++ name ++ '(' :: arguments ++ tail) =
      .target :: .colon :: .identifier name :: .opening :: Lexeme.list (arguments ++ tail) := by
  have htarget : ∀ rest, Lexeme.list ("@file:".toList ++ rest) =
      .target :: .colon :: Lexeme.list rest := by
    intro rest
    rw [show "@file:".toList = ['@', 'f', 'i', 'l', 'e', ':'] by decide]
    rfl
  have hopening : ∀ rest, Lexeme.list ('(' :: rest) = .opening :: Lexeme.list rest := fun _ => rfl
  have hrest : ∀ rest, Lexeme.list (name ++ '(' :: rest) =
      .identifier name :: Lexeme.list ('(' :: rest) := by
    refine fun rest => Lexeme.list_name_append hname fun c hc => ?_
    rw [List.head?_cons, Option.mem_some_iff] at hc
    rw [← hc]
    decide
  rw [List.append_assoc, List.append_assoc, htarget, List.cons_append, hrest, hopening]

/-- The lexemes of a written directive. -/
theorem list_print {name : Text} (hname : Lexeme.IsName name) (value : Text) :
    Lexeme.list (print name value) =
      [.target, .colon, .identifier name, .opening, .literal (Literal.quote value), .closing] := by
  unfold print
  rw [list_front hname, Lexeme.list_quote_append]
  rfl

/-- **A directive is read back.** -/
theorem parse_print {name : Text} (hname : Lexeme.IsName name) (value : Text) :
    parse (print name value) = .ok ⟨name, value⟩ := by
  have hargument : arguments true [.literal (Literal.quote value), .closing] =
      .ok ([value], []) := by
    rw [arguments, Literal.content_quote]
    rfl
  rw [parse, list_print hname, ofLexemes]
  simp only [after, nameAndRest, if_true, hargument, bind, Except.bind]
  rfl

end Directive

end Guidebook
