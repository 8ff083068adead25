import Guidebook.Proofs.Guide.BraceCount

/-!
# Comments and Raw Strings in Code

By the rules of the language, what stands in a comment is not code, whether the comment is behind
`//` or between `/*` and `*/`, where comments can stand in comments; and a raw string ends behind
the whole run of quotes that closes it, all of which but the last three belong to it.

The count of braces follows these rules for comments behind `//` only. It knows no others and takes
what they hold for code, and it ends a raw string at the first three quotes. So it goes wrong where
a comment holds a brace, a quote, an apostrophe or two slashes, and where a raw string is closed by
more than three quotes. Elsewhere it is right: on code that is *plain*, and on any code once
comments and the quotes in excess have been blanked.

That the count is right is a simulation: what it takes a zone for (`Lexical.Zone.seen`) is kept by
every character.

## Main results

* `Lexical.goThrough_of_isPlain`: the count is right on **plain code**.
* `Lexical.goThrough_blanked`: the count is right once **comments have been blanked**.
-/

namespace Guidebook

namespace Lexical

/-! ### The rules -/

/-- What a character of a text of code stands in. -/
inductive Zone where
  | code
  /-- A string or character literal; whether the character before it was an escaping backslash. -/
  | literal (delimiter : Char) (escaped : Bool)
  /-- A raw string. -/
  | raw
  /-- A comment behind `//`. -/
  | lineComment
  /-- A comment between `/*` and `*/`, with so many others around it. -/
  | comment (around : Nat)
  deriving DecidableEq, Repr

/-- What follows a character of code. -/
def Zone.inCode (c : Char) : Zone :=
  if c = '"' ∨ c = '\'' then .literal c false else .code

/-- What follows a character of a literal, which ends with its line at the latest. -/
def Zone.inLiteral (delimiter : Char) (escaped : Bool) (c : Char) : Zone :=
  if c = '\n' then .code
  else if escaped then .literal delimiter false
  else if c = '\\' then .literal delimiter true
  else if c = delimiter then .code
  else .literal delimiter false

/-- What follows a character of a comment behind `//`. -/
def Zone.inLineComment (c : Char) : Zone :=
  if c = '\n' then .code else .lineComment

/-- What follows the end of a comment. -/
def Zone.behindComment : Nat → Zone
  | 0 => .code
  | around + 1 => .comment around

/-- Where a text of code ends that begins in the given zone, and how many braces are open there. -/
def goThrough : Zone → Int → Text → Zone × Int
  | zone, depth, [] => (zone, depth)
  | .raw, depth, '"' :: '"' :: '"' :: rest =>
    if rest.head? = some '"' then goThrough .raw depth ('"' :: '"' :: rest)
    else goThrough .code depth rest
  | .raw, depth, _ :: rest => goThrough .raw depth rest
  | .lineComment, depth, c :: rest => goThrough (.inLineComment c) depth rest
  | .literal delimiter escaped, depth, c :: rest =>
    goThrough (.inLiteral delimiter escaped c) depth rest
  | .comment around, depth, '/' :: '*' :: rest => goThrough (.comment (around + 1)) depth rest
  | .comment around, depth, '*' :: '/' :: rest => goThrough (.behindComment around) depth rest
  | .comment around, depth, _ :: rest => goThrough (.comment around) depth rest
  | .code, depth, '"' :: '"' :: '"' :: rest => goThrough .raw depth rest
  | .code, depth, '/' :: '/' :: rest => goThrough .lineComment depth rest
  | .code, depth, '/' :: '*' :: rest => goThrough (.comment 0) depth rest
  | .code, depth, c :: rest => goThrough (.inCode c) (behindBrace depth c) rest

/-- The count behind a whole text of code. -/
def count (t : Text) : Braces :=
  ⟨(goThrough .code 0 t).2, (goThrough .code 0 t).1 = .raw⟩

/-- The text with a blank for each character of a comment between `/*` and `*/`, and for each quote
in front of the three that close a raw string. -/
def blanked : Zone → Text → Text
  | _, [] => []
  | .raw, '"' :: '"' :: '"' :: rest =>
    if rest.head? = some '"' then ' ' :: blanked .raw ('"' :: '"' :: rest)
    else '"' :: '"' :: '"' :: blanked .code rest
  | .raw, c :: rest => c :: blanked .raw rest
  | .lineComment, c :: rest => c :: blanked (.inLineComment c) rest
  | .literal delimiter escaped, c :: rest => c :: blanked (.inLiteral delimiter escaped c) rest
  | .comment around, '/' :: '*' :: rest => ' ' :: ' ' :: blanked (.comment (around + 1)) rest
  | .comment around, '*' :: '/' :: rest => ' ' :: ' ' :: blanked (.behindComment around) rest
  | .comment around, c :: rest => (if c = '\n' then '\n' else ' ') :: blanked (.comment around) rest
  | .code, '"' :: '"' :: '"' :: rest => '"' :: '"' :: '"' :: blanked .raw rest
  | .code, '/' :: '/' :: rest => '/' :: '/' :: blanked .lineComment rest
  | .code, '/' :: '*' :: rest => ' ' :: ' ' :: blanked (.comment 0) rest
  | .code, c :: rest => c :: blanked (.inCode c) rest

/-- Whether a character is neither a brace nor a delimiter of literals. -/
def isSilent (c : Char) : Bool :=
  c ≠ '"' && c ≠ '\'' && c ≠ '\x7b' && c ≠ '\x7d'

/-- Whether the comments between `/*` and `*/` hold no brace, quote or apostrophe, and no two
slashes in a row, the one that ends them included, and raw strings are closed by three quotes and no
more. -/
def isPlain : Zone → Text → Bool
  | _, [] => true
  | .raw, '"' :: '"' :: '"' :: rest => rest.head? ≠ some '"' && isPlain .code rest
  | .raw, _ :: rest => isPlain .raw rest
  | .lineComment, c :: rest => isPlain (.inLineComment c) rest
  | .literal delimiter escaped, c :: rest => isPlain (.inLiteral delimiter escaped c) rest
  | .comment around, '/' :: '*' :: rest => isPlain (.comment (around + 1)) rest
  | .comment around, '*' :: '/' :: rest =>
    rest.head? ≠ some '/' && isPlain (.behindComment around) rest
  | .comment around, c :: rest =>
    isSilent c && (c ≠ '/' || rest.head? ≠ some '/') && isPlain (.comment around) rest
  | .code, '"' :: '"' :: '"' :: rest => isPlain .raw rest
  | .code, '/' :: '/' :: rest => isPlain .lineComment rest
  | .code, '/' :: '*' :: rest => isPlain (.comment 0) rest
  | .code, c :: rest => isPlain (.inCode c) rest

/-! ### The count follows the rules -/

/-- What the count of braces takes the zone for. -/
def Zone.seen : Zone → CodeZone
  | .code => .code
  | .literal delimiter escaped => .literal delimiter escaped
  | .raw => .raw
  | .lineComment => .comment
  | .comment _ => .code

/-- A raw string is taken for one, and nothing else is. -/
theorem Zone.seen_eq_raw_iff {zone : Zone} : zone.seen = .raw ↔ zone = .raw := by
  cases zone <;> simp [seen]

section Steps

variable {c : Char} {rest : Text} (depth : Int)

/-- The count takes what follows a character of code for what it is. -/
theorem goThrough_seen_code (hquotes : ∀ more, c = '"' → rest = '"' :: '"' :: more → False)
    (hslashes : ∀ more, c = '/' → rest = '/' :: more → False) :
    CodeZone.goThrough .code depth (c :: rest) =
      CodeZone.goThrough (Zone.inCode c).seen (behindBrace depth c) rest := by
  rw [goThrough_code depth hquotes hslashes, CodeContext.inCode, Zone.inCode]
  split_ifs <;> rfl

/-- A character that is no brace and opens nothing is passed over as code. -/
theorem goThrough_seen_silent (hc : isSilent c = true)
    (hslashes : c ≠ '/' ∨ rest.head? ≠ some '/') :
    CodeZone.goThrough .code depth (c :: rest) = CodeZone.goThrough .code depth rest := by
  simp only [isSilent, ne_eq, Bool.and_eq_true, decide_eq_true_eq] at hc
  obtain ⟨⟨⟨hquote, hapostrophe⟩, hopen⟩, hclose⟩ := hc
  rw [goThrough_seen_code, Zone.inCode, if_neg (not_or.2 ⟨hquote, hapostrophe⟩), behindBrace,
    if_neg hopen, if_neg hclose]
  · rfl
  · exact fun _ heq _ => hquote heq
  · rintro more rfl rfl
    simp at hslashes

/-- The count takes what follows a character of a literal for what it is, the end of the line
included. -/
theorem goThrough_seen_literal (delimiter : Char) (escaped : Bool) (c : Char) :
    CodeZone.goThrough (.literal delimiter escaped) depth (c :: rest) =
      CodeZone.goThrough (Zone.inLiteral delimiter escaped c).seen depth rest := by
  by_cases hc : c = '\n'
  · rw [hc, goThrough_newline]
    rfl
  · rw [goThrough_literal depth delimiter escaped hc, CodeContext.inLiteral, Zone.inLiteral,
      if_neg hc]
    split_ifs <;> rfl

/-- The count takes what follows a character of a comment behind `//` for what it is. -/
theorem goThrough_seen_lineComment (c : Char) :
    CodeZone.goThrough .comment depth (c :: rest) =
      CodeZone.goThrough (Zone.inLineComment c).seen depth rest := by
  rw [goThrough_comment_cons, Zone.inLineComment]
  split_ifs <;> rfl

/-- Behind a comment the count goes on in code, whatever is around it. -/
theorem goThrough_seen_behindComment (around : Nat) :
    CodeZone.goThrough (Zone.behindComment around).seen depth rest =
      CodeZone.goThrough .code depth rest := by
  cases around <;> rfl

end Steps

/-- **Plain code is counted by the rules.** -/
theorem goThrough_of_isPlain (zone : Zone) (depth : Int) {t : Text} (h : isPlain zone t = true) :
    CodeZone.goThrough zone.seen depth t =
      ((goThrough zone depth t).1.seen, (goThrough zone depth t).2) := by
  fun_induction goThrough zone depth t with
  | case1 zone depth => rfl
  | case2 depth rest hmore ih => simp [isPlain, hmore] at h
  | case3 depth rest hmore ih =>
      rw [isPlain, Bool.and_eq_true] at h
      exact ih h.2
  | case4 depth c rest hquotes ih =>
      rw [isPlain] at h
      · rw [Zone.seen, goThrough_raw depth hquotes]
        exact ih h
      · exact hquotes
  | case5 depth c rest ih =>
      rw [isPlain] at h
      rw [Zone.seen, goThrough_seen_lineComment]
      exact ih h
  | case6 delimiter escaped depth c rest ih =>
      rw [isPlain] at h
      rw [Zone.seen, goThrough_seen_literal]
      exact ih h
  | case7 _ depth rest ih | case12 depth rest ih =>
      rw [isPlain] at h
      rw [Zone.seen, goThrough_seen_silent, goThrough_seen_silent]
      · exact ih h
      all_goals simp [isSilent]
  | case8 around depth rest ih =>
      rw [isPlain, Bool.and_eq_true, decide_eq_true_eq] at h
      have hrest := ih h.2
      rw [goThrough_seen_behindComment] at hrest
      rw [Zone.seen, goThrough_seen_silent, goThrough_seen_silent]
      · exact hrest
      · decide
      · exact .inr h.1
      all_goals simp [isSilent]
  | case9 around depth c rest hopens hcloses ih =>
      rw [isPlain, Bool.and_eq_true, Bool.and_eq_true, Bool.or_eq_true, decide_eq_true_eq,
        decide_eq_true_eq] at h
      · rw [Zone.seen, goThrough_seen_silent depth h.1.1 h.1.2]
        exact ih h.2
      · exact hopens
      · exact hcloses
  | case10 depth rest ih | case11 depth rest ih =>
      rw [isPlain] at h
      exact ih h
  | case13 depth c rest hquotes hslashes hopens ih =>
      rw [isPlain] at h
      · rw [Zone.seen, goThrough_seen_code depth hquotes hslashes]
        exact ih h
      · exact hquotes
      · exact hslashes
      · exact hopens

/-! ### Blanking comments -/

/-- A blanked text begins as the text does, or with a blank. -/
theorem head?_blanked (zone : Zone) (t : Text) :
    (blanked zone t).head? = t.head? ∨ (blanked zone t).head? = some ' ' := by
  fun_cases blanked zone t <;> simp
  split <;> simp_all

/-- If a blanked text begins with a character that is no blank, the text begins with it. -/
theorem head?_of_head?_blanked {zone : Zone} {t : Text} {c : Char} (hc : c ≠ ' ')
    (h : (blanked zone t).head? = some c) : t.head? = some c := by
  rcases head?_blanked zone t with hkept | hblank
  · rw [← hkept, h]
  · rw [hblank] at h
    exact absurd (Option.some.inj h).symm hc

/-- If a blanked text begins with two quotes, the text begins with them. -/
theorem exists_quotes_of_blanked {zone : Zone} {t more : Text}
    (h : blanked zone t = '"' :: '"' :: more) : ∃ more, t = '"' :: '"' :: more := by
  have hkept : ∀ {next : Zone} {c : Char} {rest : Text},
      c :: blanked next rest = '"' :: '"' :: more → ∃ more, c :: rest = '"' :: '"' :: more := by
    intro next c rest hcons
    obtain ⟨rfl, hrest⟩ := List.cons.inj hcons
    have hhead := head?_of_head?_blanked (by decide) (congrArg List.head? hrest)
    obtain ⟨more, rfl⟩ := List.head?_eq_some_iff.1 hhead
    exact ⟨more, rfl⟩
  revert h
  fun_cases blanked zone t with
  | case1 | case2 | case7 | case8 | case11 | case12 => exact fun h => by simp at h
  | case3 | case10 => exact fun _ => ⟨_, rfl⟩
  | case4 | case5 | case6 | case13 => exact hkept
  | case9 =>
      split
      · exact fun h => by simp at h
      · exact fun h => by simp at h

/-- **Code with blanks for its comments is counted by the rules.** -/
theorem goThrough_blanked (zone : Zone) (depth : Int) (t : Text) :
    CodeZone.goThrough zone.seen depth (blanked zone t) =
      ((goThrough zone depth t).1.seen, (goThrough zone depth t).2) := by
  have hblank : ∀ (depth : Int) (rest : Text),
      CodeZone.goThrough .code depth (' ' :: rest) = CodeZone.goThrough .code depth rest :=
    fun depth rest => goThrough_seen_silent depth (by decide) (.inl (by decide))
  fun_induction goThrough zone depth t with
  | case1 zone depth => rfl
  | case2 depth rest hmore ih =>
      rw [blanked, if_pos hmore, Zone.seen, goThrough_raw depth (by simp)]
      exact ih
  | case3 depth rest hmore ih =>
      rw [blanked, if_neg hmore]
      exact ih
  | case4 depth c rest hquotes ih =>
      rw [blanked, Zone.seen, goThrough_raw]
      · exact ih
      · rintro more rfl hmore
        obtain ⟨more, rfl⟩ := exists_quotes_of_blanked hmore
        exact hquotes more rfl rfl
      · exact hquotes
  | case5 depth c rest ih =>
      rw [blanked, Zone.seen, goThrough_seen_lineComment]
      exact ih
  | case6 delimiter escaped depth c rest ih =>
      rw [blanked, Zone.seen, goThrough_seen_literal]
      exact ih
  | case7 _ depth rest ih | case12 depth rest ih =>
      rw [blanked, Zone.seen, hblank, hblank]
      exact ih
  | case8 around depth rest ih =>
      rw [goThrough_seen_behindComment] at ih
      rw [blanked, Zone.seen, hblank, hblank]
      exact ih
  | case9 around depth c rest hopens hcloses ih =>
      rw [blanked, Zone.seen, goThrough_seen_silent]
      · exact ih
      · split <;> decide
      · refine .inl ?_
        split <;> decide
      · exact hopens
      · exact hcloses
  | case10 depth rest ih | case11 depth rest ih =>
      rw [blanked]
      exact ih
  | case13 depth c rest hquotes hslashes hopens ih =>
      rw [blanked, Zone.seen, goThrough_seen_code]
      · exact ih
      · rintro more rfl hmore
        obtain ⟨more, rfl⟩ := exists_quotes_of_blanked hmore
        exact hquotes more rfl rfl
      · rintro more rfl hmore
        have hhead := head?_of_head?_blanked (by decide) (congrArg List.head? hmore)
        obtain ⟨more, rfl⟩ := List.head?_eq_some_iff.1 hhead
        exact hslashes more rfl rfl
      · exact hquotes
      · exact hslashes
      · exact hopens

/-! ### Counts -/

/-- The count of a text is right if going through it ends in the right zone, as it is seen, with the
right depth. -/
theorem ofText_eq_count {t other : Text}
    (h : CodeZone.goThrough .code 0 other =
      ((goThrough .code 0 t).1.seen, (goThrough .code 0 t).2)) :
    Braces.ofText other = count t := by
  simp only [Braces.ofText, h, Braces.atEnd, count, Zone.seen_eq_raw_iff]

/-- The count of plain code is right. -/
theorem ofText_of_isPlain {t : Text} (h : isPlain .code t = true) :
    Braces.ofText t = count t :=
  ofText_eq_count (goThrough_of_isPlain .code 0 h)

/-- The count of blanked code is that of the code by the rules. -/
theorem ofText_blanked (t : Text) : Braces.ofText (blanked .code t) = count t :=
  ofText_eq_count (goThrough_blanked .code 0 t)

end Lexical

end Guidebook
