import Guidebook.Guide.Publication
import Guidebook.Proofs.Guide.CodeExtent
import Guidebook.Proofs.Guide.LexicalRules
import Guidebook.Proofs.Text.Pieces

/-!
# Where Plain Code Ends

By the rules of the language, code behind a marker goes on to the first line behind which it can
end: one is in no raw string and in no brace there. As far as it is plain, the reader finds this
line, because every part of plain code that ends with a line is plain. Where it is not, the reader
can go on over the end of the code or stop in front of it; behind the quotes that close a raw
string, their number decides what it takes the rest of the line for.

## Main results

* `Lexical.extends_iff_of_isPlain`: plain code **goes on as far as it does by the rules**.
* `Braces.scan_quotes`: what the count makes of a **run of quotes** in a raw string.
* `Guide.extent_of_plain_code`: where code ends by the rules, and how far it is read.
-/

namespace Guidebook

namespace Lexical

/-! ### Lines of plain code -/

/-- The lines of a text are counted one by one. -/
theorem foldl_splitOn (t : Text) :
    (Text.splitOn '\n' t).foldl Braces.addLine .start = Braces.ofText t := by
  have hlines : ∀ line ∈ Text.splitOn '\n' t, '\n' ∉ line := fun line hline =>
    Text.not_mem_of_mem_splitOn hline
  have hcount := Braces.after_eq_ofText hlines
  rwa [Text.join_splitOn] at hcount

/-- Plain code is plain up to the end of each of its lines. -/
theorem isPlain_of_append {zone : Zone} {t tail : Text} (htail : ∀ c ∈ tail.head?, c = '\n')
    (h : isPlain zone (t ++ tail) = true) : isPlain zone t = true := by
  have hhead : ∀ {rest : Text} {c : Char}, (rest ++ tail).head? ≠ some c → rest.head? ≠ some c := by
    intro rest c hne heq
    rw [List.head?_append, heq] at hne
    exact hne rfl
  -- what goes on over no line feed is not completed by the tail
  have hfront : ∀ {rest : Text} {p : Prop} (front : Text), '\n' ∉ front →
      (∀ more, p → rest = front ++ more → False) →
      ∀ more, p → rest ++ tail = front ++ more → False := by
    intro rest p front hfeed hnot more hp hmore
    obtain ⟨more, rfl⟩ := exists_append_of_append_eq front hmore fun c hc => htail c hc ▸ hfeed
    exact hnot more hp rfl
  fun_induction isPlain zone t with
  | case1 => rfl
  | case2 rest ih | case7 _ rest ih =>
      simp only [List.cons_append, isPlain, Bool.and_eq_true, decide_eq_true_eq] at h ⊢
      exact ⟨hhead h.1, ih h.2⟩
  | case3 c rest hquotes ih =>
      rw [List.cons_append, isPlain] at h
      · exact ih h
      · exact hfront ['"', '"'] (by decide) hquotes
  | case4 c rest ih | case5 _ _ c rest ih | case6 _ rest ih | case9 rest ih | case10 rest ih
  | case11 rest ih =>
      simp only [List.cons_append, isPlain] at h
      exact ih h
  | case8 around c rest hopens hcloses ih =>
      rw [List.cons_append, isPlain] at h
      · simp only [Bool.and_eq_true, Bool.or_eq_true, decide_eq_true_eq] at h ⊢
        exact ⟨⟨h.1.1, h.1.2.imp_right hhead⟩, ih h.2⟩
      · exact hfront ['*'] (by decide) hopens
      · exact hfront ['/'] (by decide) hcloses
  | case12 c rest hquotes hslashes hopens ih =>
      rw [List.cons_append, isPlain] at h
      · exact ih h
      · exact hfront ['"', '"'] (by decide) hquotes
      · exact hfront ['/'] (by decide) hslashes
      · exact hfront ['*'] (by decide) hopens

/-- The lines can be all of a block of code: one is in no raw string and in no brace behind them. -/
def CanEnd (lines : List Text) : Prop :=
  (count (Text.join ['\n'] lines)).inRaw = false ∧ (count (Text.join ['\n'] lines)).depth ≤ 0

/-- Code that begins with a line goes on for `n` more lines by the rules: it can end behind them,
and behind no fewer. -/
structure Extends (first : Text) (more : List Text) (n : Nat) : Prop where
  le : n ≤ more.length
  canEnd : CanEnd (first :: more.take n)
  least : ∀ m < n, ¬ CanEnd (first :: more.take m)

section Extents

variable {first : Text} {more : List Text} {n : Nat}

/-- The text of some lines begins with that of the first of them. -/
theorem exists_join_take (first : Text) (more : List Text) {m n : Nat} (h : m ≤ n) :
    ∃ tail : Text, (∀ c ∈ tail.head?, c = '\n') ∧
      Text.join ['\n'] (first :: more.take n) =
        Text.join ['\n'] (first :: more.take m) ++ tail := by
  have hprefix : more.take m <+: more.take n := List.take_prefix_take_left h
  obtain ⟨rest, hrest⟩ := hprefix
  rw [← hrest, ← List.cons_append]
  by_cases hnil : rest = []
  · exact ⟨[], by simp, by rw [hnil, List.append_nil, List.append_nil]⟩
  · refine ⟨'\n' :: Text.join ['\n'] rest, by simp, ?_⟩
    rw [Text.join_append (List.cons_ne_nil _ _) hnil]
    simp

/-- The first lines of plain code are plain. -/
theorem isPlain_take (h : isPlain .code (Text.join ['\n'] (first :: more.take n)) = true) {m : Nat}
    (hm : m ≤ n) : isPlain .code (Text.join ['\n'] (first :: more.take m)) = true := by
  obtain ⟨tail, htail, hjoin⟩ := exists_join_take first more hm
  exact isPlain_of_append htail (hjoin ▸ h)

/-- Plain code can end where it can end by the rules. -/
theorem canEnd_iff_of_isPlain {lines : List Text}
    (h : isPlain .code (Text.join ['\n'] lines) = true) :
    CanEnd lines ↔ Braces.CanEnd lines := by
  rw [CanEnd, Braces.CanEnd, ofText_of_isPlain h]

/-- **Plain code goes on as far as it does by the rules.** -/
theorem extends_iff_of_isPlain
    (h : isPlain .code (Text.join ['\n'] (first :: more.take n)) = true) :
    Extends first more n ↔ Braces.Extends first more n := by
  have hend : ∀ m ≤ n, CanEnd (first :: more.take m) ↔ Braces.CanEnd (first :: more.take m) :=
    fun m hm => canEnd_iff_of_isPlain (isPlain_take h hm)
  constructor
  · rintro ⟨hle, hcan, hleast⟩
    exact ⟨hle, (hend n le_rfl).1 hcan, fun m hm => (hend m hm.le).not.1 (hleast m hm)⟩
  · rintro ⟨hle, hcan, hleast⟩
    exact ⟨hle, (hend n le_rfl).2 hcan, fun m hm => (hend m hm.le).not.2 (hleast m hm)⟩

end Extents

end Lexical

/-! ### Runs of quotes -/

namespace Braces

/-- What the count takes to follow a run of quotes in a raw string. -/
def behindQuotes (n : Nat) : CodeContext :=
  if n % 6 < 3 then .raw else if n % 6 = 4 then .literal '"' false else .code

/-- Six quotes in a raw string are as good as none. -/
theorem scan_six_quotes (depth : Int) (n : Nat) (rest : Text) :
    scan .raw depth (List.replicate (n + 6) '"' ++ rest) =
      scan .raw depth (List.replicate n '"' ++ rest) := by
  simp only [List.replicate, List.cons_append, scan]

/-- Fewer quotes in a raw string: the first three close it, and what follows opens others. -/
theorem scan_few_quotes (depth : Int) {n : Nat} (hn : n < 6) {rest : Text}
    (hrest : rest.head? ≠ some '"') :
    scan .raw depth (List.replicate n '"' ++ rest) = scan (behindQuotes n) depth rest := by
  have hone : ∀ tail, rest = '"' :: tail → False := by
    rintro tail rfl
    exact hrest rfl
  have htwo : ∀ tail, '"' :: rest = '"' :: '"' :: tail → False :=
    fun tail h => hone tail (List.cons.inj h).2
  have hraw : ∀ {more : Text}, (∀ tail, more = '"' :: '"' :: tail → False) →
      scan .raw depth ('"' :: more) = scan .raw depth more := by
    intro more hmore
    rw [scan]
    exact fun tail _ => hmore tail
  have hcode : ∀ {more : Text}, (∀ tail, more = '"' :: '"' :: tail → False) →
      scan .code depth ('"' :: more) = scan (.literal '"' false) depth more := by
    intro more hmore
    rw [scan_code depth (fun tail _ => hmore tail) (by simp)]
    rfl
  rcases n with _ | _ | _ | _ | _ | _ | n
  · rfl
  · exact hraw fun tail => hone _
  · exact (hraw htwo).trans (hraw fun tail => hone _)
  · simp only [List.replicate, List.cons_append, List.nil_append, scan]
    rfl
  · simp only [List.replicate, List.cons_append, List.nil_append, scan]
    exact hcode fun tail => hone _
  · simp only [List.replicate, List.cons_append, List.nil_append, scan]
    rw [hcode htwo, scan, if_neg (by decide), if_pos rfl]
    rfl
  · omega

/-- **A run of quotes in a raw string** closes the string with its first three quotes, and then
opens and closes others, raw or of one line. -/
theorem scan_quotes (depth : Int) (n : Nat) {rest : Text} (hrest : rest.head? ≠ some '"') :
    scan .raw depth (List.replicate n '"' ++ rest) = scan (behindQuotes n) depth rest := by
  induction n using Nat.strongRecOn with
  | _ n ih =>
      rcases Nat.lt_or_ge n 6 with hfew | hmany
      · exact scan_few_quotes depth hfew hrest
      · obtain ⟨m, rfl⟩ := Nat.exists_eq_add_of_le' hmany
        have hsix : behindQuotes (m + 6) = behindQuotes m := by
          simp only [behindQuotes, Nat.add_mod_right]
        rw [scan_six_quotes, hsix]
        exact ih m (by omega)

/-- Code goes on so far and no further. -/
theorem Extends.unique {first : Text} {more : List Text} {m n : Nat} (hm : Extends first more m)
    (hn : Extends first more n) : m = n := by
  rcases lt_trichotomy m n with hlt | heq | hlt
  · exact absurd hm.canEnd (hn.least m hlt)
  · exact heq
  · exact absurd hn.canEnd (hm.least n hlt)

end Braces

/-! ### Sources -/

namespace Guide

/-- What becomes of code that begins with the line `first`, the last of those from its marker on, as
far as it is plain: it ends where it ends by the rules. -/
structure EndsByRules (content : Text) (front lead : List Text) (kind : CodeKind) (inline : Bool)
    (first : Text) (more : List Text) (guide : Guide) : Prop where
  block : ∀ n, Lexical.Extends first more n →
    Lexical.isPlain .code (Text.join ['\n'] (first :: more.take n)) = true →
    (Lexical.count (Text.join ['\n'] (first :: more.take n))).depth = 0 →
    Reader.start.run (front ++ (lead ++ more.take n)) =
      .ok ⟨front.length + (lead.length + n), .body, .item,
        guide.addBlock (.code kind (Reader.codeOf inline (first :: more.take n)))⟩
  overclosed : ∀ n, Lexical.Extends first more n →
    Lexical.isPlain .code (Text.join ['\n'] (first :: more.take n)) = true →
    (Lexical.count (Text.join ['\n'] (first :: more.take n))).depth < 0 →
    read content = .error ⟨front.length + lead.length, .unbalanced kind⟩
  endless : (∀ n, ¬ Lexical.Extends first more n) →
    Lexical.isPlain .code (Text.join ['\n'] (first :: more)) = true →
    read content = .error ⟨front.length + lead.length, .unbalanced kind⟩

/-- As far as it is plain, the code of any outcome ends by the rules. -/
theorem CodeOutcome.endsByRules {content first : Text} {front lead more : List Text}
    {kind : CodeKind} {inline : Bool} {guide : Guide}
    (h : CodeOutcome content front lead kind inline first more guide) :
    EndsByRules content front lead kind inline first more guide := by
  constructor
  · intro n hextends hplain hdepth
    have hn := (Lexical.extends_iff_of_isPlain hplain).1 hextends
    rw [← Lexical.ofText_of_isPlain hplain] at hdepth
    cases h with
    | block far depth result =>
        obtain rfl := far.unique hn
        exact result
    | overclosed far depth _ =>
        obtain rfl := far.unique hn
        omega
    | endless far _ => exact absurd hn (far n)
  · intro n hextends hplain hdepth
    have hn := (Lexical.extends_iff_of_isPlain hplain).1 hextends
    rw [← Lexical.ofText_of_isPlain hplain] at hdepth
    cases h with
    | block far depth _ =>
        obtain rfl := far.unique hn
        omega
    | overclosed _ _ result | endless _ result => exact result
  · intro hnone hplain
    have hfar : ∀ n, ¬ Braces.Extends first more n := by
      intro n far
      have htake : Lexical.isPlain .code (Text.join ['\n'] (first :: more.take n)) = true := by
        rw [← List.take_length (l := more)] at hplain
        exact Lexical.isPlain_take hplain far.le
      exact hnone n ((Lexical.extends_iff_of_isPlain htake).2 far)
    cases h with
    | block far _ _ => exact absurd far (hfar _)
    | overclosed _ _ result | endless _ result => exact result

/-- **Where code ends by the rules.** Plain code behind a marker is read as far as it goes by the
rules, and rejected if it goes on for ever or closes a brace too many. For counting braces line by
line gives what the rules give, in plain code as it is, and in any other once its comments between
`/*` and `*/` and the quotes in excess have been blanked. As it is, it need not: behind a run of `n`
quotes in a raw string, where by the rules one is in code again if `n` is at least three, the count
is so only if `n` leaves three or five when divided by six. -/
theorem extent_of_plain_code {content first : Text} {front lead more : List Text} {kind : CodeKind}
    {inline : Bool} {r : Reader} (hcontent : sourceLines content = front ++ (lead ++ more))
    (hfront : Reader.start.run front = .ok r) (hpart : r.part = .body) (hitem : r.pending = .item)
    (hlead : Lead kind.marker lead inline first)
    (hfirst : inline = false → isBoundary (Text.trim first) = false) :
    EndsByRules content front lead kind inline first more r.guide ∧
    (∀ t, Lexical.isPlain .code t = true →
      (Text.splitOn '\n' t).foldl Braces.addLine .start = Lexical.count t) ∧
    (∀ t, (Text.splitOn '\n' (Lexical.blanked .code t)).foldl Braces.addLine .start =
      Lexical.count t) ∧
    ∀ (depth : Int) (n : Nat) (rest : Text), rest.head? ≠ some '"' →
      Braces.scan .raw depth (List.replicate n '"' ++ rest) =
        Braces.scan (Braces.behindQuotes n) depth rest := by
  refine ⟨?_, fun t hplain => ?_, fun t => ?_, fun depth n rest hrest => ?_⟩
  · obtain ⟨guide, rfl⟩ := exists_guide_of_run hfront hpart hitem
    exact (codeOutcome hcontent hfront hlead hfirst).endsByRules
  · rw [Lexical.foldl_splitOn, Lexical.ofText_of_isPlain hplain]
  · rw [Lexical.foldl_splitOn, Lexical.ofText_blanked]
  · exact Braces.scan_quotes depth n hrest

/-- Code with a comment that goes on over a line, and a brace in a raw string. -/
def codeWithComment : Text :=
  "f \x7b /* one\n two */ g(\"\"\"\x7d\"\"\") \x7d".toList

/-- The code is read to its end. -/
theorem extent_of_code_with_comment :
    (Text.splitOn '\n' codeWithComment).foldl Braces.addLine .start =
        Lexical.count codeWithComment ∧
      Reader.start.run ["fun main() \x7b".toList, "@Code".toList, "f \x7b /* one".toList,
          " two */ g(\"\"\"\x7d\"\"\") \x7d".toList] =
        .ok ⟨4, .body, .item, empty.addBlock (.code .shown codeWithComment)⟩ := by
  have hcontent : sourceLines ("fun main() \x7b\n@Code\n".toList ++ codeWithComment
      ++ "\n\x7d\n".toList) = ["fun main() \x7b".toList]
        ++ (("@Code".toList :: [] ++ ["f \x7b /* one".toList])
          ++ [" two */ g(\"\"\"\x7d\"\"\") \x7d".toList, ['\x7d']]) := by
    decide +kernel
  have hfront : Reader.start.run ["fun main() \x7b".toList] = .ok ⟨1, .body, .item, empty⟩ := rfl
  have hmarks : Marks "@Code".toList CodeKind.shown.marker [] :=
    ⟨[], by decide +kernel, List.all_eq_true.1 (by decide), by simp, rfl⟩
  have hlead := Lead.below hmarks (List.forall_mem_nil _)
    (show Text.isBlank "f \x7b /* one".toList = false by decide)
  obtain ⟨hrules, hplain, -, -⟩ :=
    extent_of_plain_code hcontent hfront rfl rfl hlead fun _ => by decide
  refine ⟨hplain codeWithComment (by decide +kernel), ?_⟩
  have hextends : Lexical.Extends "f \x7b /* one".toList
      [" two */ g(\"\"\"\x7d\"\"\") \x7d".toList, ['\x7d']] 1 := by
    refine ⟨by decide, ⟨by decide +kernel, by decide +kernel⟩, fun m hm hend => ?_⟩
    obtain rfl : m = 0 := by omega
    exact absurd hend.2 (by decide +kernel)
  exact hrules.block 1 hextends (by decide +kernel) (by decide +kernel)

/-- A brace in a comment keeps code open that ends by the rules; and the fourth of the quotes that
close a raw string hides a brace of code, so that the code ends too early. -/
theorem publish_misread_code :
    (publish "fun main() \x7b\n@Code\nf() /* \x7b */\n\x7d\n".toList "examples".toList none =
        .error ⟨4, "`fun main` is missing its closing `\x7d`".toList⟩ ∧
      Lexical.Extends "f() /* \x7b */".toList [['\x7d']] 0 ∧
      Lexical.count "f() /* \x7b */".toList = .start) ∧
    publish "fun main() \x7b\n@Code\nf(\"\"\"a\"\"\"\") \x7b g()\n\x7d\n\x7d\n".toList
        "examples".toList none =
      .error ⟨5, "unexpected content after the end of `fun main`".toList⟩ ∧
    Lexical.Extends "f(\"\"\"a\"\"\"\") \x7b g()".toList [['\x7d'], ['\x7d']] 1 ∧
    Lexical.count "f(\"\"\"a\"\"\"\") \x7b g()\n\x7d".toList = .start := by
  refine ⟨⟨by decide +kernel, ⟨by decide, ⟨by decide +kernel, by decide +kernel⟩, nofun⟩,
    by decide +kernel⟩, by decide +kernel, ⟨by decide, ⟨by decide +kernel, by decide +kernel⟩,
    fun m hm hend => ?_⟩, by decide +kernel⟩
  obtain rfl : m = 0 := by omega
  exact absurd hend.2 (by decide +kernel)

end Guide

end Guidebook
