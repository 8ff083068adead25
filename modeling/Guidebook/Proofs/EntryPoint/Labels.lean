import Guidebook.Proofs.EntryPoint.Packages

/-!
# Labels Identify Directories

A label joins the names of directories by dots, and a name may hold dots itself. What tells a dot
inside a name from one between two names are the backticks: a name with a dot is not made of
letters alone, so it stands between backticks; and as long as names hold no backticks of their
own, the next backtick is the one that ends it. So a label can be read back from left to right,
and all there is to remember on the way is whether one stands between backticks.

## Main results

* `Namespace.quote_quote`: quoting what is quoted changes nothing.
* `Namespace.namesOfLabel_label`: **a label is read back**.
* `Namespace.package_eq_iff`: a package says what the label says.
* `Namespace.identifies_directories`: labels and packages identify directories by their names.
-/

namespace Guidebook.Namespace

/-! ### Quoting -/

/-- What stands between backticks is quoted. -/
theorem isQuoted_between (name : Text) : isQuoted ('`' :: name ++ ['`']) = true := by
  have hlast : ('`' :: name ++ ['`']).getLast? = some '`' := List.getLast?_concat
  rw [isQuoted, hlast]
  simp

/-- **Quoting what is quoted** changes nothing. -/
theorem quote_quote (name : Text) : quote (quote name) = quote name := by
  by_cases h : (isQuoted name || name.all Text.isLetter) = true
  · have hquote : quote name = name := if_pos h
    rw [hquote, hquote]
  · have hquote : quote name = '`' :: name ++ ['`'] := if_neg h
    rw [hquote, quote, isQuoted_between, Bool.true_or, if_pos rfl]

/-- What is quoted holds a backtick. -/
theorem mem_of_isQuoted {name : Text} (h : isQuoted name = true) : '`' ∈ name := by
  simp only [isQuoted, Bool.and_eq_true, decide_eq_true_eq] at h
  exact List.mem_of_mem_head? h.1.2

/-- A name without backticks that is written as it is holds nothing but letters. -/
theorem quote_cases {name : Text} (h : '`' ∉ name) :
    quote name = name ∧ (∀ c ∈ name, Text.isLetter c = true) ∨
      quote name = '`' :: name ++ ['`'] := by
  have hquoted : isQuoted name = false := Bool.eq_false_iff.2 fun hq => h (mem_of_isQuoted hq)
  rw [quote, hquoted, Bool.false_or]
  split
  · next hletters => exact .inl ⟨rfl, List.all_eq_true.1 hletters⟩
  · exact .inr rfl

/-! ### Reading a label -/

/-- The names in the rest of a label, which begins between backticks if `quoted`. The first of them
may have begun before. -/
def namesFrom (quoted : Bool) : Text → List Text
  | [] => [[]]
  | c :: rest =>
    if c = '`' then namesFrom (!quoted) rest
    else if c = '.' ∧ quoted = false then [] :: namesFrom false rest
    else (namesFrom quoted rest).modifyHead (c :: ·)

/-- The names in a label: what stands between the dots that are not between backticks. -/
def namesOfLabel (label : Text) : List Text :=
  if label = [] then [] else namesFrom false label

/-- Characters that end nothing belong to the first name. -/
theorem namesFrom_append {quoted : Bool} {front : Text} (hbare : '`' ∉ front)
    (hdot : '.' ∈ front → quoted = true) (rest : Text) :
    namesFrom quoted (front ++ rest) = (namesFrom quoted rest).modifyHead (front ++ ·) := by
  induction front with
  | nil => exact (congrFun List.modifyHead_id (namesFrom quoted rest)).symm
  | cons c front ih =>
      rw [List.mem_cons, not_or] at hbare
      have hc : ¬ (c = '.' ∧ quoted = false) := by
        rintro ⟨rfl, hquoted⟩
        exact Bool.false_ne_true (hquoted.symm.trans (hdot List.mem_cons_self))
      rw [List.cons_append, namesFrom, if_neg (Ne.symm hbare.1), if_neg hc,
        ih hbare.2 fun hmem => hdot (List.mem_cons_of_mem c hmem), List.modifyHead_modifyHead]
      rfl

/-- A quoted name is read as the name, whatever follows it. -/
theorem namesFrom_quote {name : Text} (h : '`' ∉ name) (rest : Text) :
    namesFrom false (quote name ++ rest) = (namesFrom false rest).modifyHead (name ++ ·) := by
  rcases quote_cases h with ⟨hquote, hletters⟩ | hquote
  · rw [hquote]
    exact namesFrom_append h (fun hdot => absurd (hletters _ hdot) (by decide)) rest
  · have hbody : quote name ++ rest = '`' :: (name ++ '`' :: rest) := by rw [hquote]; simp
    have hend : namesFrom true ('`' :: rest) = namesFrom false rest := if_pos rfl
    rw [hbody, namesFrom, if_pos rfl, Bool.not_false, namesFrom_append h fun _ => rfl, hend]

/-- **Names are read back** from their label, if none of them holds a backtick. -/
theorem namesFrom_join {names : List Text} (hne : names ≠ []) (h : ∀ name ∈ names, '`' ∉ name) :
    namesFrom false (Text.join ['.'] (names.map quote)) = names := by
  induction names with
  | nil => exact absurd rfl hne
  | cons name names ih =>
      obtain ⟨hname, hnames⟩ := List.forall_mem_cons.1 h
      cases names with
      | nil =>
          have hread := namesFrom_quote hname []
          rw [List.append_nil] at hread
          exact hread.trans (by simp [namesFrom])
      | cons next names =>
          have hrest := ih (List.cons_ne_nil next names) hnames
          have hdot : ∀ rest, namesFrom false ('.' :: rest) = [] :: namesFrom false rest :=
            fun _ => rfl
          rw [List.map_cons] at hrest
          rw [List.map_cons, List.map_cons, Text.join, List.append_assoc, namesFrom_quote hname,
            List.singleton_append, hdot, hrest, List.modifyHead_cons, List.append_nil]

variable {names : List Text}

/-- Names that are not empty leave no label empty. -/
theorem label_eq_nil_iff (h : ∀ name ∈ names, name ≠ []) :
    (Namespace.mk names).label = [] ↔ names = [] := by
  rw [label, Text.join_eq_nil_iff, List.map_eq_nil_iff]
  intro piece hpiece
  obtain ⟨name, hname, rfl⟩ := List.mem_map.1 hpiece
  exact quote_ne_nil (h name hname)

/-- **A label is read back**, if its names hold no backticks. -/
theorem namesOfLabel_label (hne : ∀ name ∈ names, name ≠ []) (h : ∀ name ∈ names, '`' ∉ name) :
    namesOfLabel (Namespace.mk names).label = names := by
  rw [namesOfLabel]
  split
  · next hnil => exact ((label_eq_nil_iff hne).1 hnil).symm
  · next hcons => exact namesFrom_join ((label_eq_nil_iff hne).not.1 hcons) h

/-- Without its backticks, a label is the names joined by dots. -/
theorem filter_label (h : ∀ name ∈ names, '`' ∉ name) :
    (Namespace.mk names).label.filter (· ≠ '`') = Text.join ['.'] names := by
  have hdot : ['.'].filter (fun c => decide (c ≠ '`')) = ['.'] := by decide
  have hnames : (names.map quote).map (·.filter (· ≠ '`')) = names := by
    rw [List.map_map]
    refine (List.map_congr_left fun name hname => ?_).trans (List.map_id names)
    rw [Function.comp_apply, filter_quote]
    refine List.filter_eq_self.2 fun c hc => decide_eq_true ?_
    rintro rfl
    exact h name hname hc
  rw [label, Text.filter_join, hdot, hnames]

/-- **A package says what the label says.** -/
theorem package_eq_iff {ns other : Namespace} :
    ns.package = other.package ↔ ns.label = other.label := by
  have hlonger : ∀ label : Text, root ++ '.' :: label ≠ root := fun label heq => by
    simpa using congrArg List.length heq
  refine ⟨fun h => ?_, fun h => by rw [package, package, h]⟩
  rw [package, package] at h
  split at h
  · next hnil =>
    split at h
    · next hother => rw [hnil, hother]
    · exact absurd h.symm (hlonger _)
  · split at h
    · exact absurd h (hlonger _)
    · exact (List.cons.inj (List.append_cancel_left h)).2

/-! ### Directories -/

/-- **Labels and packages identify directories** by their names, whatever the names hold besides
backticks: dots, blanks, digits, letters of any script. The label is the names joined by dots, but
for the backticks. Whatever a name holds, a name that is quoted is not quoted again. -/
theorem identifies_directories :
    (∀ name, quote (quote name) = quote name) ∧
    ∀ first second : Path, (∀ name ∈ first.names, '`' ∉ name) →
      (∀ name ∈ second.names, '`' ∉ name) →
      ((ofDirectory first).label = (ofDirectory second).label ↔ first.names = second.names) ∧
      ((ofDirectory first).package = (ofDirectory second).package ↔ first.names = second.names) ∧
      (ofDirectory first).label.filter (· ≠ '`') = Text.join ['.'] first.names := by
  refine ⟨quote_quote, fun first second hfirst hsecond => ?_⟩
  have hnonempty : ∀ directory : Path, ∀ name ∈ directory.names, name ≠ [] :=
    fun _ _ hname => (Path.isFileName_of_mem_names hname).ne_of_isSilent rfl
  have hlabel : (ofDirectory first).label = (ofDirectory second).label ↔
      first.names = second.names := by
    refine ⟨fun h => ?_, fun h => by rw [ofDirectory, ofDirectory, h]⟩
    calc first.names = namesOfLabel (ofDirectory first).label :=
          (namesOfLabel_label (hnonempty first) hfirst).symm
      _ = namesOfLabel (ofDirectory second).label := congrArg namesOfLabel h
      _ = second.names := namesOfLabel_label (hnonempty second) hsecond
  exact ⟨hlabel, package_eq_iff.trans hlabel, filter_label hfirst⟩

/-- A dot in a name and one between names: two directories whose names are the same text when they
are joined by dots, and which nevertheless have different packages. -/
theorem packages_of_dotted_directories :
    (∀ name ∈ (Path.mk "50_a.b/ç".toList).names, '`' ∉ name) ∧
    (∀ name ∈ (Path.mk "50_a/b.ç".toList).names, '`' ∉ name) ∧
    (ofDirectory ⟨"50_a.b/ç".toList⟩).package ≠ (ofDirectory ⟨"50_a/b.ç".toList⟩).package ∧
    (ofDirectory ⟨"50_a.b/ç".toList⟩).label.filter (· ≠ '`') = "50_a.b.ç".toList := by
  have hfirst : ∀ name ∈ (Path.mk "50_a.b/ç".toList).names, '`' ∉ name := by decide
  have hsecond : ∀ name ∈ (Path.mk "50_a/b.ç".toList).names, '`' ∉ name := by decide
  obtain ⟨-, hpackage, hfilter⟩ := identifies_directories.2 _ _ hfirst hsecond
  exact ⟨hfirst, hsecond, hpackage.not.2 (by decide), hfilter.trans (by decide)⟩

end Guidebook.Namespace
