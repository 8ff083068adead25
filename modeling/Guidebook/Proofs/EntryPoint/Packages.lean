import Guidebook.EntryPoint
import Guidebook.Guide.Publication
import Guidebook.Proofs.Batch.Programs
import Guidebook.Proofs.Guide.Decoration
import Guidebook.Proofs.Text.Lines

/-!
# The Packages of Programs

A program declares the package of the directory of its guide. The declaration is the first line of
the program, or the first behind the comment with its link; it is read back as long as the package
and the link are one line each, whatever the imports and the code are. A package neither begins nor
ends with white space, since it begins with `examples` and ends with a letter, a backtick or a dot.

The backticks around the names of directories mean nothing for the class that starts a program: it
is named after the directories, joined by dots.

## Main results

* `EntryPoint.declaredPackage?_program`: **the package that a program declares** is read back.
* `EntryPoint.className_ofDirectory`: the class of a program in the package of a directory.
* `ProgramBelow.ofContent_eq`: the class of a program by its content.
-/

namespace Guidebook

/-! ### Letters and white space -/

namespace Text

/-- What is found in a list of intervals lies in one of them. -/
theorem exists_interval_of_inIntervals {n : Nat} {intervals : List (Nat × Nat)}
    (h : inIntervals n intervals = true) :
    ∃ interval ∈ intervals, interval.1 ≤ n ∧ n ≤ interval.2 := by
  induction intervals with
  | nil => cases h
  | cons interval intervals ih =>
      rw [inIntervals] at h
      split at h
      · cases h
      · next hlow =>
        rcases Bool.or_eq_true_iff.1 h with hhigh | hrest
        · exact ⟨interval, List.mem_cons_self, Nat.le_of_not_lt hlow, of_decide_eq_true hhigh⟩
        · obtain ⟨other, hother, hbounds⟩ := ih hrest
          exact ⟨other, List.mem_cons_of_mem _ hother, hbounds⟩

/-- White space is no letter. -/
theorem isSpace_eq_false_of_isLetter {c : Char} (h : isLetter c = true) : isSpace c = false := by
  have hapart : ∀ interval ∈ whiteSpaceIntervals,
      ∀ n ∈ List.range' interval.1 (interval.2 + 1 - interval.1),
        inIntervals n alphabeticIntervals = false := by
    decide +kernel
  by_contra hspace
  obtain ⟨interval, hinterval, hlow, hhigh⟩ :=
    exists_interval_of_inIntervals (Bool.not_eq_false _ ▸ hspace)
  have hnone := hapart interval hinterval c.toNat (List.mem_range'_1.2 (by omega))
  rw [isLetter, hnone] at h
  cases h

/-- What a joined text ends with, the last piece does, or the separator. -/
theorem getLast?_join {sep : Text} {pieces : List Text} {c : Char}
    (h : (join sep pieces).getLast? = some c) :
    sep.getLast? = some c ∨ ∃ piece ∈ pieces, piece.getLast? = some c := by
  fun_induction join sep pieces with
  | case1 => cases h
  | case2 piece => exact .inr ⟨piece, List.mem_cons_self, h⟩
  | case3 piece next pieces ih =>
      rw [List.getLast?_append, List.getLast?_append, Option.or_eq_some_iff,
        Option.or_eq_some_iff] at h
      rcases h with hrest | ⟨-, hsep | ⟨-, hpiece⟩⟩
      · rcases ih hrest with hsep | ⟨other, hother, hc⟩
        · exact .inl hsep
        · exact .inr ⟨other, List.mem_cons_of_mem _ hother, hc⟩
      · exact .inl hsep
      · exact .inr ⟨piece, List.mem_cons_self, hpiece⟩

/-- To leave out characters of a joined text is to leave them out of the pieces and the
separator. -/
theorem filter_join (p : Char → Bool) (sep : Text) (pieces : List Text) :
    (join sep pieces).filter p = join (sep.filter p) (pieces.map (·.filter p)) := by
  fun_induction join sep pieces with
  | case1 => rfl
  | case2 piece => rfl
  | case3 piece next pieces ih =>
      rw [List.filter_append, List.filter_append, ih]
      rfl

end Text

/-! ### Packages -/

namespace Namespace

/-- A quoted name holds the characters of the name, and backticks. -/
theorem mem_quote {name : Text} {c : Char} (h : c ∈ quote name) : c ∈ name ∨ c = '`' := by
  rw [quote] at h
  split at h
  · exact .inl h
  · simp only [List.cons_append, List.mem_cons, List.mem_append, List.not_mem_nil, or_false] at h
    grind

/-- Without backticks, a quoted name is the name without backticks. -/
theorem filter_quote (name : Text) : (quote name).filter (· ≠ '`') = name.filter (· ≠ '`') := by
  rw [quote]
  split
  · rfl
  · simp [List.filter_append]

/-- A quoted name is not empty if the name is not. -/
theorem quote_ne_nil {name : Text} (h : name ≠ []) : quote name ≠ [] := by
  rw [quote]
  split
  · exact h
  · simp

/-- A quoted name ends with no white space. -/
theorem isSpace_getLast?_quote {name : Text} {c : Char} (h : (quote name).getLast? = some c) :
    Text.isSpace c = false := by
  rw [quote] at h
  split at h
  · next hname =>
    rcases Bool.or_eq_true_iff.1 hname with hquoted | hletters
    · simp only [isQuoted, h, Bool.and_eq_true, decide_eq_true_eq, Option.some.injEq] at hquoted
      rw [hquoted.2]
      decide
    · exact Text.isSpace_eq_false_of_isLetter
        (List.all_eq_true.1 hletters c (List.mem_of_getLast? h))
  · rw [List.getLast?_concat] at h
    rw [← Option.some.inj h]
    decide

variable (ns : Namespace)

/-- A package is `examples`, or a label below it. -/
theorem package_eq : ns.package = root ∨ ns.package = root ++ '.' :: ns.label := by
  rw [package]
  split
  · exact .inl rfl
  · exact .inr rfl

/-- A package does not end with white space. -/
theorem isSpace_getLast?_package {c : Char} (h : ns.package.getLast? = some c) :
    Text.isSpace c = false := by
  have hroot : root.getLast? = some 's' := by decide
  have hdot : Text.isSpace '.' = false := by decide
  rcases ns.package_eq with hpackage | hpackage
  · rw [hpackage, hroot] at h
    rw [← Option.some.inj h]
    decide
  · rw [hpackage, List.getLast?_append, List.getLast?_cons, Option.some_or] at h
    cases hlabel : ns.label.getLast? with
    | none =>
        rw [hlabel] at h
        rw [← Option.some.inj h]
        exact hdot
    | some last =>
        rw [hlabel] at h
        rw [← Option.some.inj h]
        rcases Text.getLast?_join hlabel with hsep | ⟨piece, hpiece, hlast⟩
        · rw [← Option.some.inj hsep]
          exact hdot
        · obtain ⟨name, -, rfl⟩ := List.mem_map.1 hpiece
          exact isSpace_getLast?_quote hlast

/-- A package begins with the first letter of `examples`. -/
theorem head?_package : ns.package.head? = some 'e' := by
  have hroot : root.head? = some 'e' := by decide
  rcases ns.package_eq with hpackage | hpackage
  · rw [hpackage, hroot]
  · rw [hpackage, List.head?_append, hroot]
    rfl

/-- A package is not empty. -/
theorem package_ne_nil : ns.package ≠ [] := by
  intro hnil
  have hfirst := ns.head?_package
  rw [hnil] at hfirst
  cases hfirst

/-- A package begins and ends with no white space. -/
theorem isTrimmed_package : Text.IsTrimmed ns.package := by
  refine ⟨fun c hc => ?_, fun c hc => ns.isSpace_getLast?_package hc⟩
  obtain rfl : 'e' = c := Option.some.inj (ns.head?_package.symm.trans hc)
  decide

/-- A package is one line if the names of the directories are. -/
theorem not_mem_package (h : ∀ name ∈ ns.names, '\n' ∉ name) : '\n' ∉ ns.package := by
  have hroot : '\n' ∉ root := by decide
  rcases ns.package_eq with hpackage | hpackage
  · rwa [hpackage]
  · rw [hpackage, List.mem_append, List.mem_cons, not_or, not_or]
    refine ⟨hroot, by decide, fun hlabel => ?_⟩
    rcases Text.mem_join hlabel with hsep | ⟨piece, hpiece, hmem⟩
    · exact absurd hsep (by decide)
    · obtain ⟨name, hname, rfl⟩ := List.mem_map.1 hpiece
      rcases mem_quote hmem with hfeed | habsurd
      · exact h name hname hfeed
      · exact absurd habsurd (by decide)

end Namespace

/-! ### Declarations -/

namespace EntryPoint

section Declarations

open Text

/-- A line that is read as the declaration of a package. -/
theorem declared_line {t : Text} (h : IsTrimmed t) (hne : t ≠ []) :
    "package ".toList.isPrefixOf? (trim ("package ".toList ++ t)) = some t := by
  have hline : IsTrimmed ("package ".toList ++ t) := by
    refine ⟨fun c hc => ?_, fun c hc => ?_⟩
    · obtain rfl : 'p' = c := Option.some.inj hc
      decide
    · rw [Option.mem_def, List.getLast?_append_of_ne_nil _ hne] at hc
      exact h.2 c hc
  rw [trim_eq_self hline]
  exact List.isPrefixOf?_eq_some_iff_append_eq.2 rfl

/-- A line that begins with a slash declares nothing. -/
theorem undeclared_line (line : Text) :
    "package ".toList.isPrefixOf? (trim ('/' :: line)) = none := by
  have hstart : trimStart ('/' :: line) = '/' :: line :=
    trimStart_eq_self fun c hc => by
      obtain rfl : '/' = c := Option.some.inj hc
      decide
  obtain ⟨after, -, hwhole⟩ := exists_trimEnd ('/' :: line)
  rw [trim, hstart]
  cases htrim : trimEnd ('/' :: line) with
  | nil => rfl
  | cons c rest =>
      rw [htrim] at hwhole
      obtain rfl := (List.cons.inj hwhole).1
      rfl

/-- What stands in the comment with a link between the first slash and the link. -/
def linkFront : Text := "/ This example is published at ".toList

/-- A link comment begins with a slash. -/
theorem slash_linkFront : "// This example is published at ".toList = '/' :: linkFront := by
  decide +kernel

/-- A link comment is one line, and an empty line follows. -/
theorem linkComment_some (link rest : Text) :
    linkComment (some link) ++ rest =
      ('/' :: (linkFront ++ link)) ++ '\n' :: ([] ++ '\n' :: rest) := by
  have hcomment : linkComment (some link) =
      "// This example is published at ".toList ++ link ++ "\n\n".toList := rfl
  have hfeeds : "\n\n".toList = ['\n', '\n'] := by decide
  rw [hcomment, slash_linkFront, hfeeds]
  simp only [List.append_assoc, List.cons_append, List.nil_append]

/-- The comment with a link is one line, and an empty one behind it. -/
theorem lines_linkComment {link : Text} (hlink : IsLine link) (hne : link ≠ []) (rest : Text) :
    lines (linkComment (some link) ++ rest) = ('/' :: (linkFront ++ link)) :: [] :: lines rest := by
  have hfront : '\n' ∉ linkFront := by decide
  have hcomment : IsLine ('/' :: (linkFront ++ link)) := by
    refine ⟨?_, ?_⟩
    · rw [List.mem_cons, List.mem_append, not_or, not_or]
      exact ⟨by decide, hfront, hlink.1⟩
    · rw [← List.cons_append, List.getLast?_append_of_ne_nil _ hne]
      exact hlink.2
  rw [linkComment_some, lines_append_feed hcomment, lines_append_feed (by decide)]

/-- **The package that a program declares** is read back, if it is one line and its link is. -/
theorem declaredPackage?_program (ns : Namespace) (imports : List Text) {link : Option Text}
    (code : Text) (hnames : ∀ name ∈ ns.names, '\n' ∉ name)
    (hlink : ∀ address ∈ link, IsLine address ∧ address ≠ []) :
    declaredPackage? (program ns.package imports link code) = some ns.package := by
  have htrimmed := ns.isTrimmed_package
  have hne := ns.package_ne_nil
  have hline : IsLine ("package ".toList ++ ns.package) := by
    refine ⟨?_, ?_⟩
    · rw [List.mem_append, not_or]
      exact ⟨by decide, ns.not_mem_package hnames⟩
    · rw [List.getLast?_append_of_ne_nil _ hne]
      intro hreturn
      exact absurd (htrimmed.2 _ hreturn) (by decide)
  have hfound : (lines (program ns.package imports link code)).findSome? (fun line =>
      "package ".toList.isPrefixOf? (trim line)) = some ns.package := by
    rw [program_eq]
    cases link with
    | none =>
        rw [show linkComment none = [] from rfl, List.nil_append, lines_append_feed hline,
          List.findSome?_cons, declared_line htrimmed hne]
    | some address =>
        obtain ⟨haddress, haddressNe⟩ := hlink address rfl
        have hempty : "package ".toList.isPrefixOf? (trim []) = none := by decide
        rw [lines_linkComment haddress haddressNe, List.findSome?_cons, undeclared_line,
          List.findSome?_cons, hempty, lines_append_feed hline, List.findSome?_cons,
          declared_line htrimmed hne]
  rw [declaredPackage?, hfound]
  simp only [trim_eq_self htrimmed, if_neg hne]

end Declarations

/-! ### Classes -/

/-- The class of the program of the given name in the package for directories of the given names:
`examples` and the names, joined by dots and without backticks, and the name of the program with
`Kt` behind it. -/
def ofNames (directory : List Text) (name : Text) : Text :=
  Text.join ['.'] (Namespace.root :: directory.map (·.filter (· ≠ '`'))) ++
    '.' :: (name ++ "Kt".toList)

/-- **The class that is named after a package** is named after the directories of the guide. -/
theorem className_package {names : List Text} (h : ∀ name ∈ names, name ≠ []) (name : Text) :
    className (Namespace.mk names).package name = ofNames names name := by
  have hroot : Namespace.root.filter (fun c => decide (c ≠ '`')) = Namespace.root := by decide
  rw [className, ofNames]
  congr 1
  cases names with
  | nil => exact hroot
  | cons first names =>
      have hlabel : (Namespace.mk (first :: names)).label ≠ [] := by
        rw [Namespace.label, Ne, Text.join_eq_nil_iff]
        · simp
        · intro piece hpiece
          obtain ⟨directory, hdirectory, rfl⟩ := List.mem_map.1 hpiece
          exact Namespace.quote_ne_nil (h directory hdirectory)
      rw [Namespace.package, if_neg hlabel, Namespace.label, List.filter_append, hroot,
        List.filter_cons_of_pos (by decide), Text.filter_join, List.map_map]
      have hdot : ['.'].filter (fun c => decide (c ≠ '`')) = ['.'] := by decide
      have hquoted : (first :: names).map ((·.filter (· ≠ '`')) ∘ Namespace.quote) =
          (first :: names).map (·.filter (· ≠ '`')) :=
        List.map_congr_left fun directory _ => Namespace.filter_quote directory
      rw [hdot, hquoted]
      simp [Text.join]

end EntryPoint

namespace Path

/-- The names in a path are names of files. -/
theorem isFileName_of_mem_names {p : Path} {name : Text} (h : name ∈ p.names) :
    IsFileName name := by
  obtain ⟨component, hcomponent, hname⟩ := List.mem_filterMap.1 h
  have hmem : .name name ∈ p.components := by
    split at hname
    · obtain rfl := Option.some.inj hname
      exact hcomponent
    · cases hname
  rw [components_eq, List.mem_append] at hmem
  refine isFileName_of_mem_spoken (fun s hs => Text.not_mem_of_mem_splitOn hs)
    (hmem.resolve_left fun hanchor => ?_)
  cases hcase : p.split.1 <;> simp [hcase, Anchor.components] at hanchor

end Path

namespace EntryPoint

/-- **The class of a program in the package of a directory** is named after the directories. -/
theorem className_ofDirectory (directory : Path) (name : Text) :
    className (Namespace.ofDirectory directory).package name = ofNames directory.names name :=
  className_package (fun _ hname => (Path.isFileName_of_mem_names hname).ne_of_isSilent rfl) name

end EntryPoint

/-! ### The files of programs -/

namespace Path

/-- The file name of a file in a directory is its name. -/
theorem fileName?_file (directory : Path) {name : Text} (h : IsFileName name) :
    (directory.join ⟨name⟩).fileName? = some name := by
  rw [fileName?, components_file directory h, List.getLast?_concat]

/-- The last dot stands in front of an extension without dots. -/
theorem splitLastDot?_append (stem : Text) {extension : Text} (h : '.' ∉ extension) :
    splitLastDot? (stem ++ '.' :: extension) = some (stem, extension) := by
  have hletters : ∀ c ∈ extension.reverse, decide (c ≠ '.') = true := by
    intro c hc
    exact decide_eq_true fun hdot => h (hdot ▸ List.mem_reverse.1 hc)
  have hreverse : (stem ++ '.' :: extension).reverse =
      extension.reverse ++ '.' :: stem.reverse := by
    simp
  rw [splitLastDot?, hreverse, List.dropWhile_append_of_pos hletters,
    List.takeWhile_append_of_pos hletters]
  simp

/-- A name with an extension has this extension, and the rest is its stem. -/
theorem stemOf_append {stem extension : Text} (hstem : stem ≠ []) (h : '.' ∉ extension) :
    stemOf (stem ++ '.' :: extension) = stem ∧
      extensionOf? (stem ++ '.' :: extension) = some extension := by
  obtain ⟨c, rest, rfl⟩ := List.exists_cons_of_ne_nil hstem
  rw [stemOf, extensionOf?, splitLastDot?_append _ h]
  exact ⟨rfl, rfl⟩

end Path

/-- The path of a numbered program, in a directory that is read from within the root. -/
def ProgramBelow (root path : Path) : Prop :=
  ∃ directory name index, directory.isAbsolute = false ∧ '/' ∉ name ∧
    path = (root.join directory).join ⟨programName name "kt".toList index⟩

section Files

variable {directory : Path} {name : Text} {root path : Path}

/-- The stem of a numbered program is its name and number, and its extension is `kt`. -/
theorem names_of_programFile (directory : Path) (hname : '/' ∉ name) (index : Nat) :
    (directory.join ⟨programName name "kt".toList index⟩).stem? =
        some (name ++ paddedIndex index) ∧
      (directory.join ⟨programName name "kt".toList index⟩).extension? = some "kt".toList := by
  have hfile : Path.IsFileName (programName name "kt".toList index) :=
    isFileName_program hname (by decide) index
  have hne : name ++ paddedIndex index ≠ [] := by
    refine List.append_ne_nil_of_right_ne_nil _ (List.ne_nil_of_length_pos ?_)
    exact Nat.lt_of_lt_of_le (by decide) (length_paddedIndex index)
  obtain ⟨hstem, hextension⟩ := @Path.stemOf_append _ "kt".toList hne (by decide)
  rw [Path.stem?, Path.extension?, Path.fileName?_file directory hfile]
  exact ⟨congrArg some hstem, hextension⟩

namespace ProgramBelow

/-- Such a path is that of a program, by its extension. -/
theorem isProgram (h : ProgramBelow root path) : EntryPoint.isProgram path = true := by
  obtain ⟨directory, name, index, -, hname, rfl⟩ := h
  exact decide_eq_true (Format.ofPath?_eq_kotlin_iff.2 (names_of_programFile _ hname index).2)

/-- The file of a program is called by its stem and `.kt`. -/
theorem fileName?_eq (h : ProgramBelow root path) :
    path.fileName? = some (path.stem?.getD [] ++ '.' :: "kt".toList) := by
  obtain ⟨directory, name, index, -, hname, rfl⟩ := h
  rw [(names_of_programFile _ hname index).1]
  exact Path.fileName?_file _ (isFileName_program hname (by decide) index)

/-- Such a path lies below the root, and its file is called by its stem. -/
theorem exists_fileBelow (h : ProgramBelow root path) :
    ∃ file, EntryPoint.fileBelow root path = .ok file ∧ file.name = path.stem?.getD [] := by
  obtain ⟨directory, name, index, hdirectory, hname, rfl⟩ := h
  obtain ⟨relative, hrelative, -⟩ := Path.exists_relativeTo?_file root hdirectory
    (isFileName_program hname (by decide : '/' ∉ "kt".toList) index)
  exact ⟨_, EntryPoint.fileBelow_eq_ok_iff.2 (Option.map_eq_some_iff.2 ⟨relative, hrelative, rfl⟩),
    rfl⟩

/-- **The class of a program by its content**: its package is the one it has been written for. -/
theorem ofContent_eq (h : ProgramBelow root path) {fs : FileSystem} {ns : Namespace}
    {imports : List Text} {link : Option Text} {code : Text}
    (hread : fs.read path = .ok (program ns.package imports link code))
    (hnames : ∀ name ∈ ns.names, '\n' ∉ name)
    (hlink : ∀ address ∈ link, Text.IsLine address ∧ address ≠ []) :
    EntryPoint.ofContent fs root path =
      .ok (EntryPoint.className ns.package (path.stem?.getD [])) := by
  obtain ⟨file, hfile, hname⟩ := h.exists_fileBelow
  rw [EntryPoint.ofContent, hread, hfile, ← hname]
  simp only [EntryPoint.declaredPackage?_program ns imports code hnames hlink]
  rfl

end ProgramBelow

/-- Of files that are all programs, none is left out. -/
theorem filter_isProgram {paths : List Path} (h : ∀ path ∈ paths, ProgramBelow root path) :
    paths.filter EntryPoint.isProgram = paths :=
  List.filter_eq_self.2 fun path hpath => (h path hpath).isProgram

end Files

end Guidebook
