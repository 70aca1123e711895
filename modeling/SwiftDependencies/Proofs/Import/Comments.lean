import Mathlib.Tactic.Common
import SwiftDependencies.Proofs.Import.Reading
import SwiftDependencies.Proofs.Source.CommentLines

/-!
# Imports and comments

Imports are read line by line, and all that is known of comments is that one may end a statement.
So the imports of a text need not be those of its clean view, in which comments are blanked.

Behind code that does not end with a slash, a line comment and blanks come to the same: neither
makes a statement of the code (`ofLine?_of_append`), nor keeps it from being one
(`Statement.exists_append`).  There is one exception.  In the parentheses of an attribute everything
is skipped up to the closing one, so what is taken for an argument may contain the beginning of a
comment, and without that comment the parenthesis is not closed (`OpensArgument`).

`imports_clean` says that these attributes and the block comments are all that can make a
difference.
-/

namespace SwiftDependencies.Import

open Source (isWord_of_isBlank)

variable {cs rest code trail : List Char} {m : String}

/-! ### What may follow a statement -/

/-- Blanks, or a line comment. -/
def Trails (cs : List Char) : Prop :=
  IsMargin cs ∨ ∃ body, cs = '/' :: '/' :: body

/-- An ending may be followed by blanks or a line comment. -/
lemma Ending.exists_append (e : Ending) (h : Trails trail) :
    ∃ e' : Ending, e'.text = e.text ++ trail := by
  obtain ⟨before, semicolon, after, comment, hbefore, hafter⟩ := e
  cases comment with
  | some body =>
    exact ⟨⟨before, semicolon, after, some (body ++ trail), hbefore, hafter⟩,
      by simp [text, commentText]⟩
  | none =>
    rcases h with h | ⟨body, rfl⟩
    · have hmargin : IsMargin (after ++ trail) :=
        fun c hc => (List.mem_append.1 hc).elim (hafter c) (h c)
      exact ⟨⟨before, semicolon, after ++ trail, none, hbefore, hmargin⟩,
        by simp [text, commentText]⟩
    · exact ⟨⟨before, semicolon, after, some body, hbefore, hafter⟩,
        by simp [text, commentText]⟩

/-- A statement may be followed by blanks or a line comment. -/
lemma Statement.exists_append (s : Statement) (h : Trails trail) :
    ∃ s' : Statement, s'.text = s.text ++ trail ∧ s'.module = s.module := by
  obtain ⟨ending, hending⟩ := s.ending.exists_append h
  refine ⟨{ s with ending := ending }, ?_, rfl⟩
  simp [text, body, path, hending]

/-- What stands behind the blanks in front of a text stands there in any longer text. -/
lemma skipBlanks_append_of_ne_nil (h : skipBlanks cs ≠ []) (trail : List Char) :
    skipBlanks (cs ++ trail) = skipBlanks cs ++ trail := by
  rw [skipBlanks] at h
  rw [skipBlanks, skipBlanks, List.dropWhile_append, if_neg (by simpa using h)]

/-- What is left after blanks is the end of the text. -/
lemma skipBlanks_suffix (cs : List Char) : skipBlanks cs <:+ cs :=
  List.dropWhile_suffix Text.isBlank

/-- What begins a line comment is empty or a line comment itself, unless it ends between the two
slashes. -/
lemma emptyOrComment_of_append
    (h : ((cs ++ trail).isEmpty || ['/', '/'].isPrefixOf (cs ++ trail)) = true)
    (hcs : cs.getLast? ≠ some '/') : (cs.isEmpty || ['/', '/'].isPrefixOf cs) = true := by
  match cs with
  | [] => rfl
  | [c] =>
    obtain ⟨rfl, -⟩ : '/' = c ∧ _ := by simpa [List.isPrefixOf] using h
    exact absurd rfl hcs
  | c :: d :: cs => simpa [List.isPrefixOf] using h

/-- What begins an ending is an ending, unless it ends with the first slash of a comment. -/
lemma isTail_of_append (h : isTail (cs ++ trail) = true) (hcs : cs.getLast? ≠ some '/') :
    isTail cs = true := by
  have hlast : ∀ ds, ds <:+ cs → ds.getLast? ≠ some '/' := by
    rintro ds ⟨init, rfl⟩ hds
    apply hcs
    rw [List.getLast?_append, hds]
    rfl
  unfold isTail at h ⊢
  have hsuffix := skipBlanks_suffix cs
  cases hskip : skipBlanks cs with
  | nil => rfl
  | cons c tail =>
    have happend := skipBlanks_append_of_ne_nil (by rw [hskip]; simp) trail
    rw [hskip] at happend hsuffix
    by_cases hc : c = ';'
    · -- What counts is behind the semicolon.
      subst hc
      have hsuffix' := skipBlanks_suffix tail
      simp only [happend, List.cons_append, List.head?_cons, beq_self_eq_true, if_true,
        List.drop_succ_cons, List.drop_zero] at h ⊢
      cases hskip' : skipBlanks tail with
      | nil => rfl
      | cons d ds =>
        have happend' := skipBlanks_append_of_ne_nil (by rw [hskip']; simp) trail
        rw [hskip'] at happend' hsuffix'
        rw [happend'] at h
        exact emptyOrComment_of_append h
          (hlast _ ((hsuffix'.trans (List.suffix_cons _ _)).trans hsuffix))
    · have hne : (some c == some ';') = false := by simpa using hc
      simp only [happend, List.cons_append, List.head?_cons, hne, Bool.false_eq_true,
        if_false] at h ⊢
      exact emptyOrComment_of_append h (hlast _ hsuffix)

/-! ### Attributes that are not closed -/

/-- An attribute of which the parenthesis is open, with what stands in front of it. -/
structure OpenArgument where
  indent : List Char
  attributes : List Attribute
  name : List Char
  argument : List Char
  indent_isMargin : IsMargin indent
  ne_nil : name ≠ []
  isWord : ∀ c ∈ name, Text.isWord c = true
  unclosed : ')' ∉ argument

/-- The text of an attribute of which the parenthesis is open. -/
def OpenArgument.text (o : OpenArgument) : List Char :=
  o.indent ++ (o.attributes.flatMap Attribute.text ++ '@' :: (o.name ++ '(' :: o.argument))

/-- A text that ends in the parentheses of an attribute. -/
def OpensArgument (cs : List Char) : Prop :=
  ∃ o : OpenArgument, o.text = cs

/-- An attribute whose argument is not closed is not passed over. -/
lemma OpenArgument.afterAttributes_text (o : OpenArgument) :
    afterAttributes (skipBlanks o.text) = '@' :: (o.name ++ '(' :: o.argument) := by
  have hnone : afterAttribute? ('@' :: (o.name ++ '(' :: o.argument)) = none := by
    obtain ⟨c, name, hname⟩ := List.exists_cons_of_ne_nil o.ne_nil
    have hword := o.isWord
    simp only [hname, List.mem_cons, forall_eq_or_imp] at hword
    have hdrop : (name ++ '(' :: o.argument).dropWhile Text.isWord = '(' :: o.argument :=
      dropWhile_isWord hword.2 (by simpa using Source.isWord_of_mem_signs (by decide))
    have hclosed : o.argument.dropWhile (· != ')') = [] := by
      rw [List.dropWhile_eq_nil_iff]
      intro d hd
      rw [bne_iff_ne]
      rintro rfl
      exact o.unclosed hd
    have hblank : Text.isBlank '(' = false := by decide
    simp [afterAttribute?, hname, hword.1, hdrop, skipParentheses, hclosed, afterBlanks?, hblank]
  have hfirm : Firm ('@' :: (o.name ++ '(' :: o.argument)) := firm_cons (by decide) _
  rw [OpenArgument.text, skipBlanks_append o.indent_isMargin (firm_attributes _ hfirm),
    afterAttributes_append _ hfirm hnone]

/-- No import is read from an attribute that is not closed. -/
lemma OpenArgument.ofLine?_text (o : OpenArgument) : ofLine? o.text = none := by
  rw [Option.eq_none_iff_forall_ne_some]
  intro m h
  obtain ⟨s, hs, -⟩ := exists_statement h
  have hbody := s.afterAttributes_text
  have hhead := s.beginsWithLetter_body.head?_ne
  rw [hs, o.afterAttributes_text] at hbody
  rw [← hbody] at hhead
  exact hhead rfl

/-- Blanks do not close an attribute. -/
lemma OpensArgument.append (h : OpensArgument cs) (hrest : IsMargin rest) :
    OpensArgument (cs ++ rest) := by
  obtain ⟨o, rfl⟩ := h
  have hunclosed : ')' ∉ o.argument ++ rest := by
    intro hmem
    rcases List.mem_append.1 hmem with hmem | hmem
    · exact o.unclosed hmem
    · exact absurd (hrest _ hmem) (by decide)
  exact ⟨{ o with argument := o.argument ++ rest, unclosed := hunclosed },
    by simp [OpenArgument.text]⟩

/-! ### Slashes in a statement -/

/-- A character of a text in two parts is in the first part or in the second. -/
lemma exists_of_append_eq {α : Type} {a b front back : List α} {c : α}
    (h : a ++ b = front ++ c :: back) :
    (∃ more, a = front ++ c :: more) ∨
    ∃ more, front = a ++ more ∧ b = more ++ c :: back := by
  rcases List.append_eq_append_iff.1 h with ⟨more, hfront, hb⟩ | ⟨more, hmore, hback⟩
  · exact .inr ⟨more, hfront, hb⟩
  · cases more with
    | nil => exact .inr ⟨[], by simpa using hmore.symm, by simpa using hback.symm⟩
    | cons d more =>
      obtain ⟨rfl, -⟩ := List.cons.inj hback
      exact .inl ⟨more, hmore⟩

/-- If a part does not contain a character, the first place of that character is behind it. -/
lemma exists_of_append_eq_of_not_mem {α : Type} {a b front back : List α} {c : α}
    (h : a ++ b = front ++ c :: back) (ha : c ∉ a) :
    ∃ more, front = a ++ more ∧ b = more ++ c :: back := by
  rcases exists_of_append_eq h with ⟨more, rfl⟩ | hmore
  · simp at ha
  · exact hmore

/-- A slash in an attribute belongs to its argument. -/
lemma Attribute.exists_argument (a : Attribute) {front back : List Char}
    (h : a.text = front ++ '/' :: back) :
    ∃ argument, ')' ∉ argument ∧ front = '@' :: (a.name ++ '(' :: argument) := by
  have hname : '/' ∉ '@' :: a.name := by
    intro hmem
    rcases List.mem_cons.1 hmem with hmem | hmem
    · exact absurd hmem (by decide)
    · exact absurd (a.isWord _ hmem) (by decide +kernel)
  have hafter : '/' ∉ a.after.chars := fun hmem => absurd (a.after.isMargin _ hmem) (by decide)
  obtain ⟨more, rfl, hmore⟩ := exists_of_append_eq_of_not_mem (a := '@' :: a.name) h hname
  cases hargument : a.argument with
  | none =>
    rw [hargument, Option.toList_none, List.flatMap_nil, List.nil_append] at hmore
    exact absurd (hmore ▸ by simp) hafter
  | some argument =>
    have hunclosed := a.unclosed argument hargument
    rw [hargument, Option.toList_some, List.flatMap_singleton, inParentheses, List.cons_append,
      List.append_assoc] at hmore
    obtain ⟨inner, rfl, hinner⟩ := exists_of_append_eq_of_not_mem (a := ['(']) hmore (by decide)
    refine ⟨inner, ?_, by simp⟩
    rcases exists_of_append_eq hinner with ⟨more, rfl⟩ | ⟨more, -, hclose⟩
    · exact fun hmem => hunclosed (List.mem_append_left _ hmem)
    · -- Behind the parenthesis there are blanks only.
      have hmem : '/' ∈ [')'] ++ a.after.chars := by rw [hclose]; simp
      rcases List.mem_append.1 hmem with hmem | hmem
      · exact absurd hmem (by decide)
      · exact absurd hmem hafter

/-- A slash among attributes opens an argument, if there is none behind them. -/
lemma exists_openArgument {attributes : List Attribute} (hrest : '/' ∉ rest)
    {front back : List Char}
    (h : attributes.flatMap Attribute.text ++ rest = front ++ '/' :: back) :
    ∃ o : OpenArgument, o.indent = [] ∧ o.text = front := by
  induction attributes generalizing front with
  | nil =>
    have hmem : '/' ∈ rest := by rw [show rest = front ++ '/' :: back from h]; simp
    exact absurd hmem hrest
  | cons a attributes ih =>
    rw [List.flatMap_cons, List.append_assoc] at h
    rcases exists_of_append_eq h with ⟨more, hmore⟩ | ⟨more, rfl, hmore⟩
    · obtain ⟨argument, hunclosed, rfl⟩ := a.exists_argument hmore
      refine ⟨⟨[], [], a.name, argument, by simp [IsMargin], a.ne_nil, a.isWord, hunclosed⟩,
        rfl, ?_⟩
      simp [OpenArgument.text]
    · obtain ⟨o, hindent, rfl⟩ := ih hmore
      refine ⟨{ o with attributes := a :: o.attributes }, hindent, ?_⟩
      simp [OpenArgument.text, hindent]

/-- What may stand in words and names: a character of a word, a blank, or a dot. -/
def IsPlain (c : Char) : Prop :=
  Text.isWord c = true ∨ Text.isBlank c = true ∨ c = '.'

instance (c : Char) : Decidable (IsPlain c) :=
  inferInstanceAs (Decidable (_ ∨ _ ∨ _))

/-- A keyword and the blanks after it neither open a comment nor a literal. -/
lemma Keyword.isPlain {words : List String} (hwords : AreWords words) (k : Keyword words) :
    ∀ c ∈ k.text, IsPlain c := by
  intro c hc
  rcases List.mem_append.1 hc with hc | hc
  · exact .inl (hwords k.word k.mem c hc)
  · exact .inr (.inl (k.after.isMargin c hc))

/-- A name consists of the characters of words. -/
lemma Name.isWord_text (n : Name) : ∀ c ∈ n.text, Text.isWord c = true := by
  intro c hc
  rcases List.mem_cons.1 hc with rfl | hc
  · exact Text.isWord_of_isNameStart n.isNameStart
  · exact n.isWord c hc

/-- A path ends with a character of a word. -/
lemma exists_last_of_path (first : Name) (further : List Name) :
    ∃ c, (first.text ++ further.flatMap Name.dotted).getLast? = some c ∧
      Text.isWord c = true := by
  have hname : ∀ n : Name, ∃ c, n.text.getLast? = some c ∧ Text.isWord c = true := by
    intro n
    obtain ⟨c, hc⟩ :=
      Option.isSome_iff_exists.1 (List.getLast?_isSome.2 (List.cons_ne_nil n.head n.tail))
    exact ⟨c, hc, n.isWord_text c (List.mem_of_getLast? hc)⟩
  rcases List.eq_nil_or_concat further with rfl | ⟨init, n, rfl⟩
  · simpa using hname first
  · obtain ⟨c, hc, hword⟩ := hname n
    refine ⟨c, ?_, hword⟩
    simp [Name.dotted, List.getLast?_append, List.getLast?_cons, hc]

namespace Statement

variable (s : Statement)

/-- The text of a statement from its access level to the end of its path. -/
def core : List Char :=
  s.access.toList.flatMap Keyword.text ++ (s.keyword.text ++ (s.kind.toList.flatMap Keyword.text ++
    (s.first.text ++ s.further.flatMap Name.dotted)))

/-- The text of a statement up to the end of its path. -/
def front : List Char :=
  s.indent ++ (s.attributes.flatMap Attribute.text ++ s.core)

/-- A statement is what comes before its ending, and the ending. -/
lemma text_eq_front : s.text = s.front ++ s.ending.text := by
  simp [text, body, path, front, core]

/-- With any ending a statement imports the same. -/
lemma ofLine?_front (e : Ending) : ofLine? (s.front ++ e.text) = some s.module := by
  have h := ({ s with ending := e } : Statement).ofLine?_text
  rw [text_eq_front] at h
  exact h

/-- What is between the attributes and the ending of a statement neither opens a comment nor a
literal. -/
lemma isPlain_core : ∀ c ∈ s.core, IsPlain c := by
  intro c hc
  simp only [core, List.mem_append, List.mem_flatMap, Option.mem_toList] at hc
  rcases hc with ⟨k, -, hc⟩ | hc | ⟨k, -, hc⟩ | hc | ⟨n, -, hc⟩
  · exact k.isPlain areWords_accessLevels c hc
  · exact s.keyword.isPlain areWords_import c hc
  · exact k.isPlain areWords_kinds c hc
  · exact .inl (s.first.isWord_text c hc)
  · rcases List.mem_cons.1 hc with rfl | hc
    · exact .inr (.inr rfl)
    · exact .inl (n.isWord_text c hc)

/-- There is no slash in the words and names of a statement. -/
lemma not_mem_core : '/' ∉ s.core := by
  intro hmem
  have hplain : ¬IsPlain '/' := by decide +kernel
  exact hplain (s.isPlain_core '/' hmem)

/-- The path of a statement ends with a character of a word. -/
lemma exists_last : ∃ c, s.front.getLast? = some c ∧ Text.isWord c = true := by
  obtain ⟨c, hc, hword⟩ := exists_last_of_path s.first s.further
  refine ⟨c, ?_, hword⟩
  simp only [front, core, List.getLast?_append] at hc ⊢
  rw [hc]
  rfl

/-- A slash in front of the ending of a statement is in the argument of an attribute. -/
lemma opensArgument {front back : List Char} (h : s.front = front ++ '/' :: back) :
    OpensArgument front := by
  have hindent : '/' ∉ s.indent := fun hmem => absurd (s.indent_isMargin _ hmem) (by decide)
  obtain ⟨more, rfl, hmore⟩ := exists_of_append_eq_of_not_mem h hindent
  obtain ⟨o, ho, rfl⟩ := exists_openArgument s.not_mem_core hmore
  exact ⟨{ o with indent := s.indent, indent_isMargin := s.indent_isMargin },
    by simp [OpenArgument.text, ho]⟩

end Statement

/-- If some code is a statement together with a line comment or blanks, it is one by itself, unless
it ends in the parentheses of an attribute. -/
lemma ofLine?_of_append (h : ofLine? (code ++ trail) = some m) (hcode : code.getLast? ≠ some '/')
    (htrail : Trails trail) (hopens : ¬OpensArgument code) : ofLine? code = some m := by
  obtain ⟨s, hs, rfl⟩ := exists_statement h
  rw [s.text_eq_front] at hs
  rcases List.append_eq_append_iff.1 hs with ⟨more, rfl, hending⟩ | ⟨more, hfront, rfl⟩
  · -- The code goes on with the ending.
    have htail : isTail (more ++ trail) = true := isTail_iff.2 ⟨s.ending, hending.symm⟩
    have hmore : more.getLast? ≠ some '/' := by
      intro hlast
      rw [List.getLast?_append, hlast] at hcode
      exact hcode rfl
    obtain ⟨e, rfl⟩ := isTail_iff.1 (isTail_of_append htail hmore)
    exact s.ofLine?_front e
  · cases more with
    | nil =>
      have hfront' := s.ofLine?_front ⟨[], false, [], none, by simp [IsMargin],
        by simp [IsMargin]⟩
      rw [hfront] at hfront'
      simpa [Ending.text, commentText] using hfront'
    | cons d more =>
      rcases htrail with hmargin | ⟨body, hbody⟩
      · -- A path does not end with a blank.
        obtain ⟨c, hc, hword⟩ := s.exists_last
        rw [hfront, List.getLast?_append_of_ne_nil _ (List.cons_ne_nil d more)] at hc
        have hblank := hmargin c (List.mem_append_left _ (List.mem_of_getLast? hc))
        rw [isWord_of_isBlank hblank] at hword
        cases hword
      · obtain ⟨rfl, -⟩ := List.cons.inj hbody
        exact absurd (s.opensArgument hfront) hopens

/-- Code that is a statement is one together with a line comment or blanks. -/
lemma ofLine?_append (h : ofLine? code = some m) (htrail : Trails trail) :
    ofLine? (code ++ trail) = some m := by
  obtain ⟨s, rfl, rfl⟩ := exists_statement h
  obtain ⟨s', hs', hmodule⟩ := s.exists_append htrail
  rw [← hs', ← hmodule]
  exact s'.ofLine?_text

/-- With blanks in the place of its line comment, a line is the same statement, unless the comment
stands in the parentheses of an attribute. -/
lemma ofLine?_code {gap : List Char} (hcode : code.getLast? ≠ some '/') (hgap : IsMargin gap)
    (body : List Char) :
    ofLine? (code ++ gap) = some m ↔
      ofLine? (code ++ '/' :: '/' :: body) = some m ∧ ¬OpensArgument code := by
  have hcomment : Trails ('/' :: '/' :: body) := .inr ⟨body, rfl⟩
  constructor
  · intro h
    have hopens : ¬OpensArgument code := by
      intro hopens
      obtain ⟨o, ho⟩ := hopens.append hgap
      rw [← ho, o.ofLine?_text] at h
      cases h
    exact ⟨ofLine?_append (ofLine?_of_append h hcode (.inl hgap) hopens) hcomment, hopens⟩
  · rintro ⟨h, hopens⟩
    exact ofLine?_append (ofLine?_of_append h hcode hcomment hopens) (.inl hgap)

/-! ### Lines of a text -/

/-- The modules that are imported, each with the line of its import. -/
def places (imports : List Import) : List (String × Nat) :=
  imports.map fun i => (i.module, i.line)

section Lines

open Text (FeedsOnly LineIn)

variable {allowed : NameSet} {text : List Char}

/-- A line is a place of an import of a module if it is read as one and the module is not
ignored. -/
lemma mem_places (h : FeedsOnly text) (l : LineIn text) :
    (m, l.number) ∈ places (ofText allowed text) ↔
      isIgnored allowed m = false ∧ ofLine? l.line = some m := by
  have hplace : (m, l.number) ∈ places (ofText allowed text) ↔
      ∃ i ∈ ofText allowed text, i.module = m ∧ i.line = l.number := by
    simp [places]
  rw [hplace]
  constructor
  · rintro ⟨i, hi, rfl, hnumber⟩
    obtain ⟨k, line, hline, hon⟩ := mem_ofLines.1 hi
    obtain ⟨hk, hmodule, hignored, -⟩ := onLine?_eq_some_iff.1 hon
    obtain ⟨l', rfl, hnumber'⟩ := Text.exists_lineIn_of_lines h hline
    rw [(LineIn.eq_of_number h (show l.number = l'.number by omega)).2]
    exact ⟨hignored, hmodule⟩
  · rintro ⟨hignored, hmodule⟩
    have hne : l.line ≠ [] := by
      intro hnil
      have hnone : ofLine? [] = none := by decide +kernel
      rw [hnil, hnone] at hmodule
      cases hmodule
    have hnumber : l.number = 1 + (l.number - 1) := by
      have hpos : 0 < l.number := Nat.succ_pos _
      omega
    have hon : onLine? allowed (1 + (l.number - 1)) l.line =
        some ⟨m, l.number, Source.containsText "@testable".toList l.line⟩ :=
      onLine?_eq_some_iff.2 ⟨hnumber, hmodule, hignored, rfl⟩
    exact ⟨_, mem_ofLines.2 ⟨l.number - 1, l.line, l.getElem?_lines hne, hon⟩, rfl, rfl⟩

/-- A line in which a comment begins in the parentheses of an attribute. -/
def CutsArgument (l : LineIn text) : Prop :=
  ∃ e ∈ Source.comments text, l.Contains e.start ∧
    OpensArgument (l.line.take (e.start - l.before.length))

/-- In the clean view it counts what is left of a line. -/
lemma mem_places_clean (h : FeedsOnly text) (l : LineIn text) :
    (m, l.number) ∈ places (ofText allowed (Source.clean text)) ↔
      isIgnored allowed m = false ∧ ofLine? l.cleaned = some m := by
  obtain ⟨l', hline, hnumber⟩ := l.inClean h
  rw [← hnumber, ← hline]
  exact mem_places (Source.feedsOnly_clean h) l'

/-- On a line that no block comment meets the clean view has the same import, if no comment begins
in the parentheses of an attribute, and none if one does. -/
lemma mem_places_clean_iff (h : FeedsOnly text) {l : LineIn text} (hblock : ¬l.MeetsBlock) :
    (m, l.number) ∈ places (ofText allowed (Source.clean text)) ↔
      (m, l.number) ∈ places (ofText allowed text) ∧ ¬CutsArgument l := by
  rw [mem_places_clean h, mem_places h, and_assoc]
  refine and_congr_right fun _ => ?_
  rcases LineIn.exists_code h hblock with ⟨hcleaned, hnone⟩ |
    ⟨code, body, gap, hline, hcleaned, hgap, hcode, hcomment⟩
  · have hcuts : ¬CutsArgument l := by
      rintro ⟨e, he, hl, -⟩
      exact hnone e he hl
    rw [hcleaned]
    exact (and_iff_left hcuts).symm
  · have htake : ∀ n, n = l.before.length + code.length →
        l.line.take (n - l.before.length) = code := by
      rintro n rfl
      rw [Nat.add_sub_cancel_left, hline, List.take_left]
    have hcuts : CutsArgument l ↔ OpensArgument code := by
      constructor
      · rintro ⟨e, he, hl, hopens⟩
        obtain rfl := (hcomment e).1 ⟨he, hl⟩
        rwa [htake _ rfl] at hopens
      · intro hopens
        obtain ⟨he, hl⟩ := (hcomment _).2 rfl
        exact ⟨_, he, hl, by rwa [htake _ rfl]⟩
    rw [hcleaned, hline, hcuts]
    exact ofLine?_code hcode hgap body

/-- Every place is in some line. -/
lemma exists_line_of_mem_places (h : FeedsOnly text) {place : String × Nat}
    (hplace : place ∈ places (ofText allowed text)) :
    ∃ l : LineIn text, l.number = place.2 := by
  obtain ⟨i, hi, rfl⟩ := List.mem_map.1 hplace
  obtain ⟨k, line, hline, hon⟩ := mem_ofLines.1 hi
  obtain ⟨hk, -⟩ := onLine?_eq_some_iff.1 hon
  obtain ⟨l, -, hnumber⟩ := Text.exists_lineIn_of_lines h hline
  refine ⟨l, ?_⟩
  dsimp only
  omega

/-- Every place of an import in the clean text is a line of the text. -/
lemma exists_line_of_mem_places_clean (h : FeedsOnly text) {place : String × Nat}
    (hplace : place ∈ places (ofText allowed (Source.clean text))) :
    ∃ l : LineIn text, l.number = place.2 := by
  have hclean := Source.feedsOnly_clean h
  obtain ⟨l', hnumber⟩ := exists_line_of_mem_places hclean hplace
  obtain ⟨l, -, -, hsame⟩ := l'.exists_same hclean h (Source.map_newline_clean text)
  exact ⟨l, hsame.trans hnumber⟩

/-- Two lists of places are the same if they have the same members, since each line has one at
most. -/
lemma places_eq {text' : List Char}
    (h : ∀ place, place ∈ places (ofText allowed text) ↔
      place ∈ places (ofText allowed text')) :
    places (ofText allowed text) = places (ofText allowed text') := by
  have hpairwise : ∀ cs, (places (ofText allowed cs)).Pairwise fun p q => p.2 < q.2 := fun cs =>
    List.pairwise_map.2 (pairwise_ofLines allowed 1 (Text.lines cs))
  have hnodup : ∀ cs, (places (ofText allowed cs)).Nodup := fun cs =>
    (hpairwise cs).imp fun hlt heq => absurd (heq ▸ hlt) (Nat.lt_irrefl _)
  have hperm := (List.perm_ext_iff_of_nodup (hnodup text) (hnodup text')).2 h
  exact hperm.eq_of_pairwise (fun p q _ _ hlt hlt' => absurd hlt' (Nat.lt_asymm hlt))
    (hpairwise text) (hpairwise text')

/-- What comments do to the imports of a text. -/
structure ReadByLine (allowed : NameSet) (text : List Char) : Prop where
  /-- The line alone counts, with the comments in it. -/
  mem_iff : ∀ (l : LineIn text) (m : String), (m, l.number) ∈ places (ofText allowed text) ↔
    isIgnored allowed m = false ∧ ∃ s : Statement, s.text = l.line ∧ s.module = m
  /-- In the clean view what is left of the line counts. -/
  mem_clean_iff : ∀ (l : LineIn text) (m : String),
    (m, l.number) ∈ places (ofText allowed (Source.clean text)) ↔
    isIgnored allowed m = false ∧ ∃ s : Statement, s.text = l.cleaned ∧ s.module = m
  /-- This is the same for lines without block comments and without cut arguments. -/
  agree : ∀ l : LineIn text, ¬l.MeetsBlock → ∀ m : String,
    (m, l.number) ∈ places (ofText allowed (Source.clean text)) ↔
      (m, l.number) ∈ places (ofText allowed text) ∧ ¬CutsArgument l
  /-- So only the other lines can make a difference. -/
  eq_iff : places (ofText allowed (Source.clean text)) = places (ofText allowed text) ↔
    ∀ l : LineIn text, l.MeetsBlock ∨ CutsArgument l → ∀ m : String,
      (m, l.number) ∈ places (ofText allowed (Source.clean text)) ↔
        (m, l.number) ∈ places (ofText allowed text)

/-- If all line breaks of a text are line feeds, its imports are those of its clean view, line by
line, but for lines that a block comment meets and lines in which a comment begins in the
parentheses of an attribute. -/
theorem imports_clean (allowed : NameSet) {text : List Char} (h : FeedsOnly text) :
    ReadByLine allowed text := by
  have hagree : ∀ l : LineIn text, ¬l.MeetsBlock → ∀ m : String,
      (m, l.number) ∈ places (ofText allowed (Source.clean text)) ↔
        (m, l.number) ∈ places (ofText allowed text) ∧ ¬CutsArgument l :=
    fun l hblock m => mem_places_clean_iff h hblock
  constructor
  case mem_iff =>
    intro l m
    rw [mem_places h, ofLine?_eq_some_iff]
  case mem_clean_iff =>
    intro l m
    rw [mem_places_clean h, ofLine?_eq_some_iff]
  case agree => exact hagree
  case eq_iff =>
    constructor
    · intro heq l _ m
      rw [heq]
    · intro hlines
      have hline : ∀ (l : LineIn text) (m : String),
          (m, l.number) ∈ places (ofText allowed (Source.clean text)) ↔
          (m, l.number) ∈ places (ofText allowed text) := by
        intro l m
        by_cases hl : l.MeetsBlock ∨ CutsArgument l
        · exact hlines l hl m
        · rw [not_or] at hl
          rw [hagree l hl.1 m, and_iff_left hl.2]
      refine places_eq fun place => ?_
      constructor
      · intro hplace
        obtain ⟨l, hl⟩ := exists_line_of_mem_places_clean h hplace
        obtain ⟨m, number⟩ := place
        obtain rfl : l.number = number := hl
        exact (hline l m).1 hplace
      · intro hplace
        obtain ⟨l, hl⟩ := exists_line_of_mem_places h hplace
        obtain ⟨m, number⟩ := place
        obtain rfl : l.number = number := hl
        exact (hline l m).2 hplace

/-- A statement with a comment, and one in a comment. -/
theorem imports_clean_kit :
    let text := "import Kit // all\n/* import Old */\n".toList
    FeedsOnly text ∧ ReadByLine ∅ text := by
  intro text
  have h : FeedsOnly text := by decide +kernel
  exact ⟨h, imports_clean ∅ h⟩

/-- A line in a block comment may be a statement, so comments can produce imports. -/
theorem places_of_blockComment :
    ¬∀ (allowed : NameSet) (text : List Char), FeedsOnly text →
      places (ofText allowed (Source.clean text)) = places (ofText allowed text) := by
  intro hall
  have heq := hall ∅ "/*\nimport Foo\n*/".toList (by decide +kernel)
  have hclean : ofText ∅ (Source.clean "/*\nimport Foo\n*/".toList) = [] := by decide +kernel
  have hignored : isIgnored ∅ "Foo" = false := by
    rw [isIgnored_eq]
    decide +kernel
  have hon : onLine? ∅ 2 "import Foo".toList = some ⟨"Foo", 2, false⟩ :=
    onLine?_eq_some_iff.2 ⟨rfl, by decide +kernel, hignored, by decide +kernel⟩
  have hmem : ⟨"Foo", 2, false⟩ ∈ ofText ∅ "/*\nimport Foo\n*/".toList :=
    mem_ofLines.2 ⟨1, "import Foo".toList, by decide +kernel, hon⟩
  have hplace : ("Foo", 2) ∈ places (ofText ∅ "/*\nimport Foo\n*/".toList) :=
    List.mem_map_of_mem hmem
  rw [← heq, hclean] at hplace
  cases hplace

end Lines

end SwiftDependencies.Import
