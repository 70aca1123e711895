import Mathlib.Data.List.TakeWhile
import Mathlib.Tactic.Common
import SwiftDependencies.Import.Statement
import SwiftDependencies.Proofs.Manifest.Written
import SwiftDependencies.Proofs.Text.Margins

/-!
# The grammar of import statements

`Statement` is an import statement with all its parts: attributes, an access level, the word
`import`, a kind, the names of a path, and an ending.  It is a derivation of its own text, so to be
a statement means to be the text of one.

The readers of the parts are described here, each by the part that it takes
(`afterAttribute?_eq_some_iff`, `afterOneOf?_eq_some_iff`, `pathModule?_eq_some_iff`).  What they
leave does not begin with a blank (`Firm`), which is what makes the parts unique.
-/

namespace SwiftDependencies.Import

open Source (isBlank_of_joinsName isWord_dot isWord_of_isBlank isWord_of_joinsName
  isWord_of_mem_signs
  joinsName_of_isBlank joinsName_of_isWord joinsName_of_mem_signs)

/-! ### Statements -/

/-- A row of blanks. -/
def IsMargin (cs : List Char) : Prop :=
  ∀ c ∈ cs, Text.isBlank c = true

/-- The blanks between two words. -/
structure Separator where
  chars : List Char
  ne_nil : chars ≠ []
  isMargin : IsMargin chars

/-- An attribute, perhaps with an argument, and the blanks after it. -/
structure Attribute where
  name : List Char
  argument : Option (List Char)
  after : Separator
  ne_nil : name ≠ []
  isWord : ∀ c ∈ name, Text.isWord c = true
  unclosed : ∀ cs ∈ argument, ')' ∉ cs

/-- An argument in its parentheses. -/
def inParentheses (cs : List Char) : List Char :=
  '(' :: (cs ++ [')'])

/-- The text of an attribute. -/
def Attribute.text (a : Attribute) : List Char :=
  '@' :: (a.name ++ (a.argument.toList.flatMap inParentheses ++ a.after.chars))

/-- One of some words, and the blanks after it. -/
structure Keyword (words : List String) where
  word : String
  mem : word ∈ words
  after : Separator

/-- The text of a keyword. -/
def Keyword.text {words : List String} (k : Keyword words) : List Char :=
  k.word.toList ++ k.after.chars

/-- A name of a path. -/
structure Name where
  head : Char
  tail : List Char
  isNameStart : Text.isNameStart head = true
  isWord : ∀ c ∈ tail, Text.isWord c = true

/-- The text of a name. -/
def Name.text (n : Name) : List Char :=
  n.head :: n.tail

/-- The text of a name that is not the first of its path. -/
def Name.dotted (n : Name) : List Char :=
  '.' :: n.text

/-- A line comment, if there is one. -/
def commentText : Option (List Char) → List Char
  | none => []
  | some cs => '/' :: '/' :: cs

/-- What may follow a path: a semicolon and a line comment, with blanks before them. -/
structure Ending where
  before : List Char
  semicolon : Bool
  after : List Char
  comment : Option (List Char)
  before_isMargin : IsMargin before
  after_isMargin : IsMargin after

/-- The text of an ending. -/
def Ending.text (e : Ending) : List Char :=
  e.before ++ ((if e.semicolon then [';'] else []) ++ (e.after ++ commentText e.comment))

/-- An import statement. -/
structure Statement where
  indent : List Char
  attributes : List Attribute
  access : Option (Keyword accessLevels)
  keyword : Keyword ["import"]
  kind : Option (Keyword kinds)
  first : Name
  further : List Name
  ending : Ending
  indent_isMargin : IsMargin indent

namespace Statement

/-- The path of a statement and its ending. -/
def path (s : Statement) : List Char :=
  s.first.text ++ (s.further.flatMap Name.dotted ++ s.ending.text)

/-- The text of a statement behind its attributes. -/
def body (s : Statement) : List Char :=
  s.access.toList.flatMap Keyword.text ++
    (s.keyword.text ++ (s.kind.toList.flatMap Keyword.text ++ s.path))

/-- The text of a statement. -/
def text (s : Statement) : List Char :=
  s.indent ++ (s.attributes.flatMap Attribute.text ++ s.body)

/-- The module that a statement imports, which is the first name of its path. -/
def module (s : Statement) : String :=
  String.ofList s.first.text

end Statement

/-! ### Blanks -/

/-- A text that does not begin with a blank. -/
def Firm (cs : List Char) : Prop :=
  ∀ c ∈ cs.head?, Text.isBlank c = false

variable {cs rest : List Char} {words : List String} {m : String}

/-- The empty text begins with no blank. -/
lemma firm_nil : Firm [] := by simp [Firm]

/-- A text that begins with anything else begins with no blank. -/
lemma firm_cons {c : Char} (h : Text.isBlank c = false) (cs : List Char) : Firm (c :: cs) := by
  simpa [Firm] using h

/-- Blanks are skipped as far as they go. -/
lemma skipBlanks_append {gap : List Char} (hgap : IsMargin gap) (hrest : Firm rest) :
    skipBlanks (gap ++ rest) = rest := by
  rw [skipBlanks, List.dropWhile_append_of_pos hgap]
  cases rest with
  | nil => rfl
  | cons c rest => exact List.dropWhile_cons_of_neg (by simp [hrest c rfl])

/-- The blanks in front of a text, and the text after them. -/
lemma exists_skipBlanks (cs : List Char) :
    ∃ gap, IsMargin gap ∧ Firm (skipBlanks cs) ∧ cs = gap ++ skipBlanks cs := by
  exact ⟨cs.takeWhile Text.isBlank, fun c hc => List.mem_takeWhile_imp hc,
    Text.not_of_mem_head?_dropWhile, List.takeWhile_append_dropWhile.symm⟩

/-- A separator has a first blank. -/
lemma Separator.exists_cons (s : Separator) :
    ∃ c tail, s.chars = c :: tail ∧ Text.isBlank c = true := by
  obtain ⟨c, tail, hs⟩ := List.exists_cons_of_ne_nil s.ne_nil
  exact ⟨c, tail, hs, s.isMargin c (by simp [hs])⟩

/-- What comes after blanks that must be there. -/
lemma afterBlanks?_eq_some_iff :
    afterBlanks? cs = some rest ↔ ∃ s : Separator, cs = s.chars ++ rest ∧ Firm rest := by
  constructor
  · intro h
    obtain ⟨gap, hgap, hfirm, hcs⟩ := exists_skipBlanks cs
    unfold afterBlanks? at h
    split at h
    · rename_i hhead
      obtain rfl := Option.some.inj h
      refine ⟨⟨gap, ?_, hgap⟩, hcs, hfirm⟩
      rintro rfl
      rw [List.nil_append] at hcs
      rw [hcs, Option.any_eq_true] at hhead
      obtain ⟨c, hc, hblank⟩ := hhead
      simp [hfirm c hc] at hblank
    · cases h
  · rintro ⟨s, rfl, hrest⟩
    obtain ⟨c, tail, hs, hc⟩ := s.exists_cons
    rw [afterBlanks?, skipBlanks_append s.isMargin hrest, if_pos (by simp [hs, hc])]

/-! ### Words -/

/-- What comes after a word and the blanks behind it. -/
lemma afterWord?_eq_some_iff {word : String} :
    afterWord? word cs = some rest ↔
      ∃ s : Separator, cs = word.toList ++ (s.chars ++ rest) ∧ Firm rest := by
  rw [afterWord?]
  split
  · rename_i hword
    obtain ⟨tail, rfl⟩ := List.isPrefixOf_iff_prefix.1 hword
    rw [List.drop_left' String.length_toList, afterBlanks?_eq_some_iff]
    simp only [List.append_cancel_left_eq]
  · rename_i hword
    refine iff_of_false (by simp) ?_
    rintro ⟨s, rfl, -⟩
    exact hword (List.isPrefixOf_iff_prefix.2 (List.prefix_append _ _))

/-- Words of letters, digits and underscores. -/
def AreWords (words : List String) : Prop :=
  ∀ w ∈ words, ∀ c ∈ w.toList, Text.isWord c = true

-- Written with `List.all`, since the quantifier over `c` would be decided by going through every
-- character there is.
instance (words : List String) : Decidable (AreWords words) :=
  decidable_of_iff (words.all (·.toList.all Text.isWord) = true)
    (by simp only [List.all_eq_true, AreWords])

/-- The access levels are words. -/
lemma areWords_accessLevels : AreWords accessLevels := by decide +kernel

/-- The kinds of declarations are words. -/
lemma areWords_kinds : AreWords kinds := by decide +kernel

/-- The keyword of an import is a word. -/
lemma areWords_import : AreWords ["import"] := by decide +kernel

/-- Words have no blanks in them. -/
lemma AreWords.isBlank (h : AreWords words) {w : String} (hw : w ∈ words) :
    ∀ c ∈ w.toList, Text.isBlank c = false :=
  fun c hc => isBlank_of_joinsName (joinsName_of_isWord (h w hw c hc))

/-- A word is what stands before the first blank. -/
lemma takeWhile_word {word : List Char} (h : ∀ c ∈ word, Text.isBlank c = false) (s : Separator)
    (rest : List Char) :
    (word ++ (s.chars ++ rest)).takeWhile (fun c => !Text.isBlank c) = word := by
  obtain ⟨c, tail, hs, hc⟩ := s.exists_cons
  rw [List.takeWhile_append_of_pos (by simpa using h), hs, List.cons_append,
    List.takeWhile_cons_of_neg (by simp [hc]), List.append_nil]

/-- A text begins with one word and a blank at most. -/
lemma eq_of_word_append {w w' : String} (h : ∀ c ∈ w.toList, Text.isBlank c = false)
    (h' : ∀ c ∈ w'.toList, Text.isBlank c = false) {s s' : Separator} {rest rest' : List Char}
    (heq : w.toList ++ (s.chars ++ rest) = w'.toList ++ (s'.chars ++ rest')) : w = w' := by
  rw [← String.toList_inj, ← takeWhile_word h s rest, heq, takeWhile_word h' s' rest']

/-- What comes after one of some words, where no word begins another one and goes on. -/
lemma afterOneOf?_eq_some_iff (hwords : AreWords words) :
    afterOneOf? words cs = some rest ↔
      ∃ k : Keyword words, cs = k.text ++ rest ∧ Firm rest := by
  constructor
  · intro h
    obtain ⟨word, hmem, hword⟩ := List.exists_of_findSome?_eq_some h
    obtain ⟨s, rfl, hrest⟩ := afterWord?_eq_some_iff.1 hword
    exact ⟨⟨word, hmem, s⟩, (List.append_assoc _ _ _).symm, hrest⟩
  · rintro ⟨k, rfl, hrest⟩
    rw [Keyword.text, List.append_assoc]
    have hk : afterWord? k.word (k.word.toList ++ (k.after.chars ++ rest)) = some rest :=
      afterWord?_eq_some_iff.2 ⟨k.after, rfl, hrest⟩
    cases h : afterOneOf? words (k.word.toList ++ (k.after.chars ++ rest)) with
    | none =>
      rw [afterOneOf?, List.findSome?_eq_none_iff] at h
      rw [h k.word k.mem] at hk
      cases hk
    | some other =>
      -- Another word cannot be found first, since only one stands there.
      obtain ⟨word, hmem, hword⟩ := List.exists_of_findSome?_eq_some h
      obtain ⟨s, heq, -⟩ := afterWord?_eq_some_iff.1 hword
      obtain rfl := eq_of_word_append (hwords.isBlank k.mem) (hwords.isBlank hmem) heq
      rw [← hword, hk]

/-- None of some words is found where another one stands. -/
lemma afterOneOf?_eq_none (hwords : AreWords words) {word : String}
    (hword : ∀ c ∈ word.toList, Text.isBlank c = false) (hmem : word ∉ words) (s : Separator)
    (rest : List Char) : afterOneOf? words (word.toList ++ (s.chars ++ rest)) = none := by
  rw [Option.eq_none_iff_forall_ne_some]
  intro other h
  obtain ⟨k, heq, -⟩ := (afterOneOf?_eq_some_iff hwords).1 h
  rw [Keyword.text, List.append_assoc] at heq
  exact hmem (eq_of_word_append hword (hwords.isBlank k.mem) heq ▸ k.mem)

/-! ### Attributes -/

/-- An argument is skipped if its parenthesis is closed. -/
lemma exists_skipParentheses (cs : List Char) :
    ∃ argument : Option (List Char), (∀ a ∈ argument, ')' ∉ a) ∧
      cs = argument.toList.flatMap inParentheses ++ skipParentheses cs := by
  unfold skipParentheses
  split
  · rename_i rest
    split
    · exact ⟨none, by simp, rfl⟩
    · rename_i c tail hdrop
      have hc : c = ')' := by
        have hnot := List.head?_dropWhile_not (· != ')') rest
        simpa [hdrop] using hnot
      subst hc
      refine ⟨some (rest.takeWhile (· != ')')), ?_, ?_⟩
      · rintro a ha hmem
        obtain rfl := Option.some.inj ha
        simpa using List.mem_takeWhile_imp hmem
      · have hsplit := List.takeWhile_append_dropWhile (p := (· != ')')) (l := rest)
        rw [hdrop] at hsplit
        simp [inParentheses, hsplit]
  · exact ⟨none, by simp, rfl⟩

/-- An argument in parentheses is skipped if there is one. -/
lemma skipParentheses_append {argument : Option (List Char)} (h : ∀ a ∈ argument, ')' ∉ a)
    (hrest : rest.head? ≠ some '(') :
    skipParentheses (argument.toList.flatMap inParentheses ++ rest) = rest := by
  cases argument with
  | none =>
    rw [Option.toList_none, List.flatMap_nil, List.nil_append]
    unfold skipParentheses
    split
    · simp at hrest
    · rfl
  | some a =>
    have ha : ∀ c ∈ a, (c != ')') = true := by
      intro c hc
      rw [bne_iff_ne]
      rintro rfl
      exact h a rfl hc
    simp only [Option.toList_some, List.flatMap_singleton, inParentheses, List.cons_append,
      List.append_assoc, List.nil_append, skipParentheses]
    rw [List.dropWhile_append_of_pos ha, List.dropWhile_cons_of_neg (by simp)]

/-- What stands behind the name of an attribute does not go on with it. -/
lemma Attribute.head?_argument (a : Attribute) (rest : List Char) :
    ∃ c tail, a.argument.toList.flatMap inParentheses ++ (a.after.chars ++ rest) = c :: tail ∧
      Text.isWord c = false := by
  cases a.argument with
  | none =>
    obtain ⟨c, tail, hs, hc⟩ := a.after.exists_cons
    exact ⟨c, tail ++ rest, by simp [hs], isWord_of_isBlank hc⟩
  | some cs => exact ⟨'(', cs ++ (')' :: (a.after.chars ++ rest)), by simp [inParentheses],
      isWord_of_mem_signs (by decide)⟩

/-- What comes after an attribute. -/
lemma afterAttribute?_eq_some_iff :
    afterAttribute? cs = some rest ↔ ∃ a : Attribute, cs = a.text ++ rest ∧ Firm rest := by
  constructor
  · intro h
    unfold afterAttribute? at h
    split at h
    · rename_i c tail
      split at h
      · rename_i hc
        obtain ⟨s, hs, hrest⟩ := afterBlanks?_eq_some_iff.1 h
        obtain ⟨argument, hargument, hsplit⟩ :=
          exists_skipParentheses (tail.dropWhile Text.isWord)
        rw [hs] at hsplit
        refine ⟨⟨c :: tail.takeWhile Text.isWord, argument, s, by simp, ?_, hargument⟩, ?_,
          hrest⟩
        · intro d hd
          rcases List.mem_cons.1 hd with rfl | hd
          · exact hc
          · exact List.mem_takeWhile_imp hd
        · have htail := List.takeWhile_append_dropWhile (p := Text.isWord) (l := tail)
          rw [hsplit] at htail
          conv => lhs; rw [← htail]
          simp [Attribute.text]
      · cases h
    · cases h
  · rintro ⟨a, rfl, hrest⟩
    obtain ⟨c, name, hname⟩ := List.exists_cons_of_ne_nil a.ne_nil
    have hword := a.isWord
    obtain ⟨d, tail, hd, hnot⟩ := a.head?_argument rest
    have hafter : (a.after.chars ++ rest).head? ≠ some '(' := by
      obtain ⟨b, gap, hs, hb⟩ := a.after.exists_cons
      rw [hs, List.cons_append, List.head?_cons]
      rintro heq
      obtain rfl := Option.some.inj heq
      exact absurd hb (by decide)
    simp only [hname, List.mem_cons, forall_eq_or_imp] at hword
    have hdrop :
        (name ++ (a.argument.toList.flatMap inParentheses ++ (a.after.chars ++ rest))).dropWhile
          Text.isWord =
        a.argument.toList.flatMap inParentheses ++ (a.after.chars ++ rest) := by
      rw [List.dropWhile_append_of_pos hword.2, hd, List.dropWhile_cons_of_neg (by simp [hnot])]
    simp only [Attribute.text, hname, List.cons_append, List.append_assoc, afterAttribute?, hword.1,
      if_true, hdrop, skipParentheses_append a.unclosed hafter]
    exact afterBlanks?_eq_some_iff.2 ⟨a.after, rfl, hrest⟩

/-- The attributes in front of a text, and the text after them. -/
lemma exists_afterAttributes (cs : List Char) :
    ∃ attributes : List Attribute, cs = attributes.flatMap Attribute.text ++
      afterAttributes cs := by
  fun_induction afterAttributes cs with
  | case1 cs rest h ih =>
    obtain ⟨a, rfl, -⟩ := afterAttribute?_eq_some_iff.1 h
    obtain ⟨attributes, hrest⟩ := ih
    refine ⟨a :: attributes, ?_⟩
    rw [List.flatMap_cons, List.append_assoc, ← hrest]
  | case2 cs h => exact ⟨[], rfl⟩

/-- Attributes in front of a text that begins with no blank begin with no blank. -/
lemma firm_attributes (attributes : List Attribute) (hrest : Firm rest) :
    Firm (attributes.flatMap Attribute.text ++ rest) := by
  cases attributes with
  | nil => exact hrest
  | cons a attributes => exact firm_cons (by decide) _

/-- A text that does not begin with the sign of attributes begins with no attribute. -/
lemma afterAttribute?_eq_none (h : cs.head? ≠ some '@') : afterAttribute? cs = none := by
  unfold afterAttribute?
  split
  · simp at h
  · rfl

/-- Attributes are read up to what does not begin with one. -/
lemma afterAttributes_append (attributes : List Attribute) (hrest : Firm rest)
    (hnone : afterAttribute? rest = none) :
    afterAttributes (attributes.flatMap Attribute.text ++ rest) = rest := by
  induction attributes with
  | nil =>
    rw [List.flatMap_nil, List.nil_append, afterAttributes]
    split
    · simp_all
    · rfl
  | cons a attributes ih =>
    have hsome : afterAttribute? (a.text ++ (attributes.flatMap Attribute.text ++ rest)) =
        some (attributes.flatMap Attribute.text ++ rest) :=
      afterAttribute?_eq_some_iff.2 ⟨a, rfl, firm_attributes attributes hrest⟩
    rw [List.flatMap_cons, List.append_assoc, afterAttributes]
    split
    · rename_i other h
      obtain rfl := Option.some.inj (h.symm.trans hsome)
      exact ih
    · simp_all

/-! ### Paths -/

/-- A text that goes on neither with a word nor with a dot. -/
def EndsPath (cs : List Char) : Prop :=
  ∀ c ∈ cs.head?, Source.joinsName c = false

/-- A word does not go on where a path ends. -/
lemma EndsPath.isWord (h : EndsPath rest) : ∀ c ∈ rest.head?, Text.isWord c = false :=
  fun c hc => isWord_of_joinsName (h c hc)

/-- A word is read up to where it ends. -/
lemma takeWhile_isWord (hcs : ∀ c ∈ cs, Text.isWord c = true)
    (hrest : ∀ c ∈ rest.head?, Text.isWord c = false) :
    (cs ++ rest).takeWhile Text.isWord = cs := by
  rw [List.takeWhile_append_of_pos hcs]
  cases rest with
  | nil => exact List.append_nil _
  | cons c rest => rw [List.takeWhile_cons_of_neg (by simp [hrest c rfl]), List.append_nil]

/-- What follows a word is left when it is read. -/
lemma dropWhile_isWord (hcs : ∀ c ∈ cs, Text.isWord c = true)
    (hrest : ∀ c ∈ rest.head?, Text.isWord c = false) :
    (cs ++ rest).dropWhile Text.isWord = rest := by
  rw [List.dropWhile_append_of_pos hcs]
  cases rest with
  | nil => rfl
  | cons c rest => exact List.dropWhile_cons_of_neg (by simp [hrest c rfl])

/-- Behind a name no word goes on. -/
lemma isWord_further (further : List Name) (hrest : EndsPath rest) :
    ∀ c ∈ (further.flatMap Name.dotted ++ rest).head?, Text.isWord c = false := by
  cases further with
  | nil => exact hrest.isWord
  | cons n further =>
    intro c hc
    obtain rfl : '.' = c := by simpa [Name.dotted] using hc
    exact isWord_dot

/-- The further names of a path, and the text after them. -/
lemma exists_afterNames (cs : List Char) :
    ∃ further : List Name, cs = further.flatMap Name.dotted ++ afterNames cs := by
  fun_induction afterNames cs with
  | case1 c tail hc ih =>
    obtain ⟨further, htail⟩ := ih
    have hword : ∀ d ∈ tail.takeWhile Text.isWord, Text.isWord d = true :=
      fun d hd => List.mem_takeWhile_imp hd
    refine ⟨⟨c, tail.takeWhile Text.isWord, hc, hword⟩ :: further, ?_⟩
    rw [List.flatMap_cons, List.append_assoc, ← htail]
    simp [Name.dotted, Name.text]
  | case2 c tail hc => exact ⟨[], rfl⟩
  | case3 cs h => exact ⟨[], rfl⟩

/-- Further names of a path are passed over up to its end. -/
lemma afterNames_append (further : List Name) (hrest : EndsPath rest) :
    afterNames (further.flatMap Name.dotted ++ rest) = rest := by
  induction further with
  | nil =>
    rw [List.flatMap_nil, List.nil_append]
    unfold afterNames
    split
    · exact absurd (hrest '.' rfl) (by decide +kernel)
    · rfl
  | cons n further ih =>
    have hdrop := dropWhile_isWord n.isWord (isWord_further further hrest)
    simp only [List.flatMap_cons, Name.dotted, Name.text, List.cons_append, List.append_assoc]
    rw [afterNames, if_pos n.isNameStart, hdrop, ih]

/-! ### Endings -/

/-- A comment begins with no blank, be it missing. -/
lemma firm_commentText (comment : Option (List Char)) : Firm (commentText comment) := by
  cases comment with
  | none => exact firm_nil
  | some cs => exact firm_cons (by decide) _

/-- An ending begins with a blank, a semicolon or a comment. -/
lemma endsPath_ending (e : Ending) : EndsPath e.text := by
  obtain ⟨before, semicolon, after, comment, hbefore, hafter⟩ := e
  have hmargin : ∀ {gap ds : List Char}, IsMargin gap → EndsPath ds →
      EndsPath (gap ++ ds) := by
    intro gap ds hgap hds
    cases gap with
    | nil => exact hds
    | cons d gap =>
      intro c hc
      obtain rfl : d = c := by simpa using hc
      exact joinsName_of_isBlank (hgap d List.mem_cons_self)
  have hsign : ∀ {d : Char} (ds : List Char), d ∈ Source.signs → EndsPath (d :: ds) := by
    intro d ds hd c hc
    obtain rfl : d = c := by simpa using hc
    exact joinsName_of_mem_signs hd
  have hcomment : EndsPath (commentText comment) := by
    cases comment with
    | none => simp [EndsPath, commentText]
    | some cs => exact hsign _ (by decide)
  refine hmargin hbefore ?_
  cases semicolon with
  | true => exact hsign _ (by decide)
  | false =>
    have hends : EndsPath (after ++ commentText comment) := hmargin hafter hcomment
    exact hends

/-- The end of a line is nothing or a comment. -/
lemma exists_commentText (h : (cs.isEmpty || ['/', '/'].isPrefixOf cs) = true) :
    ∃ comment, cs = commentText comment := by
  rcases Bool.or_eq_true_iff.1 h with h | h
  · exact ⟨none, List.isEmpty_iff.1 h⟩
  · obtain ⟨tail, rfl⟩ := List.isPrefixOf_iff_prefix.1 h
    exact ⟨some tail, rfl⟩

/-- The test for the end of a statement accepts the endings. -/
lemma isTail_iff : isTail cs = true ↔ ∃ e : Ending, cs = e.text := by
  constructor
  · intro h
    obtain ⟨before, hbefore, -, hcs⟩ := exists_skipBlanks cs
    rw [isTail] at h
    by_cases hhead : (skipBlanks cs).head? = some ';'
    · obtain ⟨tail, htail⟩ := List.head?_eq_some_iff.1 hhead
      obtain ⟨after, hafter, -, hsplit⟩ := exists_skipBlanks tail
      simp only [htail, List.head?_cons, beq_self_eq_true, if_true, List.drop_succ_cons,
        List.drop_zero] at h
      obtain ⟨comment, hcomment⟩ := exists_commentText h
      refine ⟨⟨before, true, after, comment, hbefore, hafter⟩, ?_⟩
      rw [hcs, htail, hsplit, hcomment]
      rfl
    · simp only [beq_iff_eq, hhead, if_false] at h
      obtain ⟨comment, hcomment⟩ := exists_commentText h
      refine ⟨⟨before, false, [], comment, hbefore, by simp [IsMargin]⟩, ?_⟩
      conv => lhs; rw [hcs, hcomment]
      rfl
  · rintro ⟨⟨before, semicolon, after, comment, hbefore, hafter⟩, rfl⟩
    have hcomment := skipBlanks_append hafter (firm_commentText comment)
    have hend : ((commentText comment).isEmpty || ['/', '/'].isPrefixOf (commentText comment)) =
        true := by
      cases comment <;> simp [commentText]
    cases semicolon with
    | true =>
      have htext : Ending.text ⟨before, true, after, comment, hbefore, hafter⟩ =
          before ++ ';' :: (after ++ commentText comment) := rfl
      rw [isTail, htext, skipBlanks_append hbefore (firm_cons (by decide) _)]
      simpa only [List.head?_cons, beq_self_eq_true, if_true, List.drop_succ_cons,
        List.drop_zero, hcomment]
        using hend
    | false =>
      have htext : Ending.text ⟨before, false, after, comment, hbefore, hafter⟩ =
          before ++ (after ++ commentText comment) := rfl
      have hhead : ((commentText comment).head? == some ';') = false := by
        cases comment <;> rfl
      have hmargin : IsMargin (before ++ after) := fun c hc =>
        (List.mem_append.1 hc).elim (hbefore c) (hafter c)
      rw [isTail, htext, ← List.append_assoc,
        skipBlanks_append hmargin (firm_commentText comment)]
      simpa only [hhead, Bool.false_eq_true, if_false] using hend

/-- A path with nothing after it but an ending. -/
lemma pathModule?_eq_some_iff :
    pathModule? cs = some m ↔ ∃ (first : Name) (further : List Name) (ending : Ending),
      cs = first.text ++ (further.flatMap Name.dotted ++ ending.text) ∧
      String.ofList first.text = m := by
  constructor
  · intro h
    unfold pathModule? at h
    split at h
    · cases h
    · rename_i c tail
      split at h
      · rename_i hc
        rw [Bool.and_eq_true] at hc
        obtain ⟨further, hfurther⟩ := exists_afterNames (tail.dropWhile Text.isWord)
        obtain ⟨ending, hending⟩ := isTail_iff.1 hc.2
        have hword : ∀ d ∈ tail.takeWhile Text.isWord, Text.isWord d = true :=
          fun d hd => List.mem_takeWhile_imp hd
        refine ⟨⟨c, tail.takeWhile Text.isWord, hc.1, hword⟩, further, ending, ?_,
          Option.some.inj h⟩
        rw [← hending, ← hfurther]
        simp [Name.text]
      · cases h
  · rintro ⟨first, further, ending, rfl, rfl⟩
    have hnot := isWord_further further (endsPath_ending ending)
    have htail : isTail (afterNames (further.flatMap Name.dotted ++ ending.text)) = true := by
      rw [afterNames_append further (endsPath_ending ending)]
      exact isTail_iff.2 ⟨ending, rfl⟩
    simp only [Name.text, List.cons_append, pathModule?, first.isNameStart,
      takeWhile_isWord first.isWord hnot, dropWhile_isWord first.isWord hnot, htail,
      Bool.and_self, if_true]

end SwiftDependencies.Import
