import Mathlib.Data.List.DropRight
import Mathlib.Tactic.Common
import SwiftDependencies.Proofs.Import.Grammar

/-!
# Lines that are import statements

A line is read as an import exactly if it is the text of a statement (`ofLine?_eq_some_iff`), and
the module that is read is the first name of the path.  So no line has two readings, whatever
statements it is the text of.

This is not because words are reserved.  The kinds of what is imported are names as well: `import
struct` and `import struct.Kit` import a module called `struct`, and `import struct Kit` one called
`Kit`.  What tells them apart is that blanks end a path for good, and no name can follow
(`bind_afterOneOf?_kinds`).

`statements_of_text` says which imports a text has.
-/

namespace SwiftDependencies.Import

open Source (isBlank_of_joinsName isWord_of_isBlank joinsName_of_isWord)

variable {cs rest : List Char} {words : List String} {m : String}

/-! ### Kinds -/

/-- A text that begins with a letter of ASCII or an underscore. -/
def BeginsWithLetter (cs : List Char) : Prop :=
  cs.head?.any Text.isNameStart = true

instance (cs : List Char) : Decidable (BeginsWithLetter cs) :=
  inferInstanceAs (Decidable (_ = _))

/-- What begins with a letter has a first character that may begin a name. -/
lemma BeginsWithLetter.exists_cons (h : BeginsWithLetter cs) :
    ∃ c tail, cs = c :: tail ∧ Text.isNameStart c = true := by
  obtain ⟨c, hc, hstart⟩ := (Option.any_eq_true _ _).1 h
  obtain ⟨tail, rfl⟩ := List.head?_eq_some_iff.1 hc
  exact ⟨c, tail, rfl, hstart⟩

/-- What begins with a letter begins with no blank. -/
lemma BeginsWithLetter.firm (h : BeginsWithLetter cs) : Firm cs := by
  obtain ⟨c, tail, rfl, hc⟩ := h.exists_cons
  exact firm_cons (isBlank_of_joinsName (joinsName_of_isWord (Text.isWord_of_isNameStart hc))) tail

/-- What begins with a letter begins with no attribute. -/
lemma BeginsWithLetter.head?_ne (h : BeginsWithLetter cs) : cs.head? ≠ some '@' := by
  obtain ⟨c, tail, rfl, hc⟩ := h.exists_cons
  rintro heq
  obtain rfl : c = '@' := by simpa using heq
  exact absurd hc (by decide)

/-- What begins with a letter does so whatever follows. -/
lemma BeginsWithLetter.append (h : BeginsWithLetter cs) (rest : List Char) :
    BeginsWithLetter (cs ++ rest) := by
  obtain ⟨c, tail, rfl, hc⟩ := h.exists_cons
  simpa [BeginsWithLetter] using hc

/-- A name begins with a letter. -/
lemma beginsWithLetter_name (n : Name) (rest : List Char) : BeginsWithLetter (n.text ++ rest) := by
  simpa [BeginsWithLetter, Name.text] using n.isNameStart

/-- A keyword begins with a letter. -/
lemma Keyword.beginsWithLetter (hwords : ∀ w ∈ words, BeginsWithLetter w.toList)
    (k : Keyword words) (rest : List Char) : BeginsWithLetter (k.text ++ rest) := by
  rw [Keyword.text, List.append_assoc]
  exact (hwords k.word k.mem).append _

/-- Behind its blanks an ending has a semicolon or a comment, not a name. -/
lemma not_beginsWithLetter_ending (e : Ending) : ¬BeginsWithLetter (skipBlanks e.text) := by
  obtain ⟨before, semicolon, after, comment, hbefore, hafter⟩ := e
  cases semicolon with
  | true =>
    have hskip : skipBlanks (before ++ ';' :: (after ++ commentText comment)) =
        ';' :: (after ++ commentText comment) := skipBlanks_append hbefore (firm_cons (by decide) _)
    have htext : Ending.text ⟨before, true, after, comment, hbefore, hafter⟩ =
        before ++ ';' :: (after ++ commentText comment) := rfl
    rw [htext, hskip]
    exact Bool.false_ne_true
  | false =>
    have hmargin : IsMargin (before ++ after) := fun c hc =>
      (List.mem_append.1 hc).elim (hbefore c) (hafter c)
    have htext : Ending.text ⟨before, false, after, comment, hbefore, hafter⟩ =
        before ++ (after ++ commentText comment) := rfl
    rw [htext, ← List.append_assoc, skipBlanks_append hmargin (firm_commentText comment)]
    cases comment with
    | none => exact Bool.false_ne_true
    | some cs => exact Bool.false_ne_true

/-- If a path is all that there is, it is not read as a kind and a path. A kind would be the first
name of the path, and the blanks behind it would begin the ending, in which no name can follow. -/
lemma bind_afterOneOf?_kinds (first : Name) (further : List Name) (ending : Ending) :
    (afterOneOf? kinds (first.text ++ (further.flatMap Name.dotted ++ ending.text))).bind
      pathModule? = none := by
  rw [Option.eq_none_iff_forall_ne_some]
  intro m h
  obtain ⟨rest, hrest, hm⟩ := Option.bind_eq_some_iff.1 h
  obtain ⟨k, heq, -⟩ := (afterOneOf?_eq_some_iff areWords_kinds).1 hrest
  obtain ⟨first', further', ending', rfl, -⟩ := pathModule?_eq_some_iff.1 hm
  have hletter := beginsWithLetter_name first' (further'.flatMap Name.dotted ++ ending'.text)
  generalize first'.text ++ (further'.flatMap Name.dotted ++ ending'.text) = rest at heq hletter
  obtain ⟨c, gap, hgap, hc⟩ := k.after.exists_cons
  rw [Keyword.text, List.append_assoc] at heq
  have hfurther : further.flatMap Name.dotted ++ ending.text = k.after.chars ++ rest := by
    have hname : ∀ d ∈ first.text, Text.isWord d = true := by
      intro d hd
      rcases List.mem_cons.1 hd with rfl | hd
      · exact Text.isWord_of_isNameStart first.isNameStart
      · exact first.isWord d hd
    have hblank : ∀ d ∈ (k.after.chars ++ rest).head?, Text.isWord d = false := by
      intro d hd
      obtain rfl : c = d := by simpa [hgap] using hd
      exact isWord_of_isBlank hc
    have hdrop := congrArg (List.dropWhile Text.isWord) heq
    rwa [dropWhile_isWord hname (isWord_further further (endsPath_ending ending)),
      dropWhile_isWord (areWords_kinds k.word k.mem) hblank] at hdrop
  cases further with
  | nil =>
    rw [List.flatMap_nil, List.nil_append] at hfurther
    have hskip := congrArg skipBlanks hfurther
    rw [skipBlanks_append k.after.isMargin hletter.firm] at hskip
    exact not_beginsWithLetter_ending ending (hskip ▸ hletter)
  | cons n further =>
    obtain rfl : '.' = c := by simpa [Name.dotted, hgap] using congrArg List.head? hfurther
    exact absurd hc (by decide)

/-! ### Lines -/

/-- A word that may be missing, and the text after it. -/
lemma exists_getD_afterOneOf? (hwords : AreWords words) (cs : List Char) :
    ∃ k : Option (Keyword words), cs = k.toList.flatMap Keyword.text ++
      (afterOneOf? words cs).getD cs := by
  cases h : afterOneOf? words cs with
  | none => exact ⟨none, rfl⟩
  | some rest =>
    obtain ⟨k, hk, -⟩ := (afterOneOf?_eq_some_iff hwords).1 h
    exact ⟨some k, by simpa using hk⟩

/-- The access levels begin with letters. -/
lemma beginsWithLetter_accessLevels :
    ∀ w ∈ accessLevels, BeginsWithLetter w.toList := by decide +kernel

/-- The keyword of an import begins with a letter. -/
lemma beginsWithLetter_import : ∀ w ∈ ["import"], BeginsWithLetter w.toList := by decide +kernel

/-- The kinds of declarations begin with letters. -/
lemma beginsWithLetter_kinds : ∀ w ∈ kinds, BeginsWithLetter w.toList := by decide +kernel

namespace Statement

variable (s : Statement)

/-- The path of a statement begins with a letter. -/
lemma beginsWithLetter_path : BeginsWithLetter s.path :=
  beginsWithLetter_name s.first _

/-- What follows the keyword of a statement begins with a letter. -/
lemma beginsWithLetter_kind : BeginsWithLetter (s.kind.toList.flatMap Keyword.text ++ s.path) := by
  cases s.kind with
  | none => exact s.beginsWithLetter_path
  | some k => simpa using k.beginsWithLetter beginsWithLetter_kinds s.path

/-- What follows the attributes of a statement begins with a letter. -/
lemma beginsWithLetter_body : BeginsWithLetter s.body := by
  rw [body]
  cases s.access with
  | none => exact s.keyword.beginsWithLetter beginsWithLetter_import _
  | some k => simpa using k.beginsWithLetter beginsWithLetter_accessLevels _

/-- First the blanks in front of a statement are skipped. -/
lemma skipBlanks_text : skipBlanks s.text = s.attributes.flatMap Attribute.text ++ s.body :=
  skipBlanks_append s.indent_isMargin (firm_attributes s.attributes s.beginsWithLetter_body.firm)

/-- Then its attributes are passed over. -/
lemma afterAttributes_text : afterAttributes (skipBlanks s.text) = s.body := by
  rw [skipBlanks_text]
  exact afterAttributes_append s.attributes s.beginsWithLetter_body.firm
    (afterAttribute?_eq_none s.beginsWithLetter_body.head?_ne)

/-- The keyword of a statement is the one of imports. -/
lemma word_keyword : s.keyword.word = "import" := by
  simpa using s.keyword.mem

/-- Then its access level is passed over, if there is one. -/
lemma afterAccess_body : (afterOneOf? accessLevels s.body).getD s.body =
    s.keyword.text ++ (s.kind.toList.flatMap Keyword.text ++ s.path) := by
  rw [body]
  cases s.access with
  | none =>
    have hnone := afterOneOf?_eq_none areWords_accessLevels (areWords_import.isBlank s.keyword.mem)
      (by rw [s.word_keyword]; decide)
        s.keyword.after (s.kind.toList.flatMap Keyword.text ++ s.path)
    rw [← List.append_assoc, ← Keyword.text] at hnone
    simp [hnone]
  | some k =>
    have hfirm := (s.keyword.beginsWithLetter beginsWithLetter_import
      (s.kind.toList.flatMap Keyword.text ++ s.path)).firm
    have hsome := (afterOneOf?_eq_some_iff areWords_accessLevels).2 ⟨k, rfl, hfirm⟩
    simp [hsome]

/-- Then its keyword is read. -/
lemma afterImport :
    afterWord? "import" (s.keyword.text ++ (s.kind.toList.flatMap Keyword.text ++ s.path)) =
    some (s.kind.toList.flatMap Keyword.text ++ s.path) := by
  refine afterWord?_eq_some_iff.2 ⟨s.keyword.after, ?_, s.beginsWithLetter_kind.firm⟩
  rw [Keyword.text, s.word_keyword, List.append_assoc]

/-- What is left is read as the module, whether or not a kind of declaration comes first. -/
lemma module_path :
    ((afterOneOf? kinds (s.kind.toList.flatMap Keyword.text ++ s.path)).bind pathModule?).or
    (pathModule? (s.kind.toList.flatMap Keyword.text ++ s.path)) = some s.module := by
  have hpath : pathModule? s.path = some s.module :=
    pathModule?_eq_some_iff.2 ⟨s.first, s.further, s.ending, rfl, rfl⟩
  cases s.kind with
  | none =>
    have hnone : (afterOneOf? kinds s.path).bind pathModule? = none :=
      bind_afterOneOf?_kinds s.first s.further s.ending
    simp [hnone, hpath]
  | some k =>
    have hsome : afterOneOf? kinds (k.text ++ s.path) = some s.path :=
      (afterOneOf?_eq_some_iff areWords_kinds).2 ⟨k, rfl, s.beginsWithLetter_path.firm⟩
    simp [hsome, hpath]

/-- A statement is read as an import of its module. -/
lemma ofLine?_text : ofLine? s.text = some s.module := by
  rw [ofLine?, afterAttributes_text]
  simp only [afterAccess_body, afterImport, module_path, Option.bind_eq_bind, Option.bind_some]

end Statement

/-- A line that is read as an import is a statement. -/
lemma exists_statement {line : List Char} (h : ofLine? line = some m) :
    ∃ s : Statement, s.text = line ∧ s.module = m := by
  obtain ⟨indent, hindent, -, hline⟩ := exists_skipBlanks line
  obtain ⟨attributes, hattributes⟩ := exists_afterAttributes (skipBlanks line)
  obtain ⟨access, haccess⟩ :=
    exists_getD_afterOneOf? areWords_accessLevels (afterAttributes (skipBlanks line))
  rw [ofLine?] at h
  generalize afterAttributes (skipBlanks line) = body at h hattributes haccess
  generalize (afterOneOf? accessLevels body).getD body = core at h haccess
  obtain ⟨rest, himport, hkind⟩ := Option.bind_eq_some_iff.1 h
  obtain ⟨after, hcore, -⟩ := afterWord?_eq_some_iff.1 himport
  obtain ⟨kind, path, hrest, hpath⟩ : ∃ (kind : Option (Keyword kinds)) (path : List Char),
      rest = kind.toList.flatMap Keyword.text ++ path ∧ pathModule? path = some m := by
    rcases Option.or_eq_some_iff.1 hkind with hsome | ⟨-, hnone⟩
    · obtain ⟨path, hk, hpath⟩ := Option.bind_eq_some_iff.1 hsome
      obtain ⟨k, hk, -⟩ := (afterOneOf?_eq_some_iff areWords_kinds).1 hk
      exact ⟨some k, path, by simpa using hk, hpath⟩
    · exact ⟨none, rest, rfl, hnone⟩
  obtain ⟨first, further, ending, rfl, hm⟩ := pathModule?_eq_some_iff.1 hpath
  refine ⟨⟨indent, attributes, access, ⟨"import", by simp, after⟩, kind, first, further,
    ending, hindent⟩, ?_, hm⟩
  rw [hline, hattributes, haccess, hcore, hrest]
  simp [Statement.text, Statement.body, Statement.path, Keyword.text]

/-- A line is read as an import of a module exactly if it is a statement that imports it. -/
lemma ofLine?_eq_some_iff {line : List Char} :
    ofLine? line = some m ↔ ∃ s : Statement, s.text = line ∧ s.module = m := by
  constructor
  · exact exists_statement
  · rintro ⟨s, rfl, rfl⟩
    exact s.ofLine?_text

/-- A kind is a kind only before a name. -/
example :
    ofLine? "import struct".toList = some "struct" ∧ ofLine? "import struct.Kit;".toList =
      some "struct" ∧
      ofLine? "@_spi(A b) public import struct Kit.Set // all".toList = some "Kit" ∧
      ofLine? "import struct Kit struct".toList = none := by
  decide +kernel

/-- A line that begins with a comment, but for blanks. -/
def IsCommentLine (line : List Char) : Prop :=
  ['/', '/'] <+: Text.dropMargins Text.isBlank line ∨
    ['/', '*'] <+: Text.dropMargins Text.isBlank line

/-- No statement stands on such a line, so these lines need not be told from others. -/
lemma Statement.not_isCommentLine (s : Statement) : ¬IsCommentLine s.text := by
  have hhead : ∀ c, ['/', c] <+: Text.dropMargins Text.isBlank s.text →
      (skipBlanks s.text).head? = some '/' := by
    intro c h
    have hend : Text.dropMargins Text.isBlank s.text <+: skipBlanks s.text :=
      List.rdropWhile_prefix Text.isBlank (skipBlanks s.text)
    obtain ⟨tail, htail⟩ := h.trans hend
    rw [← htail]
    rfl
  have hslash : (skipBlanks s.text).head? ≠ some '/' := by
    rw [s.skipBlanks_text]
    cases s.attributes with
    | nil =>
      obtain ⟨c, tail, hbody, hc⟩ := s.beginsWithLetter_body.exists_cons
      rw [List.flatMap_nil, List.nil_append, hbody]
      rintro heq
      obtain rfl : c = '/' := by simpa using heq
      exact absurd hc (by decide)
    | cons a attributes => simp [Attribute.text]
  rintro (h | h) <;> exact hslash (hhead _ h)

/-! ### Texts -/

/-- The import on a line with a number, unless its module is ignored. -/
def onLine? (allowed : NameSet) (number : Nat) (line : List Char) : Option Import :=
  ((ofLine? line).filter fun name => !isIgnored allowed name).map fun name =>
    ⟨name, number, Source.containsText "@testable".toList line⟩

section Numbered

variable {allowed : NameSet} {number : Nat} {line : List Char} {lines : List (List Char)}
    {i : Import}

/-- A line gives an import with its number if it is read as one and the module is not ignored. -/
lemma onLine?_eq_some_iff :
    onLine? allowed number line = some i ↔ i.line = number ∧ ofLine? line = some i.module ∧
      isIgnored allowed i.module = false ∧
      i.testable = Source.containsText "@testable".toList line := by
  simp only [onLine?, Option.map_eq_some_iff, Option.filter_eq_some_iff, Bool.not_eq_true']
  constructor
  · rintro ⟨name, ⟨hname, hignored⟩, rfl⟩
    exact ⟨rfl, hname, hignored, rfl⟩
  · obtain ⟨name, k, testable⟩ := i
    rintro ⟨rfl, hname, hignored, rfl⟩
    exact ⟨name, ⟨hname, hignored⟩, rfl⟩

/-- The imports of lines are those of the first and of the others. -/
lemma ofLines_cons :
    ofLines allowed number (line :: lines) =
      (onLine? allowed number line).toList ++ ofLines allowed (number + 1) lines := by
  rw [ofLines, onLine?]
  cases ofLine? line with
  | none => rfl
  | some name => cases h : isIgnored allowed name <;> simp [h, Option.filter]

/-- The imports among numbered lines are those on each of them. -/
lemma mem_ofLines : i ∈ ofLines allowed number lines ↔
    ∃ k line, lines[k]? = some line ∧ onLine? allowed (number + k) line = some i := by
  induction lines generalizing number with
  | nil => simp [ofLines]
  | cons line lines ih =>
    rw [ofLines_cons, List.mem_append, Option.mem_toList, ih]
    constructor
    · rintro (h | ⟨k, other, hk, h⟩)
      · exact ⟨0, line, rfl, h⟩
      · exact ⟨k + 1, other, hk, by rwa [Nat.add_assoc, Nat.add_comm 1] at h⟩
    · rintro ⟨k, other, hk, h⟩
      cases k with
      | zero =>
        obtain rfl : line = other := Option.some.inj hk
        exact .inl h
      | succ k => exact .inr ⟨k, other, hk, by rwa [Nat.add_assoc, Nat.add_comm 1]⟩

/-- The imports are in the order of their lines, of which each has one at most. -/
lemma pairwise_ofLines (allowed : NameSet) (number : Nat) (lines : List (List Char)) :
    (ofLines allowed number lines).Pairwise fun i j => i.line < j.line := by
  induction lines generalizing number with
  | nil => exact .nil
  | cons line lines ih =>
    rw [ofLines_cons]
    refine List.pairwise_append.2 ⟨?_, ih _, ?_⟩
    · cases onLine? allowed number line <;> simp
    · intro i hi j hj
      obtain ⟨hline, -⟩ := onLine?_eq_some_iff.1 (Option.mem_toList.1 hi)
      obtain ⟨k, other, -, hother⟩ := mem_ofLines.1 hj
      obtain ⟨hline', -⟩ := onLine?_eq_some_iff.1 hother
      omega

end Numbered

/-- The imports of a text are in the order of their lines, one at most on each. They are those on
the lines that do not begin with a comment, are the text of an import statement, and import a module
that is not ignored; and whatever statement has the text of a line, it imports the same module. -/
theorem statements_of_text (allowed : NameSet) (text : List Char) :
    (ofText allowed text).Pairwise (fun i j => i.line < j.line) ∧
      (∀ i, i ∈ ofText allowed text ↔
        ∃ k line, (Text.lines text)[k]? = some line ∧ i.line = k + 1 ∧
          ¬IsCommentLine line ∧ (∃ s : Statement, s.text = line ∧ s.module = i.module) ∧
          isIgnored allowed i.module = false ∧
          i.testable = Source.containsText "@testable".toList line) ∧
      ∀ s t : Statement, s.text = t.text → s.module = t.module := by
  refine ⟨pairwise_ofLines allowed 1 _, fun i => ?_, fun s t h => ?_⟩
  · rw [ofText, mem_ofLines]
    refine exists_congr fun k => exists_congr fun line => and_congr_right fun _ => ?_
    rw [onLine?_eq_some_iff, Nat.add_comm 1 k, ofLine?_eq_some_iff]
    refine and_congr_right fun _ => ⟨?_, fun h => h.2⟩
    rintro ⟨⟨s, rfl, hs⟩, hrest⟩
    exact ⟨s.not_isCommentLine, ⟨s, rfl, hs⟩, hrest⟩
  · have hs := s.ofLine?_text
    rw [h, t.ofLine?_text] at hs
    exact (Option.some.inj hs).symm

end SwiftDependencies.Import
