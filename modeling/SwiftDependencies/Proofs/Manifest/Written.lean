import Mathlib.Tactic.Common
import SwiftDependencies.Manifest.Fragment
import SwiftDependencies.Proofs.Source.Glyphs

/-!
# Expressions as they are written

An expression of a manifest is a string literal, a dotted name, an array, or a call of a dotted
name. Between its tokens there may be blanks and comments, and a row of items may end with a comma.
`Written` is such an expression with all its tokens and all the space between them, so every text of
the expression is one `Written`, and `Written.term` is the term that it should be read as.

An expression is recovered from its text (`Written.scansBefore`), its brackets are balanced
(`Written.balanced`), and its first and last character are not blank.  These are the facts that the
readers of fragments rest on.
-/

namespace SwiftDependencies

open Source

/-! ### Characters of names -/

namespace Source

/-- The code points of the blank characters. -/
def blankCodes : List Nat :=
  [0x09, 0x0a, 0x0b, 0x0c, 0x0d, 0x1c, 0x1d, 0x1e, 0x1f, 0x20, 0x85, 0xa0, 0x1680, 0x2000, 0x2001,
    0x2002, 0x2003, 0x2004, 0x2005, 0x2006, 0x2007, 0x2008, 0x2009, 0x200a, 0x2028, 0x2029, 0x202f,
    0x205f, 0x3000]

/-- A blank is part of no name. -/
lemma joinsName_of_isBlank {c : Char} (h : Text.isBlank c = true) : joinsName c = false := by
  have hmem : c.toNat ∈ blankCodes := by
    simp only [Text.isBlank, Bool.or_eq_true, Bool.and_eq_true, decide_eq_true_eq,
      beq_iff_eq] at h
    simp only [blankCodes, List.mem_cons, List.not_mem_nil, or_false]
    omega
  have hall : ∀ n ∈ blankCodes, joinsName (Char.ofNat n) = false := by decide +kernel
  simpa using hall _ hmem

/-- The characters with a meaning of their own in a manifest. -/
def signs : List Char :=
  ['(', ')', '[', ']', '{', '}', ',', ':', '"', '#', '/', '=', '@', ';', '+', '?', '\n']

/-- A sign is part of no name. -/
lemma not_mem_signs {c : Char} (h : joinsName c = true) : c ∉ signs := by
  have hall : signs.all (fun c => !joinsName c) = true := by decide +kernel
  intro hc
  simpa [h] using List.all_eq_true.1 hall c hc

/-- Signs do not go on with names. -/
lemma joinsName_of_mem_signs {c : Char} (h : c ∈ signs) : joinsName c = false := by
  rw [← Bool.not_eq_true]
  exact fun hj => not_mem_signs hj h

/-- What goes on with a name is not blank. -/
lemma isBlank_of_joinsName {c : Char} (h : joinsName c = true) : Text.isBlank c = false := by
  rw [← Bool.not_eq_true]
  intro hb
  simp [joinsName_of_isBlank hb] at h

/-- The characters of words go on with names. -/
lemma joinsName_of_isWord {c : Char} (h : Text.isWord c = true) : joinsName c = true := by
  simp [joinsName, h]

/-- A dot is no character of words. -/
lemma isWord_dot : Text.isWord '.' = false := by decide +kernel

/-- What does not go on with a name is no character of words. -/
lemma isWord_of_joinsName {c : Char} (h : joinsName c = false) : Text.isWord c = false := by
  simp only [joinsName, Bool.or_eq_false_iff] at h
  exact h.1

/-- Blanks are no characters of words. -/
lemma isWord_of_isBlank {c : Char} (h : Text.isBlank c = true) : Text.isWord c = false :=
  isWord_of_joinsName (joinsName_of_isBlank h)

/-- Signs are no characters of words. -/
lemma isWord_of_mem_signs {c : Char} (h : c ∈ signs) : Text.isWord c = false :=
  isWord_of_joinsName (joinsName_of_mem_signs h)

/-- A name has no blanks around it. -/
lemma dropMargins_of_joins {cs : List Char} (h : ∀ c ∈ cs, joinsName c = true) :
    Text.dropMargins Text.isBlank cs = cs := by
  have hstart (l : List Char) (hl : ∀ c ∈ l, joinsName c = true) :
      l.dropWhile Text.isBlank = l := by
    cases l with
    | nil => rfl
    | cons c l => simp [isBlank_of_joinsName (hl c List.mem_cons_self)]
  rw [Text.dropMargins, Text.dropStart, hstart cs h, Text.dropEnd,
    hstart cs.reverse fun c hc => h c (List.mem_reverse.1 hc), List.reverse_reverse]

/-- A name has no margins. -/
lemma trim_of_joins {cs : List Char} (h : ∀ c ∈ cs, joinsName c = true) :
    Text.trim (String.ofList cs) = String.ofList cs := by
  rw [Text.trim, String.toList_ofList, dropMargins_of_joins h]

/-- The opening brackets. -/
lemma isOpener_iff {c : Char} : isOpener c = true ↔ c = '(' ∨ c = '[' ∨ c = '{' := by
  simp [isOpener, or_assoc]

/-- The closing brackets. -/
lemma isCloser_iff {c : Char} : isCloser c = true ↔ c = ')' ∨ c = ']' ∨ c = '}' := by
  simp [isCloser, or_assoc]

/-- What goes on with a name opens no bracket. -/
lemma isOpener_of_joinsName {c : Char} (h : joinsName c = true) : isOpener c = false := by
  rw [← Bool.not_eq_true, isOpener_iff]
  rintro (rfl | rfl | rfl) <;> exact not_mem_signs h (by decide)

/-- What goes on with a name closes no bracket. -/
lemma isCloser_of_joinsName {c : Char} (h : joinsName c = true) : isCloser c = false := by
  rw [← Bool.not_eq_true, isCloser_iff]
  rintro (rfl | rfl | rfl) <;> exact not_mem_signs h (by decide)

/-- What goes on with a name is code. -/
lemma isCode_of_joinsName {c : Char} (h : joinsName c = true) : IsCode c := by
  refine ⟨?_, ?_, ?_⟩ <;> rintro rfl <;> exact not_mem_signs h (by decide)

/-- Blanks open no bracket. -/
lemma isOpener_of_isBlank {c : Char} (h : Text.isBlank c = true) : isOpener c = false := by
  rw [← Bool.not_eq_true, isOpener_iff]
  rintro (rfl | rfl | rfl) <;> exact absurd h (by decide)

/-- Blanks close no bracket. -/
lemma isCloser_of_isBlank {c : Char} (h : Text.isBlank c = true) : isCloser c = false := by
  rw [← Bool.not_eq_true, isCloser_iff]
  rintro (rfl | rfl | rfl) <;> exact absurd h (by decide)

/-- A character that stands in an expression outside brackets: a blank, a character of a name, or
the beginning or end of a literal. -/
def IsInline (c : Char) : Prop :=
  Text.isBlank c = true ∨ joinsName c = true ∨ IsMark c

/-- What stands outside brackets is no bracket. -/
lemma IsInline.not_bracket {c : Char} (h : IsInline c) :
    isOpener c = false ∧ isCloser c = false := by
  rcases h with h | h | rfl | rfl
  · exact ⟨isOpener_of_isBlank h, isCloser_of_isBlank h⟩
  · exact ⟨isOpener_of_joinsName h, isCloser_of_joinsName h⟩
  · exact ⟨rfl, rfl⟩
  · exact ⟨rfl, rfl⟩

/-- What is hidden is blank. -/
lemma isBlank_blanked (c : Char) : Text.isBlank (blanked c) = true := by
  unfold blanked
  split <;> decide

/-- Commas, colons and the like are not inline. -/
lemma IsInline.ne {c d : Char} (h : IsInline c) (hd : d ∈ signs) (hb : Text.isBlank d = false)
    (hq : d ≠ '"') (hs : d ≠ '#') : c ≠ d := by
  rintro rfl
  rcases h with h | h | h | h
  · simp [h] at hb
  · exact not_mem_signs h hd
  · exact hq h
  · exact hs h

/-- A text without brackets is balanced. -/
lemma balanced_of_inline {p : Char → Prop} {cs : List Char} (h : ∀ c ∈ cs, IsInline c)
    (hp : ∀ c ∈ cs, p c) : Balanced p cs :=
  .of_forall fun c hc => ⟨(h c hc).not_bracket.1, (h c hc).not_bracket.2, hp c hc⟩

end Source

/-! ### Space between tokens -/

/-- A blank or a comment. -/
inductive Space where
  | blank (c : Char) (h : Text.isBlank c = true)
  /-- A line comment and the line feed after it. -/
  | line (text : List Char) (h : '\n' ∉ text)
  /-- A block comment, of which `body` is what follows its opening. -/
  | block (body : List Char) (h : ClosesComments 1 body)

/-- The lexemes of a blank or a comment. -/
def Space.lexemes : Space → List Lexeme
  | .blank c _ => [.code c]
  | .line text _ => [.comment ('/' :: '/' :: text) true, .code '\n']
  | .block body _ => [.comment ('/' :: '*' :: body) true]

/-- The space between two tokens. -/
abbrev Gap := List Space

namespace Gap

/-- The lexemes of a gap. -/
def lexemes (gap : Gap) : List Lexeme :=
  gap.flatMap Space.lexemes

/-- A gap is its first space and the rest. -/
lemma lexemes_cons (s : Space) (gap : Gap) : lexemes (s :: gap) = s.lexemes ++ gap.lexemes :=
  List.flatMap_cons

/-- A gap is recovered from its text. -/
lemma scans (gap : Gap) : Scans gap.lexemes := by
  induction gap with
  | nil => exact .nil
  | cons s gap ih =>
    rw [lexemes_cons]
    refine Scans.append ?_ ih
    cases s with
    | blank c h => exact scans_code (isCode_of_isBlank h)
    | line text h => exact scans_lineComment h
    | block body h => exact scans_blockComment h

/-- A gap shows nothing. -/
lemma isBlank_of_mem (gap : Gap) : ∀ c ∈ skeletonOf gap.lexemes, Text.isBlank c = true := by
  induction gap with
  | nil => simp [lexemes]
  | cons s gap ih =>
    rw [lexemes_cons, skeletonOf_append]
    refine List.forall_mem_append.2 ⟨?_, ih⟩
    cases s with
    | blank c h => simpa [Space.lexemes, Lexeme.skeleton] using h
    | line text h =>
      simp only [Space.lexemes, Lexeme.skeleton, skeletonOf_cons, skeletonOf_nil, List.append_nil]
      refine List.forall_mem_append.2 ⟨?_, by simp⟩
      exact List.forall_mem_map.2 fun c _ => isBlank_blanked c
    | block body h =>
      simp only [Space.lexemes, Lexeme.skeleton, skeletonOf_cons, skeletonOf_nil, List.append_nil]
      exact List.forall_mem_map.2 fun c _ => isBlank_blanked c

/-- Nothing but blanks shows in a gap. -/
lemma not_mem (gap : Gap) {c : Char} (h : Text.isBlank c = false) :
    c ∉ skeletonOf gap.lexemes := by
  intro hc
  rw [gap.isBlank_of_mem c hc] at h
  exact absurd h (by decide)

/-- The text of a gap begins with no quote. -/
lemma head?_textOf_ne (gap : Gap) : (textOf gap.lexemes).head? ≠ some '"' := by
  cases gap with
  | nil => simp [lexemes]
  | cons s gap =>
    rw [lexemes_cons, textOf_append]
    cases s with
    | blank c h =>
      have hc := (isCode_of_isBlank h).2.1
      simpa [Space.lexemes, Lexeme.text] using hc
    | line text h => simp [Space.lexemes, Lexeme.text]
    | block body h => simp [Space.lexemes, Lexeme.text]

/-- A gap is balanced. -/
lemma balanced (gap : Gap) {p : Char → Prop} (hp : ∀ c, Text.isBlank c = true → p c) :
    Balanced p (skeletonOf gap.lexemes) :=
  balanced_of_inline (fun c hc => .inl (gap.isBlank_of_mem c hc))
    fun c hc => hp c (gap.isBlank_of_mem c hc)

end Gap

/-! ### Names -/

/-- A dotted name, a number, or a member of the expected type: a token of characters that join. -/
structure Word where
  chars : List Char
  ne_nil : chars ≠ []
  joins : ∀ c ∈ chars, joinsName c = true

/-- The lexemes of a word. -/
def Word.lexemes (w : Word) : List Lexeme :=
  w.chars.map .code

/-- A name as such. -/
structure Identifier where
  chars : List Char
  starts : (chars.head?.any Text.isNameStart) = true
  word : ∀ c ∈ chars, Text.isWord c = true

/-- A name is a word. -/
def Identifier.toWord (i : Identifier) : Word where
  chars := i.chars
  ne_nil := by
    rintro h
    simpa [h] using i.starts
  joins c hc := joinsName_of_isWord (i.word c hc)

/-- Whether a word is a name as such, not a member of something nor a number. -/
def Word.isName (w : Word) : Bool :=
  w.chars.head?.any Text.isNameStart && w.chars.all Text.isWord

/-- What a call may be a call of: a dotted name, perhaps with a dot in front. -/
structure Callee extends Word where
  named :
    ((chars.drop (if chars.head? == some '.' then 1 else 0)).head?.any Text.isNameStart) = true

/-- A label, its colon, and the space after each of them. -/
structure Label where
  name : Identifier
  before : Gap
  after : Gap

namespace Label

/-- The lexemes of a label, if there is one. -/
def lexemes : Option Label → List Lexeme
  | none => []
  | some l => l.name.toWord.lexemes ++ l.before.lexemes ++ .code ':' :: l.after.lexemes

end Label

/-! ### Expressions -/

mutual

/-- An expression with its tokens and the space between them. -/
inductive Written where
  | literal (text : List Char) (h : LiteralText text)
  | word (w : Word)
  | array (items : Row false)
  | call (callee : Callee) (gap : Gap) (arguments : Row true)

/-- An item of a row, with the space around it.  Only arguments have labels. -/
inductive Entry : Bool → Type where
  | mk {labelled : Bool} (before : Gap) (label : Option Label) (value : Written) (after : Gap)
      (h : label.isSome = true → labelled = true) : Entry labelled

/-- The items between two brackets. A row without an item after its last comma ends with a comma. -/
inductive Row : Bool → Type where
  | empty {labelled : Bool} (gap : Gap) : Row labelled
  | last {labelled : Bool} (entry : Entry labelled) : Row labelled
  | more {labelled : Bool} (entry : Entry labelled) (rest : Row labelled) : Row labelled

end

mutual

/-- The lexemes of an expression. -/
def Written.lexemes : Written → List Lexeme
  | .literal text _ => [.literal text true]
  | .word w => w.lexemes
  | .array items => .code '[' :: (items.lexemes ++ [.code ']'])
  | .call callee gap arguments =>
    callee.lexemes ++ gap.lexemes ++ .code '(' :: (arguments.lexemes ++ [.code ')'])

/-- The lexemes of an item. -/
def Entry.lexemes {labelled : Bool} : Entry labelled → List Lexeme
  | .mk before label value after _ =>
    before.lexemes ++ Label.lexemes label ++ value.lexemes ++ after.lexemes

/-- The lexemes of a row. -/
def Row.lexemes {labelled : Bool} : Row labelled → List Lexeme
  | .empty gap => gap.lexemes
  | .last entry => entry.lexemes
  | .more entry rest => entry.lexemes ++ .code ',' :: rest.lexemes

end

mutual

/-- The term that an expression means, when it begins on a line. -/
def Written.term (line : Nat) : Written → Term
  | .literal text _ =>
    match literalValue? text with
    | some value => .string (String.ofList value) ⟨line, line⟩
    | none => .unknown (String.ofList text) ⟨line, line⟩
  | .word w =>
    if w.isName then .reference (String.ofList w.chars) ⟨line, line⟩
    else .unknown (String.ofList w.chars) ⟨line, line⟩
  | .array items => .array ((items.items line).map (·.2)) ⟨line, line + newlines items.lexemes⟩
  | .call callee gap arguments =>
    .call (Term.lastPart (String.ofList callee.chars))
      (arguments.items (line + newlines gap.lexemes))
      ⟨line, line + newlines gap.lexemes + newlines arguments.lexemes⟩

/-- The label and the term of an item that begins on a line. -/
def Entry.item {labelled : Bool} (line : Nat) : Entry labelled → Option String × Term
  | .mk before label value _ _ =>
    (label.map fun l => String.ofList l.name.chars,
      value.term (line + newlines before.lexemes + newlines (Label.lexemes label)))

/-- The labels and terms of a row that begins on a line. -/
def Row.items {labelled : Bool} (line : Nat) : Row labelled → List (Option String × Term)
  | .empty _ => []
  | .last entry => [entry.item line]
  | .more entry rest => entry.item line :: rest.items (line + newlines entry.lexemes)

end

mutual

/-- The arguments of the first call of `Package` in an expression that begins on a line, and the
line that they begin on. -/
def Written.package? (line : Nat) : Written → Option (Nat × Row true)
  | .literal _ _ => none
  | .word _ => none
  | .array items => items.package? line
  | .call callee gap arguments =>
    if callee.chars = "Package".toList then some (line + newlines gap.lexemes, arguments)
    else arguments.package? (line + newlines gap.lexemes)

/-- The first call of `Package` in an item that begins on a line. -/
def Entry.package? {labelled : Bool} (line : Nat) : Entry labelled → Option (Nat × Row true)
  | .mk before label value _ _ =>
    value.package? (line + newlines before.lexemes + newlines (Label.lexemes label))

/-- The first call of `Package` in a row that begins on a line. -/
def Row.package? {labelled : Bool} (line : Nat) : Row labelled → Option (Nat × Row true)
  | .empty _ => none
  | .last entry => entry.package? line
  | .more entry rest => (entry.package? line).or (rest.package? (line + newlines entry.lexemes))

end

/-! ### Recovering an expression -/

/-- A word is recovered from its text. -/
lemma Word.scans (w : Word) : Scans w.lexemes :=
  scans_codes fun c hc => isCode_of_joinsName (w.joins c hc)

/-- A label is recovered from its text, be it missing. -/
lemma Label.scans (label : Option Label) : Scans (Label.lexemes label) := by
  cases label with
  | none => exact .nil
  | some l =>
    have hcolon : Scans [.code ':'] := scans_code (by decide)
    exact (l.name.toWord.scans.append l.before.scans).append (hcolon.append l.after.scans)

mutual

/-- An expression is recovered from its text, unless a quote follows. -/
theorem Written.scansBefore : (w : Written) → ScansBefore w.lexemes
  | .literal _ h => scansBefore_literal h
  | .word w => w.scans.scansBefore
  | .array items => by
    have hopen : Scans [.code '['] := scans_code (by decide)
    have hclose : Scans [.code ']'] := scans_code (by decide)
    have hrow := items.scansBefore.append hclose rfl (by decide)
    exact (hopen.append hrow).scansBefore
  | .call callee gap arguments => by
    have hopen : Scans [.code '('] := scans_code (by decide)
    have hclose : Scans [.code ')'] := scans_code (by decide)
    have hrow := arguments.scansBefore.append hclose rfl (by decide)
    exact ((callee.scans.append gap.scans).append (hopen.append hrow)).scansBefore

/-- An item is recovered from its text, unless a quote follows. -/
theorem Entry.scansBefore {labelled : Bool} : (e : Entry labelled) → ScansBefore e.lexemes
  | .mk before label value after _ =>
    ((before.scans.append (Label.scans label)).append_before value.scansBefore).append_before
      after.scans.scansBefore after.head?_textOf_ne

/-- A row is recovered from its text, unless a quote follows. -/
theorem Row.scansBefore {labelled : Bool} : (r : Row labelled) → ScansBefore r.lexemes
  | .empty gap => gap.scans.scansBefore
  | .last entry => entry.scansBefore
  | .more entry rest => by
    have hcomma : Scans [.code ','] := scans_code (by decide)
    have hentry := entry.scansBefore.append hcomma rfl (by decide)
    have := hentry.append_before rest.scansBefore
    rwa [List.append_assoc] at this

end

/-! ### Brackets of an expression -/

/-- The characters of a word stand outside brackets. -/
lemma Word.isInline (w : Word) : ∀ c ∈ w.chars, IsInline c :=
  fun c hc => .inr (.inl (w.joins c hc))

/-- All of a word shows. -/
@[simp] lemma Word.skeletonOf_lexemes (w : Word) : skeletonOf w.lexemes = w.chars :=
  skeletonOf_codes w.chars

/-- There are no signs in a word. -/
lemma Word.not_mem (w : Word) {c : Char} (h : c ∈ signs) : c ∉ w.chars :=
  fun hc => not_mem_signs (w.joins c hc) h

/-- Of a literal only its ends show. -/
lemma Source.LiteralText.of_mem {text : List Char} {c : Char} (h : LiteralText text)
    (hc : c ∈ Source.blankInside text) : c = ' ' ∨ IsMark c := by
  obtain ⟨a, b, n, ha, hb, heq⟩ := h.blankInside
  rw [heq] at hc
  simp only [List.mem_cons, List.mem_append, List.mem_replicate, List.not_mem_nil,
    or_false] at hc
  rcases hc with rfl | ⟨-, rfl⟩ | rfl
  · exact .inr ha
  · exact .inl rfl
  · exact .inr hb

/-- What shows of a literal stands outside brackets. -/
lemma Source.LiteralText.isInline {text : List Char} (h : LiteralText text) :
    ∀ c ∈ Source.blankInside text, IsInline c := by
  intro c hc
  rcases h.of_mem hc with rfl | hc
  · exact .inl (by decide)
  · exact .inr (.inr hc)

/-- A label is balanced, and its colon is the only sign in it. -/
lemma Label.balanced (label : Option Label) :
    Balanced (fun c => IsInline c ∨ c = ':') (skeletonOf (Label.lexemes label)) := by
  cases label with
  | none => exact .nil
  | some l =>
    have hname : Balanced (fun c => IsInline c ∨ c = ':') (skeletonOf l.name.toWord.lexemes) := by
      rw [Word.skeletonOf_lexemes]
      exact balanced_of_inline l.name.toWord.isInline fun c hc => .inl (l.name.toWord.isInline c hc)
    have hbefore := l.before.balanced (p := fun c => IsInline c ∨ c = ':') fun c hc =>
      .inl (.inl hc)
    have hafter := l.after.balanced (p := fun c => IsInline c ∨ c = ':') fun c hc =>
      .inl (.inl hc)
    have hcolon : Balanced (fun c => IsInline c ∨ c = ':') [':'] := .plain rfl rfl (.inr rfl) .nil
    simpa [Label.lexemes, Lexeme.skeleton] using
      (hname.append hbefore).append (hcolon.append hafter)

mutual

/-- The brackets of an expression are balanced, and outside them it is inline. -/
theorem Written.balanced : (w : Written) → Balanced IsInline (skeletonOf w.lexemes)
  | .literal _ h => by
    simpa [Written.lexemes, Lexeme.skeleton] using balanced_of_inline h.isInline h.isInline
  | .word w => by
    simpa [Written.lexemes] using balanced_of_inline w.isInline w.isInline
  | .array items => by
    have hrow : Balanced IsInline ('[' :: (skeletonOf items.lexemes ++ [']'])) :=
      .enclosed rfl rfl items.balanced
    simpa [Written.lexemes, Lexeme.skeleton] using hrow
  | .call callee gap arguments => by
    have hname := balanced_of_inline callee.isInline callee.isInline
    have hgap := gap.balanced (p := IsInline) fun c hc => .inl hc
    have hrow : Balanced IsInline ('(' :: (skeletonOf arguments.lexemes ++ [')'])) :=
      .enclosed rfl rfl arguments.balanced
    simpa [Written.lexemes, Lexeme.skeleton] using hname.append (hgap.append hrow)

/-- An item is balanced, and outside brackets it has no sign but the colon of its label. -/
theorem Entry.balanced {labelled : Bool} :
    (e : Entry labelled) → Balanced (fun c => IsInline c ∨ c = ':') (skeletonOf e.lexemes)
  | .mk before label value after _ => by
    have hbefore := before.balanced (p := fun c => IsInline c ∨ c = ':') fun c hc =>
      .inl (.inl hc)
    have hafter := after.balanced (p := fun c => IsInline c ∨ c = ':') fun c hc => .inl (.inl hc)
    have hvalue := value.balanced.mono fun c hc => (.inl hc : IsInline c ∨ c = ':')
    simpa [Entry.lexemes] using
      hbefore.append ((Label.balanced label).append (hvalue.append hafter))

/-- A row is balanced, and outside brackets it has no signs but colons and commas. -/
theorem Row.balanced {labelled : Bool} :
    (r : Row labelled) → Balanced (fun c => IsInline c ∨ c = ':' ∨ c = ',')
    (skeletonOf r.lexemes)
  | .empty gap => gap.balanced fun c hc => .inl (.inl hc)
  | .last entry => entry.balanced.mono fun c hc => hc.imp_right .inl
  | .more entry rest => by
    have hentry := entry.balanced.mono (q := fun c => IsInline c ∨ c = ':' ∨ c = ',')
      fun c hc => hc.imp_right .inl
    have hrest : Balanced (fun c => IsInline c ∨ c = ':' ∨ c = ',')
        (',' :: skeletonOf rest.lexemes) := .plain rfl rfl (.inr (.inr rfl)) rest.balanced
    simpa [Row.lexemes, Lexeme.skeleton] using hentry.append hrest

end

end SwiftDependencies
