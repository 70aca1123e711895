import Mathlib.Tactic.Common
import SwiftDependencies.Source.Text

/-!
# Recovering lexemes from their text

The text of some lexemes need not have these lexemes: a quote joins the literal next to it, a slash
may open a comment.  `Scans` says of a row of lexemes that they are recovered whatever follows them,
and `ScansBefore` that they are recovered unless a quote follows, which is all that can go wrong
after an empty literal.

Both hold of the tokens that a manifest is written with: characters of code (`scans_code`), line
comments with their line feed (`scans_lineComment`), block comments that are closed
(`scans_blockComment`), and string literals on one line (`scansBefore_literal`).
-/

namespace SwiftDependencies.Source

/-- The text of some lexemes. -/
def textOf (xs : List Lexeme) : List Char :=
  xs.flatMap Lexeme.text

/-- No lexemes have no text. -/
@[simp] lemma textOf_nil : textOf [] = [] := rfl

/-- The text of lexemes is that of the first and of the rest. -/
@[simp] lemma textOf_cons (x : Lexeme) (xs : List Lexeme) :
    textOf (x :: xs) = x.text ++ textOf xs :=
  List.flatMap_cons

/-- The text of two rows of lexemes is that of each. -/
@[simp] lemma textOf_append (xs ys : List Lexeme) : textOf (xs ++ ys) = textOf xs ++ textOf ys :=
  List.flatMap_append

/-- Some lexemes are recovered from their text, whatever follows. -/
def Scans (xs : List Lexeme) : Prop :=
  ∀ rest, lexemes (textOf xs ++ rest) = xs ++ lexemes rest

/-- Some lexemes are recovered from their text, unless a quote follows. -/
def ScansBefore (xs : List Lexeme) : Prop :=
  ∀ rest, rest.head? ≠ some '"' → lexemes (textOf xs ++ rest) = xs ++ lexemes rest

variable {xs ys : List Lexeme}

/-- What is recovered whatever follows is recovered unless a quote follows. -/
lemma Scans.scansBefore (h : Scans xs) : ScansBefore xs :=
  fun rest _ => h rest

/-- No lexemes are recovered from no text. -/
lemma Scans.nil : Scans [] := fun _ => rfl

/-- Two rows of lexemes are recovered if each is. -/
lemma Scans.append (hx : Scans xs) (hy : Scans ys) : Scans (xs ++ ys) := by
  intro rest
  rw [textOf_append, List.append_assoc, hx, hy, List.append_assoc]

/-- The second of two rows may depend on what follows. -/
lemma Scans.append_before (hx : Scans xs) (hy : ScansBefore ys) : ScansBefore (xs ++ ys) := by
  intro rest hr
  rw [textOf_append, List.append_assoc, hx, hy rest hr, List.append_assoc]

/-- Lexemes before a row that is not empty and begins with no quote. -/
lemma ScansBefore.append (hx : ScansBefore xs) (hy : Scans ys) {c : Char} {cs : List Char}
    (htext : textOf ys = c :: cs) (hc : c ≠ '"') : Scans (xs ++ ys) := by
  intro rest
  have hhead : (textOf ys ++ rest).head? ≠ some '"' := by
    simpa [htext] using hc
  rw [textOf_append, List.append_assoc, hx _ hhead, hy, List.append_assoc]

/-- Lexemes before a row that begins with no quote if it is not empty. -/
lemma ScansBefore.append_before (hx : ScansBefore xs) (hy : ScansBefore ys)
    (hhead : (textOf ys).head? ≠ some '"') : ScansBefore (xs ++ ys) := by
  intro rest hr
  have hhead : (textOf ys ++ rest).head? ≠ some '"' := by
    cases hys : textOf ys with
    | nil => simpa using hr
    | cons c cs => simpa [hys] using hhead
  rw [textOf_append, List.append_assoc, hx _ hhead, hy _ hr, List.append_assoc]

/-- What is recovered unless a quote follows is recovered at the end. -/
lemma lexemes_textOf (h : ScansBefore xs) : lexemes (textOf xs) = xs := by
  have h := h [] (by simp)
  rwa [List.append_nil, lexemes, List.append_nil] at h

/-- Lexemes before the last ones of a text. -/
lemma Scans.lexemes_append (hx : Scans xs) (hy : lexemes (textOf ys) = ys) :
    lexemes (textOf (xs ++ ys)) = xs ++ ys := by
  rw [textOf_append, hx, hy]

/-- Lexemes before the last ones of a text, which begin with no quote. -/
lemma ScansBefore.lexemes_append (hx : ScansBefore xs) (hy : lexemes (textOf ys) = ys)
    (hhead : (textOf ys).head? ≠ some '"') : lexemes (textOf (xs ++ ys)) = xs ++ ys := by
  rw [textOf_append, hx _ hhead, hy]

/-- The lexemes of a text are its first one and those of the rest. -/
lemma lexemes_cons_of_first {c : Char} {cs rest : List Char} {x : Lexeme}
    (h : first c cs = (x, rest)) : lexemes (c :: cs) = x :: lexemes rest := by
  rw [lexemes, h]

/-! ### Code -/

/-- A character that neither opens a comment nor a literal. -/
def IsCode (c : Char) : Prop :=
  c ≠ '/' ∧ c ≠ '"' ∧ c ≠ '#'

instance (c : Char) : Decidable (IsCode c) :=
  inferInstanceAs (Decidable (_ ∧ _ ∧ _))

/-- The first lexeme of a text that begins with code is its first character. -/
lemma first_code {c : Char} (h : IsCode c) (cs : List Char) : first c cs = (.code c, cs) := by
  obtain ⟨hslash, hquote, hsign⟩ := h
  have hstart : startsLiteral (c :: cs) = false := by
    simp [startsLiteral, hsign, hquote]
  simp [first, hslash, hstart]

/-- A character of code is a lexeme by itself. -/
lemma scans_code {c : Char} (h : IsCode c) : Scans [.code c] := by
  intro rest
  exact lexemes_cons_of_first (first_code h rest)

/-- Code is recovered from its text. -/
lemma scans_codes {cs : List Char} (h : ∀ c ∈ cs, IsCode c) : Scans (cs.map .code) := by
  induction cs with
  | nil => exact .nil
  | cons c cs ih =>
    exact (scans_code (h c List.mem_cons_self)).append
      (ih fun d hd => h d (List.mem_cons_of_mem _ hd))

/-- The text of code is the code. -/
@[simp] lemma textOf_codes (cs : List Char) : textOf (cs.map .code) = cs := by
  induction cs with
  | nil => rfl
  | cons c cs ih => simp [Lexeme.text, ih]

/-- Blanks are code. -/
lemma isCode_of_isBlank {c : Char} (h : Text.isBlank c = true) : IsCode c := by
  refine ⟨?_, ?_, ?_⟩ <;> rintro rfl <;> exact absurd h (by decide)

/-! ### Comments -/

/-- A line comment goes on to the end of its line. -/
lemma first_lineComment {text rest : List Char} (h : '\n' ∉ text)
    (hrest : ∀ c ∈ rest.head?, c = '\n') :
    first '/' ('/' :: (text ++ rest)) = (.comment ('/' :: '/' :: text) true, rest) := by
  have hp : ∀ c ∈ '/' :: text, (c != '\n') = true := by
    intro c hc
    rw [bne_iff_ne]
    rintro rfl
    rcases List.mem_cons.1 hc with hc | hc
    · exact absurd hc (by decide)
    · exact h hc
  have hends : rest.takeWhile (· != '\n') = [] ∧ rest.dropWhile (· != '\n') = rest := by
    cases rest with
    | nil => exact ⟨rfl, rfl⟩
    | cons c rest =>
      obtain rfl := hrest c rfl
      exact ⟨List.takeWhile_cons_of_neg (by simp), List.dropWhile_cons_of_neg (by simp)⟩
  have hline : lineComment ('/' :: text ++ rest) = ⟨'/' :: text, true, rest⟩ := by
    rw [lineComment, List.takeWhile_append_of_pos hp, List.dropWhile_append_of_pos hp, hends.1,
      hends.2, List.append_nil]
  simp only [first, List.head?_cons, beq_self_eq_true, Bool.and_self, if_true]
  rw [← List.cons_append, hline]

/-- A line comment ends before its line feed. -/
lemma scans_lineComment {text : List Char} (h : '\n' ∉ text) :
    Scans [.comment ('/' :: '/' :: text) true, .code '\n'] := by
  intro rest
  have hfirst : first '/' ('/' :: (text ++ '\n' :: rest)) = _ := first_lineComment h (by simp)
  have hnewline : IsCode '\n' := isCode_of_isBlank (by decide)
  simp only [textOf_cons, textOf_nil, Lexeme.text, List.append_nil, List.cons_append,
    List.append_assoc, List.nil_append]
  rw [lexemes_cons_of_first hfirst, lexemes_cons_of_first (first_code hnewline _)]

/-- A line comment ends with the text. -/
lemma lexemes_lineComment {text : List Char} (h : '\n' ∉ text) :
    lexemes ('/' :: '/' :: text) = [.comment ('/' :: '/' :: text) true] := by
  have hfirst : first '/' ('/' :: (text ++ [])) = _ := first_lineComment h (by simp)
  rw [List.append_nil] at hfirst
  rw [lexemes_cons_of_first hfirst, lexemes]

/-- The texts that close some open comments, and end where the last of them is closed. -/
inductive ClosesComments : Nat → List Char → Prop
  | last : ClosesComments 1 ['*', '/']
  | close {depth : Nat} {cs : List Char} (rest : ClosesComments (depth + 1) cs) :
      ClosesComments (depth + 2) ('*' :: '/' :: cs)
  | open {depth : Nat} {cs : List Char} (rest : ClosesComments (depth + 1) cs) :
      ClosesComments depth ('/' :: '*' :: cs)
  | char {depth : Nat} {c : Char} {cs : List Char} (opens : ¬(c = '/' ∧ cs.head? = some '*'))
      (closes : ¬(c = '*' ∧ cs.head? = some '/')) (rest : ClosesComments depth cs) :
      ClosesComments depth (c :: cs)

/-- It takes some text to close a comment. -/
lemma ClosesComments.ne_nil {depth : Nat} {cs : List Char} (h : ClosesComments depth cs) :
    cs ≠ [] := by
  cases h <;> simp

/-- A character that begins no delimiter of a comment belongs to the comment. -/
lemma blockComment_char (depth : Nat) {c : Char} {cs : List Char}
    (opens : ¬(c = '/' ∧ cs.head? = some '*')) (closes : ¬(c = '*' ∧ cs.head? = some '/')) :
    blockComment depth (c :: cs) = (blockComment depth cs).prepend [c] := by
  rw [blockComment]
  · rintro rest rfl rfl
    exact opens ⟨rfl, rfl⟩
  · rintro rest rfl rfl
    exact closes ⟨rfl, rfl⟩

/-- A block comment ends where it is closed. -/
lemma blockComment_of_closes {depth : Nat} {cs : List Char} (h : ClosesComments depth cs)
    (rest : List Char) : blockComment depth (cs ++ rest) = ⟨cs, true, rest⟩ := by
  induction h with
  | last => simp [blockComment]
  | close _ ih => simp [blockComment, ih, Taken.prepend]
  | «open» _ ih => simp [blockComment, ih, Taken.prepend]
  | @char depth c cs opens closes tail ih =>
    have hhead : (cs ++ rest).head? = cs.head? := by
      cases cs with
      | nil => exact absurd rfl tail.ne_nil
      | cons d ds => rfl
    rw [List.cons_append, blockComment_char depth (hhead ▸ opens) (hhead ▸ closes), ih]
    rfl

/-- A block comment that is closed ends where it is closed. -/
lemma scans_blockComment {body : List Char} (h : ClosesComments 1 body) :
    Scans [.comment ('/' :: '*' :: body) true] := by
  intro rest
  have hfirst : first '/' ('*' :: body ++ rest) = (.comment ('/' :: '*' :: body) true, rest) := by
    have hblock := blockComment_of_closes h rest
    simp [first, hblock]
  simpa [Lexeme.text] using lexemes_cons_of_first hfirst

/-! ### Literals -/

/-- What stands between the quotes of a literal on one line: characters, and escapes other than the
opening of an interpolation. -/
inductive LiteralBody : List Char → Prop
  | nil : LiteralBody []
  | char {c : Char} {cs : List Char} (quote : c ≠ '"') (backslash : c ≠ '\\')
    (newline : c ≠ '\n')
      (rest : LiteralBody cs) : LiteralBody (c :: cs)
  | escape {c : Char} {cs : List Char} (interpolation : c ≠ '(') (newline : c ≠ '\n')
      (rest : LiteralBody cs) : LiteralBody ('\\' :: c :: cs)

/-- There is no line feed in the body of a literal. -/
lemma LiteralBody.newline_not_mem {cs : List Char} (h : LiteralBody cs) : '\n' ∉ cs := by
  induction h with
  | nil => simp
  | char _ _ newline _ ih => simp [ih, newline.symm]
  | escape _ newline _ ih => simp [ih, newline.symm]

/-- A text without quotes, backslashes and line feeds is the body of a literal. -/
lemma LiteralBody.of_forall {cs : List Char}
    (h : ∀ c ∈ cs, c ≠ '"' ∧ c ≠ '\\' ∧ c ≠ '\n') :
    LiteralBody cs := by
  induction cs with
  | nil => exact .nil
  | cons c cs ih =>
    obtain ⟨hq, hb, hn⟩ := h c List.mem_cons_self
    exact .char hq hb hn (ih fun d hd => h d (List.mem_cons_of_mem _ hd))

/-- The frame of a literal that opens with one quote. -/
def quoteFrame : Frame := .literal ['"'] false true

/-- A literal ends behind its body with the quote. -/
lemma literalRest_body {cs : List Char} (h : LiteralBody cs) (rest : List Char) :
    literalRest [quoteFrame] (cs ++ '"' :: rest) = ⟨cs ++ ['"'], true, rest⟩ := by
  induction h with
  | nil => rw [List.nil_append, literalRest]; simp [step, literalStep, quoteFrame]
  | @char c cs quote backslash newline _ ih =>
    have hstep : step [quoteFrame] c (cs ++ '"' :: rest) = .more 0 [quoteFrame] := by
      simp [step, literalStep, quoteFrame, backslash, quote.symm, newline]
    rw [List.cons_append, literalRest, hstep]
    simp [ih, Taken.prepend]
  | @escape c cs interpolation newline _ ih =>
    have hstep : step [quoteFrame] '\\' (c :: (cs ++ '"' :: rest)) = .more 1 [quoteFrame] := by
      simp [step, literalStep, quoteFrame, interpolation]
    rw [List.cons_append, List.cons_append, literalRest, hstep]
    simp [ih, Taken.prepend]

/-- The literal with a body. -/
def quoted (body : List Char) : List Char :=
  '"' :: (body ++ ['"'])

/-- A quote that no other one follows opens a literal on one line. -/
lemma opening_quoted {body rest : List Char} (h : LiteralBody body) (hr : rest.head? ≠ some '"') :
    opening 0 (quoted body ++ rest) = (['"'], quoteFrame) := by
  unfold quoted opening
  split
  · rename_i cs heq
    exfalso
    cases h with
    | nil =>
      have : rest = '"' :: cs := by simpa using heq
      exact hr (by rw [this]; rfl)
    | char quote _ _ _ => simp_all
    | escape => simp at heq
  · rfl

/-- A literal is recovered from its text, unless a quote follows, with which the text would begin a
literal on several lines. -/
lemma scansBefore_quoted {body : List Char} (h : LiteralBody body) :
    ScansBefore [.literal (quoted body) true] := by
  intro rest hr
  have htake : takeLiteral (quoted body ++ rest) = ⟨quoted body, true, rest⟩ := by
    have hsigns : (quoted body ++ rest).takeWhile (· == '#') = [] := by simp [quoted]
    have hdrop : (quoted body ++ rest).dropWhile (· == '#') = quoted body ++ rest := by
      simp [quoted]
    have hrest : (quoted body ++ rest).drop 1 = body ++ '"' :: rest := by simp [quoted]
    simp only [takeLiteral, hsigns, hdrop, List.length_nil, opening_quoted h hr, List.length_cons,
      Nat.zero_add, hrest, literalRest_body h]
    simp [Taken.prepend, quoted]
  have hfirst : first '"' (body ++ ['"'] ++ rest) = (.literal (quoted body) true, rest) := by
    have hstart : startsLiteral ('"' :: (body ++ ['"'] ++ rest)) = true := by simp [startsLiteral]
    have htake : takeLiteral ('"' :: (body ++ ['"'] ++ rest)) = ⟨quoted body, true, rest⟩ :=
      htake
    simp only [first, hstart, htake]
    simp
  simpa [Lexeme.text, quoted] using lexemes_cons_of_first hfirst

/-! ### Literals behind number signs -/

/-- What follows the body of a literal behind number signs. -/
def rawClosing (signs : Nat) : List Char :=
  '"' :: List.replicate signs '#'

/-- What stands between the quotes of a literal behind number signs on one line: it does not close
the literal. -/
inductive RawBody (signs : Nat) : List Char → Prop
  | nil : RawBody signs []
  | char {c : Char} {cs : List Char} (newline : c ≠ '\n')
      (closes : ¬ rawClosing signs <+: c :: (cs ++ rawClosing signs)) (rest : RawBody signs cs) :
      RawBody signs (c :: cs)

/-- There is no line feed in the body of a raw literal. -/
lemma RawBody.newline_not_mem {signs : Nat} {cs : List Char} (h : RawBody signs cs) :
    '\n' ∉ cs := by
  induction h with
  | nil => simp
  | char newline _ _ ih => simp [ih, newline.symm]

/-- The frame of a literal on one line behind number signs. -/
def rawFrame (signs : Nat) : Frame := .literal (rawClosing signs) true true

/-- A raw literal ends behind its body with the quote and as many number signs as it began with. -/
lemma literalRest_raw {signs : Nat} {cs : List Char} (h : RawBody signs cs) (rest : List Char) :
    literalRest [rawFrame signs] (cs ++ rawClosing signs ++ rest) =
      ⟨cs ++ rawClosing signs, true, rest⟩ := by
  induction h with
  | nil =>
    have hstep : step [rawFrame signs] '"' (List.replicate signs '#' ++ rest) = .finish signs := by
      have hprefix : (rawClosing signs).isPrefixOf
          ('"' :: (List.replicate signs '#' ++ rest)) = true := by
        simp [rawClosing]
      simp [step, literalStep, rawFrame, hprefix]
      simp [rawClosing]
    rw [List.nil_append, rawClosing, List.cons_append, literalRest, hstep]
    simp
  | @char c cs newline closes _ ih =>
    have hprefix : ¬ rawClosing signs <+: c :: (cs ++ rawClosing signs ++ rest) := by
      rw [← List.cons_append]
      intro hlong
      refine closes (List.prefix_of_prefix_length_le hlong (List.prefix_append _ _) ?_)
      simp
      omega
    have hstep : step [rawFrame signs] c (cs ++ rawClosing signs ++ rest) =
        .more 0 [rawFrame signs] := by
      simpa [step, literalStep, rawFrame, newline] using hprefix
    rw [List.cons_append, List.cons_append, literalRest, hstep]
    simp only [List.append_assoc] at ih
    simp [ih, Taken.prepend]

/-- The literal behind number signs with a body. -/
def rawQuoted (signs : Nat) (body : List Char) : List Char :=
  List.replicate signs '#' ++ '"' :: (body ++ rawClosing signs)

/-- Number signs and a quote that no other one follows open a raw literal on one line. -/
lemma opening_raw {signs : Nat} {body rest : List Char} (hsigns : 0 < signs)
    (hshort : ¬ ['"', '"'] <+: body ++ ['"']) :
    opening signs ('"' :: (body ++ rawClosing signs ++ rest)) = (['"'], rawFrame signs) := by
  unfold opening
  split
  · rename_i cs heq
    refine absurd ?_ hshort
    obtain ⟨n, rfl⟩ : ∃ n, signs = n + 1 := ⟨signs - 1, by omega⟩
    match body with
    | [] => simp [rawClosing, List.replicate_succ] at heq
    | [c] => simp_all
    | c :: d :: body => simp_all
  · have hne : signs ≠ 0 := by omega
    simp [rawFrame, rawClosing, hne]

/-- A raw literal is recovered from its text. -/
lemma scans_raw {signs : Nat} {body : List Char} (hsigns : 0 < signs) (h : RawBody signs body)
    (hshort : ¬ ['"', '"'] <+: body ++ ['"']) : Scans [.literal (rawQuoted signs body) true] := by
  intro rest
  obtain ⟨n, rfl⟩ : ∃ n, signs = n + 1 := ⟨signs - 1, by omega⟩
  have htext : rawQuoted (n + 1) body ++ rest =
      List.replicate (n + 1) '#' ++ '"' :: (body ++ rawClosing (n + 1) ++ rest) := by
    simp [rawQuoted]
  have htakes : (rawQuoted (n + 1) body ++ rest).takeWhile (· == '#') =
      List.replicate (n + 1) '#' := by
    rw [htext, List.takeWhile_append_of_pos (by simp)]
    simp
  have hdrops : (rawQuoted (n + 1) body ++ rest).dropWhile (· == '#') =
      '"' :: (body ++ rawClosing (n + 1) ++ rest) := by
    rw [htext, List.dropWhile_append_of_pos (by simp)]
    simp
  have htake : takeLiteral (rawQuoted (n + 1) body ++ rest) =
      ⟨rawQuoted (n + 1) body, true, rest⟩ := by
    simp only [takeLiteral, htakes, hdrops, List.length_replicate, opening_raw hsigns hshort,
      List.length_cons, List.length_nil, List.drop_succ_cons, List.drop_zero, literalRest_raw h]
    simp [Taken.prepend, rawQuoted]
  have hstart : startsLiteral (rawQuoted (n + 1) body ++ rest) = true := by
    simp [startsLiteral, hdrops]
  obtain ⟨cs, hcs⟩ : ∃ cs, rawQuoted (n + 1) body ++ rest = '#' :: cs :=
    ⟨_, by rw [htext, List.replicate_succ, List.cons_append]⟩
  have hfirst : first '#' cs = (.literal (rawQuoted (n + 1) body) true, rest) := by
    rw [hcs] at hstart htake
    simp only [first, hstart, htake]
    simp
  simpa [Lexeme.text, hcs] using lexemes_cons_of_first hfirst

/-! ### Literals on one line -/

/-- The texts of the literals on one line that do not interpolate. -/
inductive LiteralText : List Char → Prop
  | quoted {body : List Char} (h : LiteralBody body) : LiteralText (quoted body)
  | raw {signs : Nat} {body : List Char} (positive : 0 < signs) (h : RawBody signs body)
      (short : ¬ ['"', '"'] <+: body ++ ['"']) : LiteralText (rawQuoted signs body)

/-- A literal on one line is recovered, unless a quote follows. -/
lemma scansBefore_literal {text : List Char} (h : LiteralText text) :
    ScansBefore [.literal text true] := by
  cases h with
  | quoted h => exact scansBefore_quoted h
  | raw positive h short => exact (scans_raw positive h short).scansBefore

/-- The characters at the ends of a literal. -/
def IsMark (c : Char) : Prop :=
  c = '"' ∨ c = '#'

/-- What is blanked inside of a literal is all but its first and its last character. -/
lemma blankInside_enclosed (c d : Char) (cs : List Char) (h : '\n' ∉ cs) :
    blankInside (c :: (cs ++ [d])) = c :: (List.replicate cs.length ' ' ++ [d]) := by
  have hblanks : cs.map blanked = List.replicate cs.length ' ' := by
    rw [List.eq_replicate_iff]
    refine ⟨List.length_map _, fun b hb => ?_⟩
    obtain ⟨c, hc, rfl⟩ := List.mem_map.1 hb
    have hne : c ≠ '\n' := fun he => h (he ▸ hc)
    simp [blanked, hne]
  cases hcs : cs ++ [d] with
  | nil => simp at hcs
  | cons e es =>
    simp only [blankInside, ← hcs]
    simp [hblanks]

/-- In the skeleton only the ends of a literal are left. -/
lemma LiteralText.blankInside {text : List Char} (h : LiteralText text) :
    ∃ c d n, IsMark c ∧ IsMark d ∧ blankInside text = c :: (List.replicate n ' ' ++ [d]) := by
  cases h with
  | @quoted body h =>
    exact ⟨'"', '"', _, .inl rfl, .inl rfl, blankInside_enclosed _ _ body h.newline_not_mem⟩
  | @raw signs body positive h short =>
    obtain ⟨n, rfl⟩ : ∃ n, signs = n + 1 := ⟨signs - 1, by omega⟩
    have htext : rawQuoted (n + 1) body =
        '#' :: ((List.replicate n '#' ++ '"' :: (body ++ '"' :: List.replicate n '#')) ++
          ['#']) := by
      simp [rawQuoted, rawClosing, List.replicate_succ, ← List.replicate_succ']
    have hnot : '\n' ∉ List.replicate n '#' ++ '"' :: (body ++ '"' :: List.replicate n '#') := by
      simp [h.newline_not_mem]
    rw [htext]
    exact ⟨'#', '#', _, .inr rfl, .inr rfl, blankInside_enclosed _ _ _ hnot⟩

end SwiftDependencies.Source
