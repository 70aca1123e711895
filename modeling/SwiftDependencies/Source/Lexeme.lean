/-!
# Comments and string literals of a source text

A source text is a sequence of lexemes: comments, string literals, and single characters of code.
The division is total, so it also serves text that is not well formed.

* A line comment ends before the line feed. Block comments nest, and an unclosed one takes the rest.
* A string literal opens with a quote, with three quotes, or with either behind a row of number
  signs, and closes with the same quotes followed by as many number signs. One that opens with a
  single quote also ends before a line feed. An unclosed literal takes the rest of the text.
* Without number signs a backslash takes the next character with it, and a backslash with an opening
  parenthesis starts an interpolation, which ends with the matching parenthesis and in which
  literals may nest.

The characters of the lexemes, put together, are the text: `text_lexemes`.
-/

namespace SwiftDependencies.Source

/-- A comment, a string literal, or a character of code. -/
inductive Lexeme where
  | code (c : Char)
  | comment (text : List Char) (closed : Bool)
  | literal (text : List Char) (closed : Bool)
  deriving DecidableEq, Repr

/-- The characters of a lexeme. -/
def Lexeme.text : Lexeme → List Char
  | .code c => [c]
  | .comment text _ => text
  | .literal text _ => text

/-- What has been read of a lexeme: its characters, whether it was closed, and the text after it. -/
structure Taken where
  text : List Char
  closed : Bool
  rest : List Char

/-- Put characters in front of what has been read. -/
def Taken.prepend (cs : List Char) (t : Taken) : Taken :=
  { t with text := cs ++ t.text }

/-- What is put in front of a taken part belongs to it. -/
@[simp] theorem Taken.text_prepend (cs : List Char) (t : Taken) :
    (t.prepend cs).text = cs ++ t.text := rfl

/-- Putting characters in front leaves what follows as it is. -/
@[simp] theorem Taken.rest_prepend (cs : List Char) (t : Taken) : (t.prepend cs).rest = t.rest :=
  rfl

/-! ### Comments -/

/-- A line comment, from the text after its slashes. It ends with its line, so it is always
closed. -/
def lineComment (cs : List Char) : Taken :=
  ⟨cs.takeWhile (· != '\n'), true, cs.dropWhile (· != '\n')⟩

/-- A block comment, from the text after `depth` openings that are not yet closed. -/
def blockComment (depth : Nat) : List Char → Taken
  | '/' :: '*' :: cs => (blockComment (depth + 1) cs).prepend ['/', '*']
  | '*' :: '/' :: cs =>
    if depth ≤ 1 then ⟨['*', '/'], true, cs⟩
    else (blockComment (depth - 1) cs).prepend ['*', '/']
  | c :: cs => (blockComment depth cs).prepend [c]
  | [] => ⟨[], false, []⟩

/-- A block comment and what follows it are the text. -/
theorem blockComment_append (depth : Nat) (cs : List Char) :
    (blockComment depth cs).text ++ (blockComment depth cs).rest = cs := by
  fun_induction blockComment depth cs <;> simp_all

/-! ### String literals -/

/-- A literal or an interpolation that has been opened and not closed. -/
inductive Frame where
  /-- A literal that closes with the given text. A short one also ends with its line. -/
  | literal (closing : List Char) (raw short : Bool)
  /-- An interpolation with some parentheses open. -/
  | interpolation (parentheses : Nat)
  deriving DecidableEq, Repr

/-- The opening of a literal: its quotes, and the frame that it opens. -/
def opening (hashes : Nat) : List Char → List Char × Frame
  | '"' :: '"' :: '"' :: _ =>
    (['"', '"', '"'], .literal (['"', '"', '"'] ++ List.replicate hashes '#') (hashes != 0) false)
  | _ => (['"'], .literal (['"'] ++ List.replicate hashes '#') (hashes != 0) true)

/-- What one step inside nested frames does at a character: it takes that character and `extra` more
and leaves some frames open, or it ends the literal with them, or it ends the literal before
them. -/
inductive Step where
  | more (extra : Nat) (frames : List Frame)
  | finish (extra : Nat)
  | cut

/-- One step inside a literal that closes with `closing`, within the frames `outer`, at the
character `c` before `cs`. -/
def literalStep (closing : List Char) (raw short : Bool) (outer : List Frame) (c : Char)
    (cs : List Char) : Step :=
  let here := Frame.literal closing raw short
  if c == '\\' && !raw then
    if cs.head? == some '(' then .more 1 (.interpolation 1 :: here :: outer)
    else .more 1 (here :: outer)
  else if closing.isPrefixOf (c :: cs) then
    if outer.isEmpty then .finish (closing.length - 1) else .more (closing.length - 1) outer
  else if c == '\n' && short then
    if outer.isEmpty then .cut else .more 0 outer
  else .more 0 (here :: outer)

/-- One step inside an interpolation with `parentheses` open. -/
def interpolationStep (parentheses : Nat) (outer : List Frame) (c : Char) (cs : List Char) : Step :=
  if c == '"' then
    let o := opening 0 (c :: cs)
    .more (o.1.length - 1) (o.2 :: .interpolation parentheses :: outer)
  else if c == '(' then .more 0 (.interpolation (parentheses + 1) :: outer)
  else if c == ')' then
    .more 0 (if parentheses ≤ 1 then outer else .interpolation (parentheses - 1) :: outer)
  else .more 0 (.interpolation parentheses :: outer)

/-- One step inside nested frames. -/
def step (frames : List Frame) (c : Char) (cs : List Char) : Step :=
  match frames with
  | [] => .cut
  | .literal closing raw short :: outer => literalStep closing raw short outer c cs
  | .interpolation parentheses :: outer => interpolationStep parentheses outer c cs

/-- The rest of a literal in which some frames are open. -/
def literalRest (frames : List Frame) (cs : List Char) : Taken :=
  match cs with
  | [] => ⟨[], false, []⟩
  | c :: cs =>
    match step frames c cs with
    | .more extra frames => (literalRest frames (cs.drop extra)).prepend (c :: cs.take extra)
    | .finish extra => ⟨c :: cs.take extra, true, cs.drop extra⟩
    | .cut => ⟨[], false, c :: cs⟩
termination_by cs.length
decreasing_by simp only [List.length_drop, List.length_cons]; omega

/-- The rest of a literal and what follows it are the text. -/
theorem literalRest_append (frames : List Frame) (cs : List Char) :
    (literalRest frames cs).text ++ (literalRest frames cs).rest = cs := by
  fun_induction literalRest frames cs with
  | case1 => rfl
  | case2 frames c cs extra frames' h ih => simp [ih]
  | case3 frames c cs extra h => simp
  | case4 => simp

/-- Whether a literal starts here: a quote, perhaps behind number signs. -/
def startsLiteral (cs : List Char) : Bool :=
  (cs.dropWhile (· == '#')).head? == some '"'

/-- The literal that starts here. -/
def takeLiteral (cs : List Char) : Taken :=
  let hashes := cs.takeWhile (· == '#')
  let body := cs.dropWhile (· == '#')
  let o := opening hashes.length body
  (literalRest [o.2] (body.drop o.1.length)).prepend (hashes ++ body.take o.1.length)

/-- A literal and what follows it are the text. -/
theorem takeLiteral_append (cs : List Char) :
    (takeLiteral cs).text ++ (takeLiteral cs).rest = cs := by
  simp only [takeLiteral, Taken.text_prepend, Taken.rest_prepend, List.append_assoc,
    literalRest_append, List.take_append_drop, List.takeWhile_append_dropWhile]

/-! ### The division -/

/-- The lexeme at the start of a text, and the text after it. -/
def first (c : Char) (cs : List Char) : Lexeme × List Char :=
  if c == '/' && cs.head? == some '/' then
    let t := lineComment cs
    (.comment (c :: t.text) t.closed, t.rest)
  else if c == '/' && cs.head? == some '*' then
    let t := blockComment 1 (cs.drop 1)
    (.comment (c :: (cs.take 1 ++ t.text)) t.closed, t.rest)
  else if startsLiteral (c :: cs) then
    let t := takeLiteral (c :: cs)
    (.literal t.text t.closed, t.rest)
  else (.code c, cs)

/-- The first lexeme of a text and what follows it are the text. -/
theorem text_first_append (c : Char) (cs : List Char) :
    (first c cs).1.text ++ (first c cs).2 = c :: cs := by
  unfold first
  split
  · simp [Lexeme.text, lineComment]
  split
  · simp only [Lexeme.text, List.cons_append, List.append_assoc, blockComment_append,
      List.take_append_drop]
  split
  · exact takeLiteral_append _
  · rfl

/-- A lexeme is not empty. -/
theorem text_first_ne_nil (c : Char) (cs : List Char) : (first c cs).1.text ≠ [] := by
  unfold first
  split
  · simp [Lexeme.text]
  split
  · simp [Lexeme.text]
  split
  · rename_i h
    have hq : (c :: cs).dropWhile (· == '#') ≠ [] := by
      intro hnil
      simp [startsLiteral, hnil] at h
    have ho : ∀ body : List Char, body ≠ [] →
        ∀ n, body.take (opening n body).1.length ≠ [] := by
      intro body hb n
      cases body with
      | nil => exact absurd rfl hb
      | cons a body => unfold opening; split <;> simp
    simp only [Lexeme.text, takeLiteral, Taken.text_prepend]
    intro hnil
    exact ho _ hq _ (List.append_eq_nil_iff.1 (List.append_eq_nil_iff.1 hnil).1).2
  · simp [Lexeme.text]

/-- What follows the first lexeme is shorter than the text, so all lexemes are found. -/
theorem length_first_lt (c : Char) (cs : List Char) : (first c cs).2.length < (c :: cs).length := by
  have h := congrArg List.length (text_first_append c cs)
  have := List.length_pos_iff.2 (text_first_ne_nil c cs)
  simp only [List.length_append] at h
  omega

/-- The lexemes of a text. -/
def lexemes (cs : List Char) : List Lexeme :=
  match cs with
  | [] => []
  | c :: cs => (first c cs).1 :: lexemes (first c cs).2
termination_by cs.length
decreasing_by exact length_first_lt c cs

/-- Put together, the lexemes of a text are the text. -/
theorem text_lexemes (cs : List Char) : (lexemes cs).flatMap Lexeme.text = cs := by
  fun_induction lexemes cs with
  | case1 => rfl
  | case2 c cs ih => rw [List.flatMap_cons, ih, text_first_append]

/-- No lexeme is empty. -/
theorem text_ne_nil_of_mem_lexemes {x : Lexeme} {cs : List Char} (h : x ∈ lexemes cs) :
    x.text ≠ [] := by
  fun_induction lexemes cs with
  | case1 => simp at h
  | case2 c cs ih =>
    rcases List.mem_cons.1 h with rfl | h
    · exact text_first_ne_nil c cs
    · exact ih h

end SwiftDependencies.Source
