import SwiftDependencies.Import.StandardModules
import SwiftDependencies.Source.Mention
import SwiftDependencies.Text.Blank
import SwiftDependencies.Text.LineBreak

/-!
# Import statements

An import statement stands on a line of its own: attributes, perhaps an access level, the word
`import`, perhaps the kind of what is imported, and a path of names with dots. After it may come a
semicolon and a line comment. The module is the first name of the path.

The kinds are also legal names of modules, so a line is first read with a kind and then without one.
-/

namespace SwiftDependencies

/-- An import of a module in a source file. -/
structure Import where
  module : String
  line : Nat
  /-- Whether the line asks for the internals of the module. -/
  testable : Bool
  deriving DecidableEq, Repr, Inhabited

namespace Import

/-- The text after the blanks in front of it. -/
def skipBlanks (cs : List Char) : List Char :=
  cs.dropWhile Text.isBlank

/-- The text after at least one blank. -/
def afterBlanks? (cs : List Char) : Option (List Char) :=
  if cs.head?.any Text.isBlank then some (skipBlanks cs) else none

/-- The text after a word and at least one blank. -/
def afterWord? (word : String) (cs : List Char) : Option (List Char) :=
  if word.toList.isPrefixOf cs then afterBlanks? (cs.drop word.length) else none

/-- The text after one of some words and at least one blank. -/
def afterOneOf? (words : List String) (cs : List Char) : Option (List Char) :=
  words.findSome? (afterWord? · cs)

/-- The text after something in parentheses, if there is that. -/
def skipParentheses (cs : List Char) : List Char :=
  match cs with
  | '(' :: rest =>
    match rest.dropWhile (· != ')') with
    | [] => cs
    | _ :: rest => rest
  | _ => cs

/-- The text after an attribute and at least one blank. -/
def afterAttribute? (cs : List Char) : Option (List Char) :=
  match cs with
  | '@' :: c :: rest =>
    if Text.isWord c then afterBlanks? (skipParentheses (rest.dropWhile Text.isWord)) else none
  | _ => none

/-- After blanks that were there the text is shorter, so reading on comes to an end. -/
theorem length_afterBlanks?_lt {cs rest : List Char} (h : afterBlanks? cs = some rest) :
    rest.length < cs.length := by
  unfold afterBlanks? at h
  split at h
  · rename_i hc
    obtain rfl := Option.some.inj h
    match cs with
    | [] => simp at hc
    | c :: cs =>
      have hb : Text.isBlank c = true := by simpa using hc
      simp only [skipBlanks, List.dropWhile_cons, hb, if_true, List.length_cons]
      exact Nat.lt_succ_of_le (List.dropWhile_sublist _).length_le
  · simp at h

/-- Nothing is added when the parentheses of an attribute are skipped. -/
theorem length_skipParentheses_le (cs : List Char) : (skipParentheses cs).length ≤ cs.length := by
  unfold skipParentheses
  split
  · rename_i rest
    split
    · exact Nat.le_refl _
    · rename_i d tail heq
      have := (List.dropWhile_sublist (l := rest) (· != ')')).length_le
      rw [heq] at this
      simp only [List.length_cons] at *
      omega
  · exact Nat.le_refl _

/-- After an attribute the text is shorter. -/
theorem length_afterAttribute?_lt {cs rest : List Char} (h : afterAttribute? cs = some rest) :
    rest.length < cs.length := by
  unfold afterAttribute? at h
  split at h
  · rename_i c tail
    split at h
    · have h₁ := length_afterBlanks?_lt h
      have h₂ := length_skipParentheses_le (tail.dropWhile Text.isWord)
      have h₃ := (List.dropWhile_sublist (l := tail) Text.isWord).length_le
      simp only [List.length_cons]
      omega
    · simp at h
  · simp at h

/-- The text after any number of attributes. -/
def afterAttributes (cs : List Char) : List Char :=
  match _h : afterAttribute? cs with
  | some rest => afterAttributes rest
  | none => cs
termination_by cs.length
decreasing_by exact length_afterAttribute?_lt _h

/-- The access levels that may stand before an import. -/
def accessLevels : List String :=
  ["public", "package", "internal", "fileprivate", "private", "open"]

/-- The kinds of what may be imported from a module. -/
def kinds : List String :=
  ["typealias", "struct", "class", "enum", "protocol", "let", "var", "func"]

/-- Whether nothing follows an import but a semicolon and a comment. -/
def isTail (cs : List Char) : Bool :=
  let cs := skipBlanks cs
  let cs := if cs.head? == some ';' then skipBlanks (cs.drop 1) else cs
  cs.isEmpty || ['/', '/'].isPrefixOf cs

/-- The text after further names of a path. -/
def afterNames (cs : List Char) : List Char :=
  match cs with
  | '.' :: c :: rest =>
    if Text.isNameStart c then afterNames (rest.dropWhile Text.isWord) else cs
  | _ => cs
termination_by cs.length
decreasing_by
  have := (List.dropWhile_sublist (l := rest) Text.isWord).length_le
  simp only [List.length_cons]
  omega

/-- The module of a path after which nothing else follows. -/
def pathModule? (cs : List Char) : Option String :=
  match cs with
  | [] => none
  | c :: rest =>
    if Text.isNameStart c && isTail (afterNames (rest.dropWhile Text.isWord)) then
      some (String.ofList (c :: rest.takeWhile Text.isWord))
    else none

/-- The module that a line imports. -/
def ofLine? (line : List Char) : Option String := do
  let cs := afterAttributes (skipBlanks line)
  let cs := (afterOneOf? accessLevels cs).getD cs
  let cs ← afterWord? "import" cs
  ((afterOneOf? kinds cs).bind pathModule?).or (pathModule? cs)

/-- The imports among lines that are numbered from `number`, without those of ignored modules. -/
def ofLines (allowed : NameSet) (number : Nat) : List (List Char) → List Import
  | [] => []
  | line :: lines =>
    let rest := ofLines allowed (number + 1) lines
    match ofLine? line with
    | some name =>
      if isIgnored allowed name then rest
      else ⟨name, number, Source.containsText "@testable".toList line⟩ :: rest
    | none => rest

/-- The imports of a source text, without those of ignored modules. -/
def ofText (allowed : NameSet) (text : List Char) : List Import :=
  ofLines allowed 1 (Text.lines text)

end Import

end SwiftDependencies
