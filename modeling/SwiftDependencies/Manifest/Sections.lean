import SwiftDependencies.Manifest.Fragment
import SwiftDependencies.Manifest.Interpretation

/-!
# Reading a manifest by its sections

This reading looks for known forms in the skeleton of a text and ignores all else, so it also serves
text that is not a program.

* A constant is declared at the start of a line outside brackets: attributes, an access level, `let`
  or `var`, a name, perhaps a type annotation, and an equals sign. Its value ends with its line or
  at a semicolon, unless brackets are open or the next line goes on with a member, an operator or a
  colon.
* The constructed package is the first `Package(` that is not the end of a longer name. Of its
  arguments the name, the targets, the products and the dependencies are read, each by the first
  place in the parentheses, outside further brackets, at which its label stands.
-/

namespace SwiftDependencies.Source.Fragment

/-! ### Declarations of constants -/

/-- The fragment after a word and at least one blank. -/
def afterWord? (word : String) (f : Fragment) : Option Fragment :=
  let rest := f.drop word.length
  if f.startsWith word.toList && rest.head?.any Glyph.isBlank then some (skipBlanks rest)
  else none

/-- The fragment after an attribute and at least one blank. -/
def afterAttribute? (f : Fragment) : Option Fragment :=
  let name := f.drop 1
  let rest := name.dropWhile fun g => Text.isWord g.skeleton
  if first? f == some '@' && rest.length < name.length && rest.head?.any Glyph.isBlank then
    some (skipBlanks rest)
  else none

/-- After an attribute the fragment is shorter. -/
theorem length_afterAttribute?_lt {f rest : Fragment} (h : f.afterAttribute? = some rest) :
    rest.length < f.length := by
  simp only [afterAttribute?] at h
  split at h
  · rename_i hc
    obtain rfl := Option.some.inj h
    simp only [Bool.and_eq_true, decide_eq_true_eq] at hc
    have h₁ := hc.1.2
    simp only [List.length_drop] at h₁
    exact Nat.lt_of_le_of_lt (length_skipBlanks_le _) (by omega)
  · simp at h

/-- The fragment after any number of attributes. -/
def afterAttributes (f : Fragment) : Fragment :=
  match _h : f.afterAttribute? with
  | some rest => rest.afterAttributes
  | none => f
termination_by f.length
decreasing_by exact length_afterAttribute?_lt _h

/-- The access levels that may stand before a declaration. -/
def accessLevels : List String :=
  ["public", "private", "internal", "fileprivate", "open", "package"]

/-- The fragment after an access level, if there is one. -/
def afterAccessLevel (f : Fragment) : Fragment :=
  (accessLevels.findSome? fun word => f.afterWord? word).getD f

/-- Whether what stands between a colon and the next equals sign is a type annotation: all but its
blank margins stands on one line, and there is something on a line. -/
def isTypeText (text : List Char) : Bool :=
  let core := Text.dropMargins Text.isBlank text
  if core.isEmpty then text.any (· != '\n') else !core.contains '\n'

/-- The fragment after an equals sign that is not doubled. -/
def afterSign? (f : Fragment) : Option Fragment :=
  if first? f == some '=' && first? (f.drop 1) != some '=' then some (f.drop 1) else none

/-- The type annotation after the name of a declaration, if there is one, and the fragment after the
equals sign. -/
def afterEquals? (f : Fragment) : Option (Option String × Fragment) :=
  let f := f.skipBlanks
  if first? f == some ':' then
    let text := (f.chars.drop 1).takeWhile (· != '=')
    if isTypeText text then
      (afterSign? (f.drop (text.length + 1))).map (some (String.ofList text), ·)
    else none
  else (afterSign? f).map (none, ·)

/-- The head of a declaration: the name, the type annotation, and the fragment after the equals
sign. -/
structure Declaration where
  name : String
  typeText : Option String
  rest : Fragment

/-- The fragment after the spaces and tabs in front of it. -/
def afterIndent (f : Fragment) : Fragment :=
  f.dropWhile fun g => g.skeleton == ' ' || g.skeleton == '\t'

/-- The declaration at the start of a line. -/
def declaration? (f : Fragment) : Option Declaration :=
  let f := f.afterIndent.afterAttributes.afterAccessLevel
  ((f.afterWord? "let").or (f.afterWord? "var")).bind fun f =>
    let n := f.identifierLength
    if n = 0 then none
    else
      (afterEquals? (f.drop n)).map fun (typeText, rest) =>
        ⟨String.ofList (chars (f.take n)), typeText, rest⟩

/-- Whether a line that begins with a character goes on with the value of the line before. -/
def continuesValue (c : Char) : Bool :=
  c == '.' || c == '+' || c == '?' || c == ':'

/-- The value at the start of a fragment. The level of brackets and whether the value has begun are
known from what comes before. -/
def value (level : Int) (begun : Bool) : Fragment → Fragment
  | [] => []
  | g :: gs =>
    let c := g.skeleton
    let after := levelAfter level c
    if isCloser c && after < 0 then []
    else if level == 0 && c == ';' then []
    else if level == 0 && c == '\n' && begun && !(first? (skipBlanks gs)).any continuesValue then []
    else g :: value after (begun || !g.isBlank) gs

/-! ### Lengths -/

/-- After a word the fragment is shorter. -/
theorem length_afterWord?_lt {word : String} {f rest : Fragment}
    (h : f.afterWord? word = some rest) : rest.length < f.length := by
  simp only [afterWord?] at h
  split at h
  · rename_i hc
    obtain rfl := Option.some.inj h
    simp only [Bool.and_eq_true] at hc
    cases hd : f.drop word.length with
    | nil => simp [hd] at hc
    | cons g gs =>
      have hl := congrArg List.length hd
      simp only [hd, List.head?_cons, Option.any_some] at hc
      simp only [List.length_drop, List.length_cons] at hl
      have : (skipBlanks (g :: gs)).length ≤ gs.length := by
        simp only [skipBlanks, List.dropWhile_cons, hc.2, if_true]
        exact (List.dropWhile_sublist _).length_le
      omega
  · simp at h

/-- Nothing is added when attributes are skipped. -/
theorem length_afterAttributes_le (f : Fragment) : f.afterAttributes.length ≤ f.length := by
  fun_induction afterAttributes f with
  | case1 f rest h ih => exact Nat.le_trans ih (Nat.le_of_lt (length_afterAttribute?_lt h))
  | case2 => exact Nat.le_refl _

/-- Nothing is added when an access level is skipped. -/
theorem length_afterAccessLevel_le (f : Fragment) : f.afterAccessLevel.length ≤ f.length := by
  unfold afterAccessLevel
  cases h : accessLevels.findSome? fun word => f.afterWord? word with
  | none => exact Nat.le_refl _
  | some rest =>
    obtain ⟨word, -, hw⟩ := List.exists_of_findSome?_eq_some h
    exact Nat.le_of_lt (length_afterWord?_lt hw)

/-- Nothing is added when a sign is skipped. -/
theorem length_afterSign?_le {f rest : Fragment} (h : f.afterSign? = some rest) :
    rest.length ≤ f.length := by
  unfold afterSign? at h
  split at h
  · obtain rfl := Option.some.inj h
    simp
  · simp at h

/-- What follows an equals sign is no longer than the fragment with the sign. -/
theorem length_afterEquals?_le {f : Fragment} {x : Option String × Fragment}
    (h : f.afterEquals? = some x) : x.2.length ≤ f.length := by
  have h₁ := f.length_skipBlanks_le
  simp only [afterEquals?] at h
  split at h
  · split at h
    · obtain ⟨rest, h₂, rfl⟩ := Option.map_eq_some_iff.1 h
      have h₃ := length_afterSign?_le h₂
      simp only [List.length_drop] at h₃
      exact Nat.le_trans h₃ (by omega)
    · simp at h
  · obtain ⟨rest, h₂, rfl⟩ := Option.map_eq_some_iff.1 h
    exact Nat.le_trans (length_afterSign?_le h₂) h₁

/-- After a declaration the fragment is shorter, so all declarations are found in finitely many
steps. -/
theorem length_declaration?_lt {f : Fragment} {d : Declaration} (h : f.declaration? = some d) :
    d.rest.length < f.length := by
  simp only [declaration?] at h
  obtain ⟨f₁, h₁, h₂⟩ := Option.bind_eq_some_iff.1 h
  split at h₂
  · simp at h₂
  · obtain ⟨x, h₃, rfl⟩ := Option.map_eq_some_iff.1 h₂
    have h₄ := length_afterEquals?_le h₃
    have h₅ := length_afterAccessLevel_le f.afterIndent.afterAttributes
    have h₆ := length_afterAttributes_le f.afterIndent
    have h₇ : f.afterIndent.length ≤ f.length := (List.dropWhile_sublist _).length_le
    have h₈ : f₁.length < f.afterIndent.afterAttributes.afterAccessLevel.length := by
      rcases Option.or_eq_some_iff.1 h₁ with h₁ | ⟨-, h₁⟩ <;>
        exact length_afterWord?_lt h₁
    simp only [List.length_drop] at h₄
    show x.2.length < f.length
    omega

/-- The constants declared in a fragment, which begins at the start of a line or not. -/
def constants (atStart : Bool) (f : Fragment) : Constants :=
  match f with
  | [] => []
  | g :: gs =>
    match h : if atStart then declaration? (g :: gs) else none with
    | none => constants (g.skeleton == '\n') gs
    | some d =>
      have : d.rest.length < (g :: gs).length := by
        split at h
        · exact length_declaration?_lt h
        · simp at h
      let others := constants false d.rest
      if g.depth = 0 then
        ⟨d.name, term (value 0 false d.rest), d.typeText.bind elementType?⟩ :: others
      else others
termination_by f.length
decreasing_by
  all_goals simp only [List.length_cons] at *
  all_goals omega

/-! ### The constructed package -/

/-- What follows a label and its colon, without the blanks in front. -/
def afterLabel? (label : String) (f : Fragment) : Option Fragment :=
  let rest := skipBlanks (f.drop label.length)
  if f.startsWith label.toList && first? rest == some ':' && first? (rest.drop 1) != some ':' then
    some (skipBlanks (rest.drop 1))
  else none

/-- The value at the start of a fragment of arguments: up to the end of its first bracket, if it
starts with a round or square one, and otherwise up to the next comma. -/
def argumentValue (f : Fragment) : Fragment :=
  match if first? f == some '[' || first? f == some '(' then closing? f.chars else none with
  | some n => f.take (n + 1)
  | none => untilSeparator (·.skeleton) (· == ',') 0 f

/-- The value of the first argument with a label, outside further brackets. -/
def section? (label : String) (joined : Bool) (level : Int) : Fragment → Option Fragment
  | [] => none
  | g :: gs =>
    match if joined || level != 0 then none else afterLabel? label (g :: gs) with
    | some rest => some rest.argumentValue
    | none => section? label (joinsName g.skeleton) (levelAfter level g.skeleton) gs

/-- The labels of the arguments of a package that are read. -/
def sectionLabels : List String :=
  ["name", "targets", "products", "dependencies"]

/-- The arguments that are read of a fragment of arguments. -/
def sections (f : Fragment) : List (Option String × Term) :=
  sectionLabels.filterMap fun label =>
    (section? label false 0 f).map fun value => (some label, value.term)

/-- What follows `Package(`, if a fragment starts with that. -/
def afterPackage? (f : Fragment) : Option Fragment :=
  let rest := skipBlanks (f.drop 7)
  if f.startsWith "Package".toList && first? rest == some '(' then some (rest.drop 1) else none

/-- The line after a glyph and a fragment. -/
def lineAfterAll (g : Glyph) (f : Fragment) : Nat :=
  let last := f.getLastD g
  lineAfter last.line last.skeleton

/-- The first constructed package of a fragment. Without a closing parenthesis its arguments take
the rest. -/
def package? (joined : Bool) : Fragment → Option Call
  | [] => none
  | g :: gs =>
    match if joined then none else afterPackage? (g :: gs) with
    | none => package? (joinsName g.skeleton) gs
    | some body =>
      match closingFrom? 1 body.chars with
      | some n =>
        some ⟨sections (body.take n), ⟨g.line, ((body[n]?).getD g).line⟩⟩
      | none => some ⟨sections body, ⟨g.line, lineAfterAll g gs⟩⟩

end SwiftDependencies.Source.Fragment

namespace SwiftDependencies

open Source

/-- Read a manifest by its sections. -/
def Manifest.ofSections (cs : List Char) : Manifest :=
  let fragment : Fragment := glyphs cs
  ⟨fragment.constants true, fragment.package? false, Source.clean cs⟩

end SwiftDependencies
