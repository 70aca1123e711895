import SwiftDependencies.Source.Mention
import SwiftDependencies.Text.Blank
import SwiftDependencies.Text.Pieces
import SwiftDependencies.Text.WordCharacter

/-!
# Terms of a manifest

A manifest is a program, of which only a small part is interpreted: string literals, references to
constants, arrays, and calls with labelled arguments. Anything else is an unknown term, kept as
text. Every term carries the lines that it spans.

A top-level constant is a name with a term, and with the element type of its array if it is declared
with one. A name that is declared twice means its first declaration.
-/

namespace SwiftDependencies

open Source (Span)

/-- An expression of a manifest, as far as it is interpreted. -/
inductive Term where
  | string (value : String) (span : Span)
  | reference (name : String) (span : Span)
  | array (items : List Term) (span : Span)
  /-- A call of a function, of whose name only the last part is kept. -/
  | call (callee : String) (arguments : List (Option String × Term)) (span : Span)
  | unknown (text : String) (span : Span)
  deriving Inhabited

namespace Term

/-- A value is smaller than the arguments that it is among. -/
theorem sizeOf_lt_of_mem_arguments {arguments : List (Option String × Term)}
    {a : Option String × Term} (h : a ∈ arguments) : sizeOf a.2 < sizeOf arguments := by
  have h₁ := List.sizeOf_lt_of_mem h
  have h₂ : sizeOf a.2 < sizeOf a := by
    obtain ⟨label, value⟩ := a
    simp only [Prod.mk.sizeOf_spec]
    omega
  omega

/-- Whether a term is an array. -/
def isArray : Term → Bool
  | .array _ _ => true
  | _ => false

/-- The first argument with a label. -/
def argument? (arguments : List (Option String × Term)) (label : String) : Option Term :=
  (arguments.find? fun a => a.1 == some label).map (·.2)

/-- The part of a dotted name after its last dot. -/
def lastPart (name : String) : String :=
  Text.trim (Text.lastPiece (· == '.') (Text.trim name))

end Term

/-! ### Types of arrays -/

/-- Whether a text is a dotted name. -/
def isDottedName : List Char → Bool
  | [] => false
  | c :: cs => Text.isNameStart c && cs.all fun c => Text.isWord c || c == '.'

/-- The name of the module whose types may be written with or without it. -/
def manifestModule : List Char := "PackageDescription.".toList

/-- The element type in an annotation such as `: [Target]`, without the module of manifest types.
An annotation of any other form has none. -/
def elementType? (typeText : String) : Option String :=
  let compact := (typeText.toList.filter fun c => !Text.isBlank c).dropWhile (· == ':')
  if !(['['].isPrefixOf compact && [']'].isSuffixOf compact) then none
  else
    let inner := (compact.drop 1).dropLast
    let unqualified := inner.drop manifestModule.length
    if manifestModule.isPrefixOf inner && isDottedName unqualified then
      some (String.ofList unqualified)
    else if isDottedName inner then some (String.ofList inner)
    else none

/-! ### Constants -/

/-- A named term at the top level of a manifest. -/
structure Constant where
  name : String
  value : Term
  elementType : Option String
  deriving Inhabited

/-- The constants of a manifest, in the order of their declarations. -/
abbrev Constants := List Constant

namespace Constants

/-- What a name stands for. -/
def find? (constants : Constants) (name : String) : Option Term :=
  (List.find? (fun c => c.name == name) constants).map (·.value)

/-- A name stands for the value of the first constant of that name. -/
theorem find?_eq_some_iff {constants : Constants} {name : String} {t : Term} :
    constants.find? name = some t ↔
      ∃ before c after, constants = before ++ c :: after ∧ c.name = name ∧ c.value = t ∧
        ∀ earlier ∈ before, earlier.name ≠ name := by
  simp only [find?, Option.map_eq_some_iff, List.find?_eq_some_iff_append, beq_iff_eq,
    Bool.not_eq_true', beq_eq_false_iff_ne]
  constructor
  · rintro ⟨c, ⟨hname, before, after, hsplit, hbefore⟩, hvalue⟩
    exact ⟨before, c, after, hsplit, hname, hvalue, hbefore⟩
  · rintro ⟨before, c, after, hsplit, hname, hvalue, hbefore⟩
    exact ⟨c, ⟨hname, before, after, hsplit, hbefore⟩, hvalue⟩

/-- A name stands for nothing if no constant has it. -/
theorem find?_eq_none_iff {constants : Constants} {name : String} :
    constants.find? name = none ↔ ∀ c ∈ constants, c.name ≠ name := by
  simp [find?]

/-- The text that a name directly stands for. -/
def string? (constants : Constants) (name : String) : Option String :=
  match constants.find? name with
  | some (.string value _) => some value
  | _ => none

/-- The items of an array that is declared with an element type. -/
def typedItems? (elementType : String) (c : Constant) : Option (List Term) :=
  match c.value with
  | .array items _ => if c.elementType == some elementType then some items else none
  | _ => none

/-- The items of all arrays declared with an element type, in order, if there is any such array. -/
def itemsOfType? (constants : Constants) (elementType : String) : Option (List Term) :=
  let arrays := constants.filterMap (typedItems? elementType)
  if arrays.isEmpty then none else some arrays.flatten

/-- The constants with another name. -/
def without (constants : Constants) (name : String) : Constants :=
  constants.filter fun c => c.name != name

/-- A name that stands for something is among the constants, so taking it away leaves fewer. -/
theorem length_without_lt {constants : Constants} {name : String} {t : Term}
    (h : constants.find? name = some t) :
    (constants.without name).length < constants.length := by
  obtain ⟨before, c, after, rfl, hname, -⟩ := find?_eq_some_iff.1 h
  exact List.length_filter_lt_length_iff_exists.2 ⟨c, by simp, by simp [hname]⟩

/-- The text of a term: a literal, or a name that directly stands for one. -/
def stringOf? (constants : Constants) : Term → Option String
  | .string value _ => some value
  | .reference name _ => constants.string? name
  | _ => none

/-- The term that a name stands for, and any other term as it is. -/
def resolve (constants : Constants) : Term → Term
  | .reference name span => (constants.find? name).getD (.reference name span)
  | t => t

/-- The items of an array or of a name that stands for one; nothing else has items. -/
def itemsOf (constants : Constants) (t : Option Term) : List Term :=
  match t.map constants.resolve with
  | some (.array items _) => items
  | _ => []

end Constants

end SwiftDependencies
