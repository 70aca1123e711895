/-!
# Styles in a text

A style is switched on and off by an escape character and an opening bracket, some parameters, some
signs, and a last character that says what is switched. A text that does not go to a terminal is
written without them.
-/

namespace SwiftDependencies.Text

/-- Whether a character is part of the parameters of a style. -/
def isStyleParameter (c : Char) : Bool :=
  '0' ≤ c && c ≤ '?'

/-- Whether a character may stand between the parameters and the last character of a style. -/
def isStyleSign (c : Char) : Bool :=
  ' ' ≤ c && c ≤ '/'

/-- Whether a character may be the last one of a style. -/
def isStyleEnd (c : Char) : Bool :=
  '@' ≤ c && c ≤ '~'

/-- The text after a style that it starts with. -/
def afterStyle? (cs : List Char) : Option (List Char) :=
  match cs with
  | '\x1b' :: '[' :: rest =>
    match (rest.dropWhile isStyleParameter).dropWhile isStyleSign with
    | c :: rest => if isStyleEnd c then some rest else none
    | [] => none
  | _ => none

/-- After a style the text is shorter. -/
theorem length_afterStyle?_lt {cs rest : List Char} (h : afterStyle? cs = some rest) :
    rest.length < cs.length := by
  unfold afterStyle? at h
  split at h
  · rename_i tail
    split at h
    · rename_i c rest' heq
      split at h
      · obtain rfl := Option.some.inj h
        have h₁ := (List.dropWhile_sublist (l := tail) isStyleParameter).length_le
        have h₂ := (List.dropWhile_sublist (l := tail.dropWhile isStyleParameter)
          isStyleSign).length_le
        simp only [heq, List.length_cons] at *
        omega
      · simp at h
    · simp at h
  · simp at h

/-- A text without styles. -/
def withoutStyles (cs : List Char) : List Char :=
  match cs with
  | [] => []
  | c :: rest =>
    match _h : afterStyle? (c :: rest) with
    | some rest => withoutStyles rest
    | none => c :: withoutStyles rest
termination_by cs.length
decreasing_by
  · exact length_afterStyle?_lt _h
  · simp

end SwiftDependencies.Text
