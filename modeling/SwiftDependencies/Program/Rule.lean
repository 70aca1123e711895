import SwiftDependencies.Program.Phrase
import SwiftDependencies.Program.Terminal

/-!
# Rules of a program

A rule gives the form of a phrase. In forms, a string stands for the word that it is, and a mark, a
pattern and a phrase for themselves.
-/

namespace SwiftDependencies.Program

/-- The forms of phrases of a program. -/
abbrev Form := Grammar.Form Terminal Phrase

/-- A phrase with its form. -/
abbrev Rule := Phrase × Form

instance : Coe String Form := ⟨fun s => .terminal (.word s.toList)⟩

instance : Coe Mark Form := ⟨fun m => .terminal (.mark m)⟩

instance : Coe Pattern Form := ⟨fun p => .terminal (.pattern p)⟩

instance : Coe Phrase Form := ⟨.phrase⟩

/-- The rule that a phrase has a form. -/
def Phrase.is (p : Phrase) (form : Form) : Rule := (p, form)

/-- A text with nothing before it. -/
def attached (text : String) : Form :=
  .terminal (.attached text.toList)

/-- A form in round brackets. -/
def inRound (form : Form) : Form := .seq ["(", form, ")"]

/-- A form in square brackets. -/
def inSquare (form : Form) : Form := .seq ["[", form, "]"]

/-- A form in curly brackets. -/
def inCurly (form : Form) : Form := .seq ["\x7b", form, "\x7d"]

/-! ### Ranks

A phrase of a higher rank binds its parts more tightly. -/

namespace Rank

def multiplication : Int := 11
def addition : Int := 10
def infixOperation : Int := 9
def coalescing : Int := 8
def check : Int := 7
def prefixOperation : Int := 7
def comparison : Int := 6
def postfixOperation : Int := 6
def equality : Int := 5
def conjunction : Int := 4
def disjunction : Int := 3
def block : Int := 2
def loop : Int := 1
def keyPath : Int := 1
def pack : Int := 1
def transfer : Int := 0
def cast : Int := -1
def tuple : Int := -1
def condition : Int := -1
def switch : Int := -1
def body : Int := -1
def range : Int := -1
def openRange : Int := -1
def member : Int := -1
def expression : Int := -1
def type : Int := -1
def call : Int := -2
def conditional : Int := -2
def attempt : Int := -2
def callSuffix : Int := -2
def rangeEnd : Int := -2
def operand : Int := -2
def wait : Int := -2
def assignment : Int := -3
def directive : Int := -3
def closure : Int := -3

end Rank

end SwiftDependencies.Program
