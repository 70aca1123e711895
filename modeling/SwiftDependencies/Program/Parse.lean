import SwiftDependencies.Program.Language
import SwiftDependencies.Program.Scan

/-!
# Parsing a program

A text is a program if it can be read as a file of the language.
-/

namespace SwiftDependencies.Program

/-- The tree of a program. A text that is no program has none. -/
def parse? (cs : List Char) : Option (Grammar.Tree Terminal Phrase) :=
  Grammar.read? language scan cs

end SwiftDependencies.Program
