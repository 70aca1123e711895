import SwiftDependencies.Grammar.Table
import SwiftDependencies.Program.Rules.Declarations
import SwiftDependencies.Program.Rules.Expressions
import SwiftDependencies.Program.Rules.Literals
import SwiftDependencies.Program.Rules.Members
import SwiftDependencies.Program.Rules.Patterns
import SwiftDependencies.Program.Rules.Statements
import SwiftDependencies.Program.Rules.Types

/-!
# The language of programs

All rules together, and their table.
-/

namespace SwiftDependencies.Program

/-- The rules of all phrases. -/
def rules : List Rule :=
  Rules.literals ++ Rules.types ++ Rules.expressions ++ Rules.statementRules ++
    Rules.declarations ++ Rules.members ++ Rules.patterns

/-- The table of the language, in which a whole text is a file. -/
def language : Grammar.Table Terminal Phrase :=
  .ofGrammar rules .file Phrase.isTransparent

end SwiftDependencies.Program
