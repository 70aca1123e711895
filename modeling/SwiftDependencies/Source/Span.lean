/-!
# Spans of lines

The lines that a piece of a source text takes.
-/

namespace SwiftDependencies.Source

/-- The lines of a text from a first to a last one, counted from one and both included. A first line
of zero stands for no lines at all. -/
structure Span where
  first : Nat
  last : Nat
  deriving DecidableEq, Repr, Inhabited

end SwiftDependencies.Source
