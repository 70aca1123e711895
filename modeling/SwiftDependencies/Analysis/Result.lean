import SwiftDependencies.Import.Sources

/-!
# Results of an analysis

The declared dependencies of a target and the modules that it imports fall into categories. A
missing module is an error; an unused or redundant dependency is a warning.
-/

namespace SwiftDependencies

/-- An import that a declared product provides. -/
structure Satisfied where
  module : String
  product : String
  package : String
  deriving DecidableEq, Repr, Inhabited

/-- A direct dependency that a declared product provides already. -/
structure Redundant where
  name : String
  product : String
  package : String
  deriving DecidableEq, Repr, Inhabited

/-- How the dependencies of a target are classified. -/
structure Analysis where
  target : Target
  /-- Imported, and neither declared nor provided. -/
  missing : NameSet
  /-- Declared, and not imported. -/
  unused : NameSet
  /-- Declared and imported. -/
  correct : NameSet
  satisfied : List Satisfied
  redundant : List Redundant
  files : List SourceFile
  deriving Inhabited

namespace Analysis

/-- The analysis of a target without sources. -/
def trivial (t : Target) : Analysis :=
  ⟨t, ∅, ∅, ∅, [], [], []⟩

/-- The names of the redundant dependencies. -/
def redundantNames (a : Analysis) : NameSet :=
  NameSet.ofList (a.redundant.map (·.name))

/-- Whether something is missing. -/
def hasError (a : Analysis) : Bool :=
  !a.missing.isEmpty

/-- Whether something is unused or redundant. -/
def hasWarning (a : Analysis) : Bool :=
  !a.unused.isEmpty || !a.redundant.isEmpty

/-- Whether there is anything to report. -/
def hasIssues (a : Analysis) : Bool :=
  a.hasError || a.hasWarning

/-- Where a module is imported: the files and lines, in order. -/
def sites (a : Analysis) (name : String) : List (Path × Nat) :=
  a.files.flatMap fun f =>
    (f.imports.filter fun i => i.module == name).map fun i => (f.path, i.line)

/-- The first declaration of a name by the target. -/
def declaration? (a : Analysis) (name : String) : Option Dependency :=
  a.target.dependencies.find? fun d => d.name == name

/-- The sites of a module are the lines of the files that import it. -/
theorem mem_sites {a : Analysis} {name : String} {site : Path × Nat} :
    site ∈ a.sites name ↔
      ∃ f ∈ a.files, ∃ i ∈ f.imports, i.module = name ∧ (f.path, i.line) = site := by
  simp only [sites, List.mem_flatMap, List.mem_map, List.mem_filter, beq_iff_eq, and_assoc]

end Analysis

end SwiftDependencies
