import Mathlib.Data.List.ReduceOption
import Mathlib.Tactic.Common
import SwiftDependencies.Manifest.Reader
import SwiftDependencies.Proofs.Manifest.Naming
import SwiftDependencies.Proofs.Manifest.OffsetSections

/-!
# Reading any text by its sections

The reading by sections is what is left for a text that is not a program, so it has to bear with any
text: brackets and comments that are not closed, brackets that close nothing, no text at all.  No
limit is set to how deep brackets nest.

Here the whole of it is done by offset, down to the lines on which dependencies are looked for, and
every look-up is checked (`Reader.bySectionsAt?`).  On every text it comes to an end and no look-up
fails (`Reader.bySections_robust`).  What comes out is a package with a name, or the fault that
there is none, and the latter exactly if none of the three places gives a name or the first that
does gives an empty one.
-/

namespace SwiftDependencies

open Source (Span)

/-! ### Lines of a span -/

namespace Source

variable {lines before rest : List (List Char)} {test : List Char → Bool} {span : Span}
    {number : Nat}

/-- The number of the first line from `number` up to `last` that passes a test. Lines are counted
from one. -/
def firstLineAt? (lines : List (List Char)) (test : List Char → Bool) (number last : Nat) :
    Option (Option Nat) :=
  if number ≤ last then
    if number = 0 then none
    else do
      let line ← lines[number - 1]?
      if test line then some (some number) else firstLineAt? lines test (number + 1) last
  else some none
termination_by last + 1 - number

/-- The first line of a span that passes a test, for the first test that any line of the span
passes. -/
def locateAt? (lines : List (List Char)) (span : Span) :
    List (List Char → Bool) → Option (Option Nat)
  | [] => some none
  | test :: tests => do
    match ← firstLineAt? lines test span.first (min span.last lines.length) with
    | some number => some (some number)
    | none => locateAt? lines span tests

/-- How a dependency may be mentioned: its name in quotes, or the constant through which it was
reached. -/
def mentions (name : String) (constant : Option String) : List (List Char → Bool) :=
  containsText ('"' :: name.toList ++ ['"']) ::
    match constant with
    | none => []
    | some c => if c.isEmpty then [] else [containsWord c.toList false]

/-- The line of a span on which a dependency is mentioned. -/
def mentionAt? (lines : List (List Char)) (span : Span) (name : String) (constant : Option String) :
    Option (Option Nat) :=
  if span.first < 1 then some none else locateAt? lines span (mentions name constant)

/-- From a line on, the search within the span and the text is the search within the span. -/
lemma firstLineAt?_eq_firstLineFrom? (test : List Char → Bool) (span : Span)
    (hlines : lines = before ++ rest) (hnumber : number = before.length + 1) :
    firstLineAt? lines test (max number span.first) (min span.last lines.length) =
      some (firstLineFrom? test span number rest) := by
  induction rest generalizing before number with
  | nil =>
    have hlength : lines.length = before.length := by rw [hlines, List.append_nil]
    rw [firstLineAt?, if_neg (by omega)]
    rfl
  | cons line rest ih =>
    have hcount : number + 1 = (before ++ [line]).length + 1 := by
      rw [List.length_append, List.length_singleton, hnumber]
    have hnext := ih (by simpa using hlines) hcount
    have hlength := congrArg List.length hlines
    rw [List.length_append, List.length_cons] at hlength
    rw [firstLineFrom?]
    by_cases hfirst : span.first ≤ number
    · by_cases hlast : number ≤ span.last
      · have hline : lines[number - 1]? = some line := by
          rw [hlines, hnumber, Nat.add_sub_cancel,
            List.getElem?_append_right (Nat.le_refl _), Nat.sub_self]
          rfl
        rw [Nat.max_eq_left hfirst, firstLineAt?, if_pos (by omega), if_neg (by omega), hline,
          Option.bind_eq_bind, Option.bind_some]
        rw [Nat.max_eq_left (by omega)] at hnext
        by_cases htest : test line = true
        · rw [if_pos htest, if_pos (by simp [hfirst, hlast, htest])]
        · rw [if_neg htest, if_neg (by simp [htest]), hnext]
      · rw [firstLineAt?, if_neg (by omega)] at hnext ⊢
        rw [if_neg (by simp [hlast]), ← hnext]
    · rw [Nat.max_eq_right (by omega)] at hnext ⊢
      rw [if_neg (by simp [hfirst]), hnext]

/-- All lines that are looked at between two numbers are there. -/
lemma firstLineAt?_eq (hspan : 1 ≤ span.first) :
    firstLineAt? lines test span.first (min span.last lines.length) =
      some (firstLine? lines span test) := by
  have h := firstLineAt?_eq_firstLineFrom? test span (List.nil_append lines).symm rfl
  rw [List.length_nil, Nat.zero_add, Nat.max_eq_right hspan] at h
  rw [h, firstLine?, if_neg (by omega)]

/-- Whatever the span, no line is looked up that the text does not have. -/
lemma mentionAt?_eq (lines : List (List Char)) (span : Span) (name : String)
    (constant : Option String) :
    mentionAt? lines span name constant = some (mention? lines span name constant) := by
  by_cases hspan : span.first < 1
  · have hzero : span.first = 0 := by omega
    have hnone : ∀ test, firstLine? lines span test = none :=
      fun test => by rw [firstLine?, if_pos hzero]
    rw [mentionAt?, if_pos hspan]
    unfold mention?
    simp only [hnone]
    cases constant <;> simp
  · have hstep : ∀ test tests, locateAt? lines span (test :: tests) =
        match firstLine? lines span test with
        | some number => some (some number)
        | none => locateAt? lines span tests := by
      intro test tests
      rw [locateAt?, firstLineAt?_eq (by omega), Option.bind_eq_bind, Option.bind_some]
    rw [mentionAt?, if_neg hspan]
    unfold mentions mention?
    rw [hstep]
    dsimp only
    cases firstLine? lines span (containsText ('"' :: name.toList ++ ['"'])) with
    | some number => rfl
    | none =>
      cases constant with
      | none => rfl
      | some c =>
        by_cases hempty : c.isEmpty = true
        · simp [hempty, locateAt?]
        · simp only [hempty, Bool.false_eq_true, if_false, hstep]
          cases firstLine? lines span (containsWord c.toList false) <;> rfl

end Source

/-! ### The package -/

namespace Manifest

variable {m : Manifest} {root : Path} {p : Package} {fault : ManifestFault}

/-- The dependencies that a target declares, each with its line, which is looked up. -/
def dependenciesAt? (m : Manifest) (arguments : List (Option String × Term)) (span : Span) :
    Option (List Dependency) :=
  let items := m.constants.itemsOf (Term.argument? arguments "dependencies")
  (items.flatMap (m.reached m.constants)).mapM fun r => do
    let line ← Source.mentionAt? (Text.lines m.clean) span r.dependency.name r.constant
    some { r.dependency with line := line }

/-- The target that a term declares. -/
def targetAt? (m : Manifest) (t : Term) : Option (Option Target) :=
  match m.constants.resolve t with
  | .call callee arguments span =>
    match TargetKind.ofConstructor? callee, m.nonemptyText? arguments "name" with
    | some kind, some name => do
      let dependencies ← m.dependenciesAt? arguments span
      some (some ⟨name, kind, dependencies, m.text? arguments "path"⟩)
    | _, _ => some none
  | _ => some none

/-- The package that a manifest in a directory describes. -/
def packageAt? (m : Manifest) (root : Path) : Option (Except ManifestFault Package) :=
  match m.name? with
  | none => some (.error .noName)
  | some name =>
    if name = "" then some (.error .noName)
    else do
      let targets ← (m.itemsIn "targets" "Target").mapM m.targetAt?
      some (.ok {
        name := name
        root := root
        targets := targets.reduceOption
        products := (m.itemsIn "products" "Product").filterMap (m.product? name)
        references := (m.itemsIn "dependencies" "Package.Dependency").filterMap m.reference? })

/-- No look-up fails while the dependencies of a target are read. -/
lemma dependenciesAt?_eq (m : Manifest) (arguments : List (Option String × Term)) (span : Span) :
    m.dependenciesAt? arguments span = some (m.dependencies arguments span) := by
  apply Source.Views.mapM_eq_map
  intro r _
  rw [Source.mentionAt?_eq]
  rfl

/-- No look-up fails while a target is read. -/
lemma targetAt?_eq (m : Manifest) (t : Term) : m.targetAt? t = some (m.target? t) := by
  rw [targetAt?, target?]
  cases m.constants.resolve t with
  | call callee arguments span =>
    cases hkind : TargetKind.ofConstructor? callee with
    | none => simp [hkind]
    | some kind =>
      cases hname : m.nonemptyText? arguments "name" with
      | none => simp [hkind, hname]
      | some name => simp [hkind, hname, dependenciesAt?_eq]
  | _ => rfl

/-- The lines of the dependencies are all looked up within the text. -/
lemma packageAt?_eq (m : Manifest) (root : Path) : m.packageAt? root = some (m.package? root) := by
  rw [packageAt?, package?]
  cases m.name? with
  | none => rfl
  | some name =>
    by_cases hempty : name = ""
    · simp [hempty]
    · simp only [hempty, if_false]
      rw [Source.Views.mapM_eq_map fun t _ => m.targetAt?_eq t, Option.bind_eq_bind,
        Option.bind_some, List.reduceOption, List.filterMap_map]
      rfl

/-- A package has the name that the manifest gives, and the name is not empty. -/
lemma names_of_package? (h : m.package? root = .ok p) : m.Names p.name ∧ p.name ≠ "" := by
  rw [package?] at h
  split at h
  · simp at h
  · rename_i name hname
    split at h
    · simp at h
    · rename_i hempty
      obtain rfl := Except.ok.inj h
      exact ⟨name?_eq_some_iff.1 hname, hempty⟩

/-- There is no package exactly if no name is given or the name that is given is empty. -/
lemma package?_eq_error_iff :
    m.package? root = .error fault ↔
      fault = .noName ∧ (m.Names "" ∨ ∀ name, ¬m.Names name) := by
  simp only [← name?_eq_some_iff, package?]
  cases hname : m.name? with
  | none => simp [eq_comm]
  | some name =>
    by_cases hempty : name = ""
    · simp [hempty, eq_comm]
    · simp [hempty]

end Manifest

/-! ### Any text -/

/-- Read a manifest by its sections, by offset. -/
def Reader.bySectionsAt? (text : List Char) (root : Path) :
    Option (Except ManifestFault Package) := do
  let m ← Source.manifestAt? text
  m.packageAt? root

/-- On every text, the reading by sections comes to an end, with every text, depth and line looked
up within range. It gives a package with the name that the first of the three places gives, which is
not empty, or else says that no name was found. The latter is so exactly if that name is empty or
none of the places gives one. -/
theorem Reader.bySections_robust (text : List Char) (root : Path) :
    Reader.bySectionsAt? text root = some (Reader.bySections text root) ∧
    (∀ p, Reader.bySections text root = .ok p → (Manifest.ofSections text).Names p.name ∧
      p.name ≠ "") ∧
    (∀ fault, Reader.bySections text root = .error fault →
      fault.reason = "Could not find package name") ∧
    ((∃ fault, Reader.bySections text root = .error fault) ↔
      (Manifest.ofSections text).Names "" ∨
      ∀ name, ¬(Manifest.ofSections text).Names name) := by
  refine ⟨?inRange, fun p hp => Manifest.names_of_package? hp, ?reason, ?exactly⟩
  case inRange =>
    rw [bySectionsAt?, Source.manifestAt?_eq, Option.bind_eq_bind, Option.bind_some,
      Manifest.packageAt?_eq, bySections]
  case reason =>
    intro fault hfault
    obtain ⟨rfl, -⟩ := Manifest.package?_eq_error_iff.1 hfault
    rfl
  case exactly =>
    constructor
    · rintro ⟨fault, hfault⟩
      exact (Manifest.package?_eq_error_iff.1 hfault).2
    · intro h
      exact ⟨.noName, Manifest.package?_eq_error_iff.2 ⟨rfl, h⟩⟩

end SwiftDependencies
