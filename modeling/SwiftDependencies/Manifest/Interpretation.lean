import SwiftDependencies.Manifest.Fault
import SwiftDependencies.Package
import SwiftDependencies.Source.Text
import SwiftDependencies.Term

/-!
# From terms to a package

A manifest in the form of terms consists of its constants, the arguments of the constructed package
if there is one, and the clean text. `Manifest.package?` says which package these describe.

* The name is the constant `name`, or else the argument `name`, or else the first text of the form
  `name: "..."`. The first of these that is present decides, and must not be empty.
* Targets, products and references are the items of the arrays declared with the respective element
  type, or else those of the argument of that label.
* A dependency is a string, a call of `product`, `target` or `byName`, or a call of anything else
  with the arrays among its arguments. A constant stands for its term, and each constant is unfolded
  at most once on the way to a dependency.
-/

namespace SwiftDependencies

open Source (Span)

/-- The labelled values of a call, and the lines it spans. -/
structure Call where
  arguments : List (Option String × Term)
  span : Span
  deriving Inhabited

/-- A manifest in the form of terms. -/
structure Manifest where
  constants : Constants
  /-- The constructed package. -/
  call : Option Call
  /-- The text without comments. -/
  clean : List Char
  deriving Inhabited

namespace Manifest

/-! ### The name of the package -/

/-- The text in front of which `name: "..."` is looked for at every place where no word goes on. -/
def quotedAfterName? (cs : List Char) : Option (List Char) := do
  guard ("name".toList.isPrefixOf cs)
  let cs := (cs.drop 4).dropWhile Text.isBlank
  guard (cs.head? == some ':')
  let cs := (cs.drop 1).dropWhile Text.isBlank
  guard (cs.head? == some '"')
  let body := (cs.drop 1).takeWhile fun c => c != '"' && c != '\\' && c != '\n'
  guard (!body.isEmpty && ((cs.drop 1).drop body.length).head? == some '"')
  return body

/-- The first text of the form `name: "..."`. The flag says whether a word goes on. -/
def writtenName? (inWord : Bool) : List Char → Option (List Char)
  | [] => none
  | c :: cs =>
    match if inWord then none else quotedAfterName? (c :: cs) with
    | some body => some body
    | none => writtenName? (Text.isWord c) cs

/-- The arguments of the constructed package. -/
def arguments (m : Manifest) : List (Option String × Term) :=
  (m.call.map (·.arguments)).getD []

/-- The name of the package, which may turn out empty. -/
def name? (m : Manifest) : Option String :=
  m.constants.string? "name" <|>
    (Term.argument? m.arguments "name").bind m.constants.stringOf? <|>
    (writtenName? false m.clean).map String.ofList

/-! ### Sections -/

/-- The items of a section: those of the arrays of its element type, or else those of its
argument. -/
def itemsIn (m : Manifest) (label elementType : String) : List Term :=
  match m.constants.itemsOfType? elementType with
  | some items => items
  | none => m.constants.itemsOf (Term.argument? m.arguments label)

/-- The text of the argument with a label. -/
def text? (m : Manifest) (arguments : List (Option String × Term)) (label : String) :
    Option String :=
  (Term.argument? arguments label).bind m.constants.stringOf?

/-- The text of the argument with a label, unless it is empty. -/
def nonemptyText? (m : Manifest) (arguments : List (Option String × Term)) (label : String) :
    Option String :=
  (m.text? arguments label).filter (· != "")

/-! ### Dependencies -/

/-- A dependency, and the constant through which it was reached. -/
structure Reached where
  dependency : Dependency
  constant : Option String
  deriving DecidableEq, Repr

/-- The dependency that a call declares by its own name, if it is a call of that kind. -/
def declared? (m : Manifest) (callee : String) (arguments : List (Option String × Term)) :
    Option (Option Dependency) :=
  if callee = "product" then
    some ((m.nonemptyText? arguments "name").map fun name =>
      Dependency.ofProduct name (m.text? arguments "package"))
  else if callee = "target" ∨ callee = "byName" then
    some ((m.nonemptyText? arguments "name").map Dependency.bare)
  else none

/-- The dependencies that a term declares, when the constants not yet unfolded are `rest`. -/
def reached (m : Manifest) (rest : Constants) (t : Term) : List Reached :=
  match t with
  | .string value _ => [⟨Dependency.bare value, none⟩]
  | .reference name _ =>
    match h : rest.find? name with
    | none => []
    | some t =>
      have := Constants.length_without_lt h
      (m.reached (rest.without name) t).map fun r => { r with constant := some name }
  | .array items _ => items.attach.flatMap fun ⟨item, _⟩ => m.reached rest item
  | .call callee arguments _ =>
    match m.declared? callee arguments with
    | some d => d.toList.map (⟨·, none⟩)
    | none =>
      arguments.attach.flatMap fun ⟨a, ha⟩ =>
        have := Term.sizeOf_lt_of_mem_arguments ha
        if a.2.isArray then m.reached rest a.2 else []
  | .unknown _ _ => []
termination_by (rest.length, sizeOf t)
decreasing_by
  · exact Prod.Lex.left _ _ this
  · exact Prod.Lex.right _ (by simp; have := List.sizeOf_lt_of_mem ‹_›; omega)
  · exact Prod.Lex.right _ (by simp; omega)

/-- An array declares what its items declare, in order. -/
theorem reached_array (m : Manifest) (rest : Constants) (items : List Term) (span : Span) :
    m.reached rest (.array items span) = items.flatMap (m.reached rest) := by
  rw [reached]
  simp [List.flatMap_subtype]

/-- A call declares a dependency by its own name, or else what the arrays among its arguments
declare. -/
theorem reached_call (m : Manifest) (rest : Constants) (callee : String)
    (arguments : List (Option String × Term)) (span : Span) :
    m.reached rest (.call callee arguments span) =
      match m.declared? callee arguments with
      | some d => d.toList.map (⟨·, none⟩)
      | none => arguments.flatMap fun a => if a.2.isArray then m.reached rest a.2 else [] := by
  rw [reached]
  split
  · rfl
  · conv => rhs; rw [← List.attach_map_subtype_val arguments, List.flatMap_map]

/-- The dependencies that a target declares, each with its line. -/
def dependencies (m : Manifest) (arguments : List (Option String × Term)) (span : Span) :
    List Dependency :=
  let lines := Text.lines m.clean
  let items := m.constants.itemsOf (Term.argument? arguments "dependencies")
  (items.flatMap (m.reached m.constants)).map fun r =>
    { r.dependency with line := Source.mention? lines span r.dependency.name r.constant }

/-! ### Targets, products and references -/

/-- The target that a term declares. -/
def target? (m : Manifest) (t : Term) : Option Target :=
  match m.constants.resolve t with
  | .call callee arguments span => do
    let kind ← TargetKind.ofConstructor? callee
    let name ← m.nonemptyText? arguments "name"
    return ⟨name, kind, m.dependencies arguments span, m.text? arguments "path"⟩
  | _ => none

/-- The product that a term declares in a package. -/
def product? (m : Manifest) (package : String) (t : Term) : Option Product :=
  match m.constants.resolve t with
  | .call callee arguments _ => do
    let kind ← ProductKind.ofConstructor? callee
    let name ← m.nonemptyText? arguments "name"
    let members := m.constants.itemsOf (Term.argument? arguments "targets")
    return ⟨name, kind, (members.filterMap m.constants.stringOf?).filter (· != ""), package⟩
  | _ => none

/-- Remove the slashes at the end of a text. -/
def withoutFinalSlashes (s : String) : String :=
  String.ofList (Text.dropEnd (· == '/') s.toList)

/-- The name of the package at an address: the last part, without the ending of a repository. -/
def nameOfAddress (address : String) : String :=
  let tail := Text.lastPiece (fun c => c == '/' || c == ':') (withoutFinalSlashes address)
  if ".git".toList.isSuffixOf tail.toList then String.ofList (tail.toList.take (tail.length - 4))
  else tail

/-- The name of the package at a path: the last part. -/
def nameOfPath (path : String) : String :=
  Text.lastPiece (· == '/') (withoutFinalSlashes path)

/-- The name of the package with an identifier: the part after the last dot. -/
def nameOfIdentifier (identifier : String) : String :=
  Text.lastPiece (· == '.') identifier

/-- The reference that a term declares. Of several origins the address counts before the path and
the path before the identifier. -/
def reference? (m : Manifest) (t : Term) : Option PackageReference :=
  match m.constants.resolve t with
  | .call "package" arguments _ =>
    let name := m.nonemptyText? arguments "name"
    match m.nonemptyText? arguments "url", m.nonemptyText? arguments "path",
        m.nonemptyText? arguments "id" with
    | some url, _, _ => some ⟨name.getD (nameOfAddress url), url, false⟩
    | none, some path, _ => some ⟨name.getD (nameOfPath path), path, true⟩
    | none, none, some id => some ⟨name.getD (nameOfIdentifier id), id, false⟩
    | none, none, none => none
  | _ => none

/-- The package that a manifest in a directory describes. -/
def package? (m : Manifest) (root : Path) : Except ManifestFault Package :=
  match m.name? with
  | none => .error .noName
  | some name =>
    if name = "" then .error .noName
    else .ok {
      name := name
      root := root
      targets := (m.itemsIn "targets" "Target").filterMap m.target?
      products := (m.itemsIn "products" "Product").filterMap (m.product? name)
      references := (m.itemsIn "dependencies" "Package.Dependency").filterMap m.reference? }

end Manifest

end SwiftDependencies
