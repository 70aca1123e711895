import Mathlib.Tactic.Common
import SwiftDependencies.Proofs.Manifest.Description
import SwiftDependencies.Proofs.Manifest.Unfolding

/-!
# Constants are transparent

A manifest may give names to its parts.  Its package should be the one that is described when the
parts are written where their names stand, that is, the package of the unfolded manifest.

Names are followed in two ways.  Among the dependencies of a target a name is followed for as long
as it stands for another name (`Manifest.reached`).  Everywhere else one step is taken
(`Constants.resolve`), the constants with an element type have to be arrays as they are written, and
so have the arguments of a call around dependencies.  A second name for a constant is therefore not
understood everywhere (`Manifest.package?_unfold_alias`).

`Manifest.IsDirect` says where a single step has to be enough; where it is, constants are
transparent (`Manifest.package?_unfold`).  There is one lemma for each part of a package.
-/

namespace SwiftDependencies

open Source (Span)

namespace Manifest

variable {m : Manifest} {t : Term} {arguments : List (Option String × Term)}
    {label callee : String}
  {span : Span}

/-- The manifest in which every name of a constant is replaced by what it stands for in the end. -/
def unfold (m : Manifest) : Manifest where
  constants := m.constants.unfold
  call := m.call.map fun c => { c with arguments := m.constants.unfoldedArguments c.arguments }
  clean := m.clean

/-! ### Direct manifests -/

/-- Below a dependency, the arguments that are read are direct, and the arguments of other calls are
arrays as they are written if they are arrays at all. The names of constants are followed. -/
inductive DirectDependency (m : Manifest) : Term → Prop where
  | string (value : String) (span : Span) : DirectDependency m (.string value span)
  | unknown (text : String) (span : Span) : DirectDependency m (.unknown text span)
  | reference {name : String} {span : Span}
    (h : ∀ t, m.constants.find? name = some t → DirectDependency m t) :
    DirectDependency m (.reference name span)
  | array {items : List Term} {span : Span} (h : ∀ t ∈ items, DirectDependency m t) :
    DirectDependency m (.array items span)
  | declaration {callee : String} {arguments : List (Option String × Term)} {span : Span}
    (hcallee : (m.declared? callee arguments).isSome = true)
    (hname : m.constants.DirectArgument arguments "name")
    (hpackage : callee = "product" → m.constants.DirectArgument arguments "package") :
    DirectDependency m (.call callee arguments span)
  | helper {callee : String} {arguments : List (Option String × Term)} {span : Span}
    (hcallee : m.declared? callee arguments = none)
    (hwritten : ∀ a ∈ arguments, m.constants.ArrayWritten a.2)
    (h : ∀ a ∈ arguments, a.2.isArray = true → DirectDependency m a.2) :
    DirectDependency m (.call callee arguments span)

/-- A target and what is read of it are direct. -/
structure DirectTarget (m : Manifest) (t : Term) : Prop where
  direct : m.constants.Direct t
  arguments {callee : String} {arguments : List (Option String × Term)} {span : Span}
    (h : m.constants.resolve t = .call callee arguments span)
    (hcallee : TargetKind.ofConstructor? callee ≠ none) :
    ∀ label ∈ ["name", "path", "dependencies"], m.constants.DirectArgument arguments label
  dependencies {callee : String} {arguments : List (Option String × Term)} {span : Span}
    (h : m.constants.resolve t = .call callee arguments span)
    (hcallee : TargetKind.ofConstructor? callee ≠ none) :
    ∀ d ∈ m.constants.itemsOf (Term.argument? arguments "dependencies"), m.DirectDependency d

/-- A product and what is read of it are direct. -/
structure DirectProduct (m : Manifest) (t : Term) : Prop where
  direct : m.constants.Direct t
  arguments {callee : String} {arguments : List (Option String × Term)} {span : Span}
    (h : m.constants.resolve t = .call callee arguments span)
    (hcallee : ProductKind.ofConstructor? callee ≠ none) :
    ∀ label ∈ ["name", "targets"], m.constants.DirectArgument arguments label
  members {callee : String} {arguments : List (Option String × Term)} {span : Span}
    (h : m.constants.resolve t = .call callee arguments span)
    (hcallee : ProductKind.ofConstructor? callee ≠ none) :
    ∀ member ∈ m.constants.itemsOf (Term.argument? arguments "targets"),
      m.constants.Direct member

/-- A reference to a package and what is read of it are direct. -/
structure DirectReference (m : Manifest) (t : Term) : Prop where
  direct : m.constants.Direct t
  arguments {arguments : List (Option String × Term)} {span : Span}
    (h : m.constants.resolve t = .call "package" arguments span) :
    ∀ label ∈ ["name", "url", "path", "id"], m.constants.DirectArgument arguments label

/-- The constants of the element type of a section are arrays as they are written, if they are
arrays at all; if there is none, the argument of the section is direct. -/
structure DirectSection (m : Manifest) (label elementType : String) : Prop where
  typed : ∀ c ∈ m.constants, c.elementType = some elementType →
    m.constants.ArrayWritten c.value
  argument : m.constants.itemsOfType? elementType = none →
    m.constants.DirectArgument m.arguments label

/-- Wherever only one step is taken from a name, one step is enough. -/
structure IsDirect (m : Manifest) : Prop where
  nameConstant : ∀ span, m.constants.Direct (.reference "name" span)
  nameArgument : m.constants.string? "name" = none → m.constants.DirectArgument m.arguments "name"
  targetSection : m.DirectSection "targets" "Target"
  productSection : m.DirectSection "products" "Product"
  referenceSection : m.DirectSection "dependencies" "Package.Dependency"
  targets : ∀ t ∈ m.itemsIn "targets" "Target", m.DirectTarget t
  products : ∀ t ∈ m.itemsIn "products" "Product", m.DirectProduct t
  references : ∀ t ∈ m.itemsIn "dependencies" "Package.Dependency", m.DirectReference t

/-! ### Calls in an unfolded manifest -/

/-- The arguments of an unfolded manifest are the unfolded arguments. -/
@[simp] lemma arguments_unfold (m : Manifest) :
    m.unfold.arguments = m.constants.unfoldedArguments m.arguments := by
  rw [Manifest.arguments, Manifest.arguments, unfold]
  cases m.call <;> rfl

/-- Whether a call declares a dependency by its own name does not depend on its arguments. -/
lemma declared?_unfold_eq_none_iff :
    m.unfold.declared? callee (m.constants.unfoldedArguments arguments) = none ↔
      m.declared? callee arguments = none := by
  unfold declared?
  split
  · simp
  · split <;> simp

section

variable (h : ∀ callee arguments span, m.constants.resolve t ≠ .call callee arguments span)

include h

/-- What does not stand for a call declares no target. -/
lemma target?_eq_none : m.target? t = none := by
  rw [target?]
  split
  · exact absurd ‹_› (h _ _ _)
  · rfl

/-- What does not stand for a call declares no product. -/
lemma product?_eq_none {package : String} : m.product? package t = none := by
  rw [product?]
  split
  · exact absurd ‹_› (h _ _ _)
  · rfl

/-- What does not stand for a call declares no reference. -/
lemma reference?_eq_none : m.reference? t = none := by
  rw [reference?]
  split
  · exact absurd ‹_› (h _ _ _)
  · rfl

end

/-- A call of `package` is a reference to the first origin that it has. -/
lemma reference?_of_package (h : m.constants.resolve t = .call "package" arguments span) :
    m.reference? t =
      match m.nonemptyText? arguments "url", m.nonemptyText? arguments "path",
        m.nonemptyText? arguments "id" with
      | some url, _, _ =>
        some ⟨(m.nonemptyText? arguments "name").getD (nameOfAddress url), url, false⟩
      | none, some path, _ =>
        some ⟨(m.nonemptyText? arguments "name").getD (nameOfPath path), path, true⟩
      | none, none, some id =>
        some ⟨(m.nonemptyText? arguments "name").getD (nameOfIdentifier id), id, false⟩
      | none, none, none => none := by
  rw [reference?, h]
  rfl

/-- A call of anything else declares no reference. -/
lemma reference?_of_ne_package (h : m.constants.resolve t = .call callee arguments span)
    (hcallee : callee ≠ "package") : m.reference? t = none := by
  rw [reference?, h]
  split
  · exact absurd (by simp_all) hcallee
  · rfl

/-! ### Names among dependencies -/

/-- An unknown name declares no dependencies. -/
lemma reached_of_find?_eq_none {rest : Constants} {name : String} (h : rest.find? name = none) :
    m.reached rest (.reference name span) = [] := by
  rw [reached]
  split
  · rfl
  · simp_all

/-- A constant declares the dependencies of its term, as reached through itself. -/
lemma reached_of_find?_eq_some {rest : Constants} {name : String} (h : rest.find? name = some t) :
    m.reached rest (.reference name span) =
      (m.reached (rest.without name) t).map fun r => { r with constant := some name } := by
  rw [reached]
  split
  · simp_all
  · simp_all

/-- But for their lines, the dependencies of a target are those that its items declare. -/
lemma dependencies_withoutLines (m : Manifest) (arguments : List (Option String × Term))
    (span : Span) :
    (m.dependencies arguments span).map (fun d => { d with line := none }) =
      ((m.constants.itemsOf (Term.argument? arguments "dependencies")).flatMap fun t =>
        (m.reached m.constants t).map (·.dependency)).map fun d => { d with line := none } := by
  simp only [dependencies, ← List.map_flatMap, List.map_map, Function.comp_def]

/-! ### Texts and items of an unfolded manifest -/

section Acyclic

variable (hcs : m.constants.Acyclic)

include hcs

/-- The text of an argument is the same in an unfolded manifest. -/
lemma text?_unfold (h : m.constants.DirectArgument arguments label) :
    m.unfold.text? (m.constants.unfoldedArguments arguments) label = m.text? arguments label := by
  rw [text?, text?, Constants.argument?_unfolded]
  cases hargument : Term.argument? arguments label with
  | none => rfl
  | some t => exact (h t hargument).stringOf?_unfold hcs

/-- The text of an argument that must not be empty is the same in an unfolded manifest. -/
lemma nonemptyText?_unfold (h : m.constants.DirectArgument arguments label) :
    m.unfold.nonemptyText? (m.constants.unfoldedArguments arguments) label =
      m.nonemptyText? arguments label := by
  rw [nonemptyText?, nonemptyText?, text?_unfold hcs h]

/-- The items of an argument in an unfolded manifest are the unfolded items. -/
lemma argumentItems_unfold (h : m.constants.DirectArgument arguments label) :
    m.unfold.constants.itemsOf (Term.argument? (m.constants.unfoldedArguments arguments) label) =
      (m.constants.itemsOf (Term.argument? arguments label)).map m.constants.unfolded := by
  rw [Constants.argument?_unfolded]
  exact Constants.Direct.itemsOf_unfold hcs h

/-! ### The name and the sections -/

/-- The name of the package is the same in an unfolded manifest. -/
lemma name?_unfold (hm : m.IsDirect) : m.unfold.name? = m.name? := by
  have hconstant : m.unfold.constants.string? "name" = m.constants.string? "name" :=
    Constants.Direct.string?_unfold (hm.nameConstant default)
  rw [name?, name?, hconstant]
  cases hstring : m.constants.string? "name" with
  | some name => rfl
  | none =>
    have htext := text?_unfold hcs (hm.nameArgument hstring)
    rw [text?, text?] at htext
    rw [arguments_unfold, htext]
    rfl

/-- The items of a section of an unfolded manifest are the unfolded items. -/
lemma itemsIn_unfold {elementType : String} (h : m.DirectSection label elementType) :
    m.unfold.itemsIn label elementType =
      (m.itemsIn label elementType).map m.constants.unfolded := by
  have htyped : m.unfold.constants.itemsOfType? elementType =
      (m.constants.itemsOfType? elementType).map (List.map m.constants.unfolded) :=
    Constants.itemsOfType?_unfold h.typed
  rw [itemsIn, itemsIn, htyped, arguments_unfold]
  cases hitems : m.constants.itemsOfType? elementType with
  | some items => rfl
  | none => exact argumentItems_unfold hcs (h.argument hitems)

/-! ### Dependencies -/

/-- A call declares the same dependency by its own name in an unfolded manifest. -/
lemma declared?_unfold (hname : m.constants.DirectArgument arguments "name")
    (hpackage : callee = "product" → m.constants.DirectArgument arguments "package") :
    m.unfold.declared? callee (m.constants.unfoldedArguments arguments) =
      m.declared? callee arguments := by
  unfold declared?
  rw [nonemptyText?_unfold hcs hname]
  split
  · rename_i hproduct
    rw [text?_unfold hcs (hpackage hproduct)]
  · rfl

/-- A term declares the dependencies that it declares when it is unfolded, if the constants that are
left cover it. -/
lemma reached_unfold (h : m.DirectDependency t) {rest : Constants}
    (hrest : m.constants.Covers rest t) :
    (m.unfold.reached m.unfold.constants (m.constants.unfolded t)).map (·.dependency) =
      (m.reached rest t).map (·.dependency) := by
  induction h generalizing rest with
  | string value span =>
    rw [Constants.unfolded_string, reached, reached]
  | unknown text span =>
    rw [Constants.unfolded_unknown, reached, reached]
  | @reference name span _ ih =>
    cases hvalue : m.constants.find? name with
    | none =>
      have hnone : m.unfold.constants.find? name = none := by
        rw [unfold, Constants.find?_unfold, hvalue]
        rfl
      rw [Constants.unfolded_of_find?_eq_none hvalue, reached_of_find?_eq_none hnone,
        reached_of_find?_eq_none (hrest.find?.trans hvalue)]
    | some t =>
      rw [Constants.unfolded_reference hcs hvalue,
        reached_of_find?_eq_some (hrest.find?.trans hvalue), List.map_map]
      exact ih t hvalue (hrest.value hcs hvalue)
  | @array items span _ ih =>
    rw [Constants.unfolded_array, reached_array, reached_array, List.map_flatMap, List.map_flatMap,
      List.flatMap_map]
    exact List.flatMap_congr fun item hitem => ih item hitem (hrest.item hitem)
  | @declaration callee arguments span hcallee hname hpackage =>
    rw [Constants.unfolded_call, reached_call, reached_call, declared?_unfold hcs hname hpackage]
    cases hdeclared : m.declared? callee arguments with
    | none => simp [hdeclared] at hcallee
    | some d => rfl
  | @helper callee arguments span hcallee hwritten _ ih =>
    rw [Constants.unfolded_call, reached_call, reached_call, hcallee,
      declared?_unfold_eq_none_iff.2 hcallee]
    dsimp only
    rw [List.map_flatMap, List.map_flatMap, Constants.unfoldedArguments, List.flatMap_map]
    refine List.flatMap_congr ?_
    intro a ha
    dsimp only
    rw [(hwritten a ha).isArray_unfolded]
    split
    · rename_i harray
      exact ih a ha harray (hrest.argument ha)
    · rfl

/-- The dependencies of a target, without their lines, are those of the unfolded target. -/
lemma dependencies_unfold (span : Span)
    (hargument : m.constants.DirectArgument arguments "dependencies")
    (hitems : ∀ d ∈ m.constants.itemsOf (Term.argument? arguments "dependencies"),
      m.DirectDependency d) :
    (m.unfold.dependencies (m.constants.unfoldedArguments arguments) span).map
        (fun d => { d with line := none }) =
      (m.dependencies arguments span).map fun d => { d with line := none } := by
  rw [dependencies_withoutLines, dependencies_withoutLines, argumentItems_unfold hcs hargument,
    List.flatMap_map]
  congr 1
  exact List.flatMap_congr fun d hd => reached_unfold hcs (hitems d hd) (m.constants.covers_self d)

/-! ### Targets, products and references -/

/-- The target that a term declares, without the lines of its dependencies, is that of the unfolded
term. -/
lemma target?_unfold (h : m.DirectTarget t) :
    (m.unfold.target? (m.constants.unfolded t)).map Target.withoutLines =
      (m.target? t).map Target.withoutLines := by
  obtain ⟨callee, arguments, span, hcall, hunfolded⟩ | ⟨hcall, hunfolded⟩ :=
    h.direct.call_cases hcs
  · replace hunfolded : m.unfold.constants.resolve (m.constants.unfolded t) = _ := hunfolded
    rw [target?, target?, hcall, hunfolded]
    dsimp only
    cases hkind : TargetKind.ofConstructor? callee with
    | none => rfl
    | some kind =>
      have hread := h.arguments hcall (by simp [hkind])
      have hdependencies := dependencies_unfold hcs span (hread _ (by simp))
        (h.dependencies hcall (by simp [hkind]))
      rw [nonemptyText?_unfold hcs (hread _ (by simp)), text?_unfold hcs (hread _ (by simp))]
      cases m.nonemptyText? arguments "name" with
      | none => rfl
      | some name => simp [Target.withoutLines, hdependencies]
  · rw [target?_eq_none hcall, target?_eq_none (m := m.unfold) hunfolded]

/-- The product that a term declares is that of the unfolded term. -/
lemma product?_unfold (h : m.DirectProduct t) (package : String) :
    m.unfold.product? package (m.constants.unfolded t) = m.product? package t := by
  obtain ⟨callee, arguments, span, hcall, hunfolded⟩ | ⟨hcall, hunfolded⟩ :=
    h.direct.call_cases hcs
  · replace hunfolded : m.unfold.constants.resolve (m.constants.unfolded t) = _ := hunfolded
    rw [product?, product?, hcall, hunfolded]
    dsimp only
    cases hkind : ProductKind.ofConstructor? callee with
    | none => rfl
    | some kind =>
      have hread := h.arguments hcall (by simp [hkind])
      have hmembers : (m.unfold.constants.itemsOf (Term.argument?
            (m.constants.unfoldedArguments arguments) "targets")).filterMap
              m.unfold.constants.stringOf? =
          (m.constants.itemsOf (Term.argument? arguments "targets")).filterMap
            m.constants.stringOf? := by
        rw [argumentItems_unfold hcs (hread _ (by simp)), List.filterMap_map]
        exact List.filterMap_congr fun member hmember =>
          (h.members hcall (by simp [hkind]) member hmember).stringOf?_unfold hcs
      rw [nonemptyText?_unfold hcs (hread _ (by simp)), hmembers]
  · rw [product?_eq_none hcall, product?_eq_none (m := m.unfold) hunfolded]

/-- The reference that a term declares is that of the unfolded term. -/
lemma reference?_unfold (h : m.DirectReference t) :
    m.unfold.reference? (m.constants.unfolded t) = m.reference? t := by
  obtain ⟨callee, arguments, span, hcall, hunfolded⟩ | ⟨hcall, hunfolded⟩ :=
    h.direct.call_cases hcs
  · replace hunfolded : m.unfold.constants.resolve (m.constants.unfolded t) = _ := hunfolded
    by_cases hpackage : callee = "package"
    · subst hpackage
      have hread : ∀ label ∈ ["name", "url", "path", "id"],
          m.unfold.nonemptyText? (m.constants.unfoldedArguments arguments) label =
            m.nonemptyText? arguments label :=
        fun label hlabel => nonemptyText?_unfold hcs (h.arguments hcall label hlabel)
      simp only [List.forall_mem_cons] at hread
      obtain ⟨hname, hurl, hpath, hid, -⟩ := hread
      rw [reference?_of_package hcall, reference?_of_package hunfolded, hname, hurl, hpath, hid]
    · rw [reference?_of_ne_package hcall hpackage, reference?_of_ne_package hunfolded hpackage]
  · rw [reference?_eq_none hcall, reference?_eq_none (m := m.unfold) hunfolded]

end Acyclic

/-! ### The package -/

/-- Constants are transparent. If they do not refer to themselves in a circle, and one step is
enough wherever only one step is taken from a name, a manifest and the unfolded manifest describe
the same package, but for the lines of the dependencies, or fail alike. -/
theorem package?_unfold (m : Manifest) (root : Path) (hcs : m.constants.Acyclic) (hm : m.IsDirect) :
    (m.unfold.package? root).map Package.withoutLines =
      (m.package? root).map Package.withoutLines := by
  have hname := name?_unfold hcs hm
  have htargets : ((m.unfold.itemsIn "targets" "Target").filterMap m.unfold.target?).map
        Target.withoutLines =
      ((m.itemsIn "targets" "Target").filterMap m.target?).map Target.withoutLines := by
    rw [itemsIn_unfold hcs hm.targetSection, List.filterMap_map, List.map_filterMap,
      List.map_filterMap]
    exact List.filterMap_congr fun t ht => target?_unfold hcs (hm.targets t ht)
  have hproducts : ∀ package, (m.unfold.itemsIn "products" "Product").filterMap
        (m.unfold.product? package) =
      (m.itemsIn "products" "Product").filterMap (m.product? package) := by
    intro package
    rw [itemsIn_unfold hcs hm.productSection, List.filterMap_map]
    exact List.filterMap_congr fun t ht => product?_unfold hcs (hm.products t ht) package
  have hreferences : (m.unfold.itemsIn "dependencies" "Package.Dependency").filterMap
        m.unfold.reference? =
      (m.itemsIn "dependencies" "Package.Dependency").filterMap m.reference? := by
    rw [itemsIn_unfold hcs hm.referenceSection, List.filterMap_map]
    exact List.filterMap_congr fun t ht => reference?_unfold hcs (hm.references t ht)
  rw [package?, package?, hname]
  cases m.name? with
  | none => rfl
  | some name =>
    dsimp only
    split
    · rfl
    · simp only [Except.map, Package.withoutLines, htargets, hproducts, hreferences]

/-- The arguments of the target. -/
def namedArguments : List (Option String × Term) :=
  [(some "name", .reference "appName" default), (some "dependencies", .reference "shared" default)]

/-- A manifest with names for a text, for a dependency, for that name, and for a list of
dependencies. -/
def namedManifest : Manifest where
  constants := [⟨"appName", .string "App" default, none⟩,
    ⟨"kit", .call "product" [(some "name", .string "Kit" default),
      (some "package", .string "kit" default)]
      default, none⟩,
    ⟨"ui", .reference "kit" default, none⟩,
    ⟨"shared", .array [.string "Core" default, .reference "ui" default] default, none⟩]
  call := some ⟨[(some "name", .reference "appName" default),
    (some "targets", .array [.call "target" namedArguments default] default)], default⟩
  clean := []

/-- In the example the dependencies are a string and a constant. -/
lemma itemsOf_namedManifest :
    namedManifest.constants.itemsOf (Term.argument? namedArguments "dependencies") =
    [.string "Core" default, .reference "ui" default] :=
  rfl

/-- Behind the name of a name of a dependency is the dependency. -/
lemma reached_namedManifest :
    (namedManifest.reached namedManifest.constants (.reference "ui" default)).map
    (·.dependency) = [.ofProduct "Kit" (some "kit")] := by
  have hui : namedManifest.constants.find? "ui" = some (.reference "kit" default) := rfl
  have hkit : (namedManifest.constants.without "ui").find? "kit" = some (.call "product"
      [(some "name", .string "Kit" default), (some "package", .string "kit" default)] default) :=
    rfl
  rw [reached_of_find?_eq_some hui, reached_of_find?_eq_some hkit, reached_call]
  rfl

/-- In the example both dependencies are read, whatever the lines. -/
lemma dependencies_namedManifest (span : Span) :
    (namedManifest.dependencies namedArguments span).map (fun d => { d with line := none }) =
      [.bare "Core", .ofProduct "Kit" (some "kit")] := by
  rw [dependencies_withoutLines, itemsOf_namedManifest, List.flatMap_cons, List.flatMap_cons,
    List.flatMap_nil, reached_namedManifest, reached]
  rfl

/-- In the example no constant refers to itself. -/
lemma acyclic_namedManifest : namedManifest.constants.Acyclic := by
  refine Constants.acyclic_of_rank (fun name =>
    if name = "shared" then 2 else if name = "ui" then 1 else 0) ?_
  simp [namedManifest]

/-- None of the constants is declared with an element type, so a section is direct if its argument
is. -/
lemma directSection_namedManifest {elementType : String}
    (h : namedManifest.constants.DirectArgument namedManifest.arguments label) :
    namedManifest.DirectSection label elementType where
  typed := by
    intro c hc htype
    have huntyped : ∀ c ∈ namedManifest.constants, c.elementType = none := by decide
    rw [huntyped c hc] at htype
    exact absurd htype nofun
  argument _ := h

/-- The names of the dependencies lead to a product whose arguments are literals. -/
lemma directDependency_namedManifest :
    namedManifest.DirectDependency (.reference "ui" default) := by
  refine .reference ?_
  rintro t ⟨⟩
  refine .reference ?_
  rintro t ⟨⟩
  refine .declaration rfl ?_ ?_
  · rintro t ⟨⟩
    nofun
  · rintro - t ⟨⟩
    nofun

/-- In the example constants stand for terms in one step where this matters. -/
lemma isDirect_namedManifest : namedManifest.IsDirect where
  nameConstant := by
    rintro span name other ⟨⟩
    rfl
  nameArgument := by
    rintro - t ⟨⟩
    nofun
  targetSection := directSection_namedManifest (by
    rintro t ⟨⟩
    nofun)
  productSection := directSection_namedManifest (by
    rintro t ⟨⟩)
  referenceSection := directSection_namedManifest (by
    rintro t ⟨⟩)
  targets := by
    have hitems : namedManifest.itemsIn "targets" "Target" =
        [.call "target" namedArguments default] := rfl
    rw [hitems, List.forall_mem_singleton]
    refine ⟨nofun, ?_, ?_⟩
    · rintro callee arguments span ⟨⟩ -
      simp only [List.forall_mem_cons]
      refine ⟨?_, ?_, ?_, List.forall_mem_nil _⟩
      · rintro t ⟨⟩
        nofun
      · rintro t ⟨⟩
      · rintro t ⟨⟩
        nofun
    · rintro callee arguments span ⟨⟩ - d hd
      rw [itemsOf_namedManifest, List.mem_cons, List.mem_singleton] at hd
      obtain rfl | rfl := hd
      · exact .string _ _
      · exact directDependency_namedManifest
  products := List.forall_mem_nil _
  references := List.forall_mem_nil _

/-- Among dependencies a name is followed to the end, and the unfolded manifest describes the
same. -/
theorem package?_unfold_named :
    namedManifest.constants.Acyclic ∧ namedManifest.IsDirect ∧
      (namedManifest.unfold.package? default).map Package.withoutLines =
        .ok ⟨"App", default,
          [⟨"App", .library, [.bare "Core", .ofProduct "Kit" (some "kit")], none⟩],
          [], []⟩ := by
  refine ⟨acyclic_namedManifest, isDirect_namedManifest, ?_⟩
  rw [package?_unfold namedManifest default acyclic_namedManifest isDirect_namedManifest,
    ← dependencies_namedManifest default]
  rfl

/-- A manifest whose package has the name of a name for a text. -/
def aliasManifest : Manifest where
  constants := [⟨"a", .string "X" default, none⟩, ⟨"b", .reference "a" default, none⟩]
  call := some ⟨[(some "name", .reference "b" default)], default⟩
  clean := []

/-- A manifest whose targets are declared with their type by the name of an array. -/
def typedManifest : Manifest where
  constants :=
    [⟨"base", .array [.call "target" [(some "name", .string "A" default)] default] default, none⟩,
      ⟨"targets", .reference "base" default, some "Target"⟩]
  call := some ⟨[(some "name", .string "X" default)], default⟩
  clean := []

/-- A manifest of a target whose dependencies are the result of a call on an array, or on its
name. -/
def helperManifest (argument : Term) : Manifest where
  constants := [⟨"base", .array [.string "A" default] default, none⟩]
  call := some ⟨[(some "name", .string "X" default), (some "targets", .array [.call "target"
    [(some "name", .string "T" default), (some "dependencies",
      .array [.call "optional" [(none, argument)] default] default)] default] default)], default⟩
  clean := []

/-- In the example with an alias no constant refers to itself. -/
lemma acyclic_aliasManifest : aliasManifest.constants.Acyclic := by
  refine Constants.acyclic_of_rank (fun name => if name = "b" then 1 else 0) ?_
  simp [aliasManifest]

/-- In the example with typed arrays no constant refers to itself. -/
lemma acyclic_typedManifest : typedManifest.constants.Acyclic := by
  refine Constants.acyclic_of_rank (fun name => if name = "targets" then 1 else 0) ?_
  simp [typedManifest]

/-- In the example with a helper no constant refers to itself. -/
lemma acyclic_helperManifest (argument : Term) : (helperManifest argument).constants.Acyclic := by
  refine Constants.acyclic_of_rank (fun _ => 0) ?_
  simp [helperManifest]

/-- The example with an alias, unfolded. -/
lemma unfold_aliasManifest : aliasManifest.unfold =
    ⟨[⟨"a", .string "X" default, none⟩, ⟨"b", .string "X" default, none⟩],
      some ⟨[(some "name", .string "X" default)], default⟩, []⟩ := by
  have hfirst : aliasManifest.constants.unfolded (.reference "a" default) =
      .string "X" default := by
    rw [Constants.unfolded_reference acyclic_aliasManifest (t := .string "X" default) rfl,
      Constants.unfolded_string]
  have hsecond : aliasManifest.constants.unfolded (.reference "b" default) =
      .string "X" default := by
    rw [Constants.unfolded_reference acyclic_aliasManifest (t := .reference "a" default) rfl,
      hfirst]
  change Manifest.mk [⟨"a", aliasManifest.constants.unfolded (.string "X" default), none⟩,
      ⟨"b", aliasManifest.constants.unfolded (.reference "a" default), none⟩]
    (some ⟨[(some "name", aliasManifest.constants.unfolded (.reference "b" default))], default⟩)
      [] = _
  rw [Constants.unfolded_string, hfirst, hsecond]

/-- The example with typed arrays, unfolded. -/
lemma unfold_typedManifest :
    let items := Term.array [.call "target" [(some "name", .string "A" default)] default] default
    typedManifest.unfold = ⟨[⟨"base", items, none⟩, ⟨"targets", items, some "Target"⟩],
      some ⟨[(some "name", .string "X" default)], default⟩, []⟩ := by
  intro items
  have hitems : typedManifest.constants.unfolded items = items := by
    simp [items, Constants.unfoldedArguments]
  have hname : typedManifest.constants.unfolded (.reference "base" default) = items := by
    rw [Constants.unfolded_reference acyclic_typedManifest (t := items) rfl, hitems]
  change Manifest.mk [⟨"base", typedManifest.constants.unfolded items, none⟩,
      ⟨"targets", typedManifest.constants.unfolded (.reference "base" default), some "Target"⟩]
    (some ⟨[(some "name", typedManifest.constants.unfolded (.string "X" default))], default⟩)
      [] = _
  rw [hitems, hname, Constants.unfolded_string]

/-- The example with a helper, unfolded. -/
lemma unfold_helperManifest (argument : Term) : (helperManifest argument).unfold =
    helperManifest ((helperManifest argument).constants.unfolded argument) := by
  change Manifest.mk
    [⟨"base",
      (helperManifest argument).constants.unfolded (.array [.string "A" default] default), none⟩]
    (some ⟨(helperManifest argument).constants.unfoldedArguments
      (helperManifest argument).arguments, default⟩) [] = _
  have harguments : (helperManifest argument).arguments = [(some "name", .string "X" default),
      (some "targets",
        .array [.call "target" [(some "name", .string "T" default), (some "dependencies",
        .array [.call "optional" [(none, argument)] default] default)] default] default)] := rfl
  rw [harguments]
  simp only [Constants.unfoldedArguments, List.map_cons, List.map_nil, Constants.unfolded_array,
    Constants.unfolded_call, Constants.unfolded_string]
  rfl

/-- The package has one target, with the dependencies that the call is understood to declare. -/
lemma package?_helperManifest (argument : Term) :
    ((helperManifest argument).package? default).map Package.withoutLines =
      .ok ⟨"X", default, [⟨"T", .library, (((helperManifest argument).reached
        (helperManifest argument).constants (.call "optional" [(none, argument)] default)).map
          (·.dependency)).map fun d => { d with line := none }, none⟩], [], []⟩ := by
  have hdependencies := dependencies_withoutLines (helperManifest argument) [(some "name",
    .string "T" default), (some "dependencies",
      .array [.call "optional" [(none, argument)] default] default)] default
  have hitems : (helperManifest argument).constants.itemsOf (Term.argument? [(some "name",
      .string "T" default),
      (some "dependencies", .array [.call "optional" [(none, argument)] default]
        default)] "dependencies") = [.call "optional" [(none, argument)] default] := rfl
  rw [hitems, List.flatMap_singleton] at hdependencies
  rw [← hdependencies]
  rfl

/-- Outside of dependencies a name for a name is not understood: where it is the name of the package
there is no package, and where it is the value of a constant with an element type there are no
targets. Below a call the name of an array is not understood. In each case the unfolded manifest
describes more. -/
theorem package?_unfold_alias :
    (∀ m ∈ [aliasManifest, typedManifest, helperManifest (.reference "base" default)],
        (m.constants.map (·.name)).Nodup ∧ m.constants.Acyclic) ∧
      (aliasManifest.package? default = .error .noName ∧
        aliasManifest.unfold.package? default = .ok ⟨"X", default, [], [], []⟩) ∧
      (typedManifest.package? default = .ok ⟨"X", default, [], [], []⟩ ∧
        typedManifest.unfold.package? default =
          .ok ⟨"X", default, [⟨"A", .library, [], none⟩], [], []⟩) ∧
      (((helperManifest (.reference "base" default)).package? default).map Package.withoutLines =
          .ok ⟨"X", default, [⟨"T", .library, [], none⟩], [], []⟩ ∧
        ((helperManifest (.reference "base" default)).unfold.package? default).map
          Package.withoutLines =
          .ok ⟨"X", default, [⟨"T", .library, [.bare "A"], none⟩], [], []⟩) ∧
      ¬ ∀ (m : Manifest) (root : Path), (m.constants.map (·.name)).Nodup →
        m.constants.Acyclic →
        (m.unfold.package? root).map Package.withoutLines =
          (m.package? root).map Package.withoutLines := by
  have hfails : aliasManifest.package? default = .error .noName := rfl
  have hsucceeds : aliasManifest.unfold.package? default = .ok ⟨"X", default, [], [], []⟩ := by
    rw [unfold_aliasManifest]
    rfl
  have hlegal :
      ∀ m ∈ [aliasManifest, typedManifest, helperManifest (.reference "base" default)],
      (m.constants.map (·.name)).Nodup ∧ m.constants.Acyclic := by
    simp only [List.forall_mem_cons]
    exact ⟨⟨by decide, acyclic_aliasManifest⟩, ⟨by decide, acyclic_typedManifest⟩,
      ⟨by decide, acyclic_helperManifest _⟩, List.forall_mem_nil _⟩
  refine ⟨hlegal, ⟨hfails, hsucceeds⟩, ⟨rfl, ?typed⟩, ⟨?helper, ?unfolded⟩, ?false⟩
  case typed =>
    rw [unfold_typedManifest]
    rfl
  case helper =>
    rw [package?_helperManifest, reached_call]
    rfl
  case unfolded =>
    have hname : (helperManifest (.reference "base" default)).constants.unfolded
        (.reference "base" default) =
        .array [.string "A" default] default := by
      rw [Constants.unfolded_reference (acyclic_helperManifest _)
        (t := .array [.string "A" default] default) rfl]
      simp
    have hreached : ∀ rest, (helperManifest (.array [.string "A" default] default)).reached rest
        (.call "optional" [(none, .array [.string "A" default] default)] default) =
        [⟨.bare "A", none⟩] := by
      intro rest
      rw [reached_call]
      change (if true then _ else []) ++ [] = _
      rw [if_pos rfl, List.append_nil, reached_array, List.flatMap_singleton, reached]
    rw [unfold_helperManifest, hname, package?_helperManifest, hreached]
    rfl
  case false =>
    intro h
    obtain ⟨hnodup, hacyclic⟩ := hlegal aliasManifest (by simp)
    have hequal := h aliasManifest default hnodup hacyclic
    rw [hfails, hsucceeds] at hequal
    simp [Except.map] at hequal

end Manifest

end SwiftDependencies
