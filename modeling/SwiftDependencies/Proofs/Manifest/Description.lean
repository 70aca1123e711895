import Mathlib.Tactic.Common
import SwiftDependencies.Proofs.Manifest.Initializer
import SwiftDependencies.Proofs.Source.Escaping
import SwiftDependencies.Proofs.Text.Pieces

/-!
# Described packages

A description says what a package consists of, and `PackageDescription.IsWrittenIn` says which
arguments of the constructor of packages write it down: every way to call the constructors of the
manifest language with the described values, with further arguments, blanks and comments wherever
they may stand.

There is one lemma for each part of a description, which says what its term is read as.  Each of
them needs the arguments of its call only through `Row.argument?`.  Together they say which package
such arguments are read as (`PackageDescription.IsWrittenIn.package?`).
-/

namespace SwiftDependencies

open Source Source.Fragment

/-! ### Descriptions -/

/-- A text that a description may contain: it is not empty, and its literal has no escapes. -/
structure PlainText where
  value : String
  ne_empty : value ≠ ""
  plain : ∀ c ∈ value.toList, c ≠ '"' ∧ c ≠ '\\' ∧ c ≠ '\n'

/-- The forms in which a target declares a dependency. -/
inductive DependencyDescription where
  | text (name : PlainText)
  | target (name : PlainText)
  | byName (name : PlainText)
  | product (name : PlainText) (package : Option PlainText)

/-- A target as it is described. -/
structure TargetDescription where
  name : PlainText
  kind : TargetKind
  path : Option PlainText
  dependencies : List DependencyDescription

/-- A product as it is described. -/
structure ProductDescription where
  name : PlainText
  kind : ProductKind
  targets : List PlainText

/-- Where a referenced package comes from. -/
inductive Origin where
  | url (address : PlainText)
  | path (location : PlainText)
  | id (identifier : PlainText)

/-- A reference to another package as it is described. -/
structure ReferenceDescription where
  origin : Origin
  name : Option PlainText

/-- A package as it is described. -/
structure PackageDescription where
  name : PlainText
  targets : List TargetDescription
  products : List ProductDescription
  references : List ReferenceDescription

/-! ### The described package -/

/-- The dependency that is described, without a line. -/
def DependencyDescription.dependency : DependencyDescription → Dependency
  | .text name | .target name | .byName name => .bare name.value
  | .product name package => .ofProduct name.value (package.map (·.value))

/-- The target that is described. -/
def TargetDescription.target (d : TargetDescription) : Target :=
  ⟨d.name.value, d.kind, d.dependencies.map (·.dependency), d.path.map (·.value)⟩

/-- The product that is described, in a package. -/
def ProductDescription.product (package : String) (d : ProductDescription) : Product :=
  ⟨d.name.value, d.kind, d.targets.map (·.value), package⟩

/-- The reference that is described.  Without a name of its own it has the name that its origin ends
with. -/
def ReferenceDescription.reference (d : ReferenceDescription) : PackageReference :=
  match d.origin with
  | .url address =>
    ⟨(d.name.map (·.value)).getD (Manifest.nameOfAddress address.value), address.value, false⟩
  | .path location =>
    ⟨(d.name.map (·.value)).getD (Manifest.nameOfPath location.value), location.value, true⟩
  | .id identifier =>
    ⟨(d.name.map (·.value)).getD (Manifest.nameOfIdentifier identifier.value),
      identifier.value, false⟩

/-- The package that is described, in a directory. -/
def PackageDescription.package (root : Path) (d : PackageDescription) : Package where
  name := d.name.value
  root := root
  targets := d.targets.map (·.target)
  products := d.products.map (·.product d.name.value)
  references := d.references.map (·.reference)

/-- A target without the lines of its dependencies. -/
def Target.withoutLines (t : Target) : Target :=
  { t with dependencies := t.dependencies.map fun d => { d with line := none } }

/-- A package without the lines of its dependencies. -/
def Package.withoutLines (p : Package) : Package :=
  { p with targets := p.targets.map Target.withoutLines }

/-! ### Texts of descriptions -/

/-- The value of an item. -/
def Entry.value {labelled : Bool} : Entry labelled → Written
  | .mk _ _ value _ _ => value

/-- The values of a row. -/
def Row.values {labelled : Bool} : Row labelled → List Written
  | .empty _ => []
  | .last entry => [entry.value]
  | .more entry rest => entry.value :: rest.values

/-- Whether an argument has a label. -/
def Entry.hasLabel {labelled : Bool} (label : String) : Entry labelled → Bool
  | .mk _ l _ _ _ => l.any fun l => l.name.chars == label.toList

/-- The first argument with a label. -/
def Row.argument? {labelled : Bool} (label : String) : Row labelled → Option Written
  | .empty _ => none
  | .last entry => if entry.hasLabel label then some entry.value else none
  | .more entry rest => if entry.hasLabel label then some entry.value else rest.argument? label

/-- Whether an expression is the literal of a text. -/
def Written.IsText (text : PlainText) (w : Written) : Prop :=
  ∃ h, w = .literal (quoted text.value.toList) h

/-- Whether a dotted name is a name or ends with it. -/
def Word.EndsWith (name : String) (w : Word) : Prop :=
  w.chars = name.toList ∨ ∃ qualifier, w.chars = qualifier ++ '.' :: name.toList

/-- Whether an expression is a call of something with some arguments. -/
def Written.IsCall (name : String) (arguments : Row true) (w : Written) : Prop :=
  ∃ callee : Callee, callee.EndsWith name ∧ ∃ gap, w = .call callee gap arguments

/-- Whether the argument with a label is a text. -/
def Row.HasText (label : String) (text : PlainText) (r : Row true) : Prop :=
  ∃ w, r.argument? label = some w ∧ w.IsText text

/-- Whether the argument with a label is a text, or there is none if there is no text. -/
def Row.HasText? (label : String) (text : Option PlainText) (r : Row true) : Prop :=
  match text with
  | none => r.argument? label = none
  | some text => r.HasText label text

/-- Whether the argument with a label is an array that writes some things one by one.  Of no things
there need not be an argument. -/
def Row.HasArray {α : Type} (label : String) (writes : α → Written → Prop) (xs : List α)
    (r : Row true) : Prop :=
  (xs = [] ∧ r.argument? label = none) ∨
    ∃ items, r.argument? label = some (.array items) ∧ List.Forall₂ writes xs items.values

/-- Whether an expression declares a described dependency. -/
def DependencyDescription.IsWrittenAs (d : DependencyDescription) (w : Written) : Prop :=
  match d with
  | .text name => w.IsText name
  | .target name => ∃ r, w.IsCall "target" r ∧ r.HasText "name" name
  | .byName name => ∃ r, w.IsCall "byName" r ∧ r.HasText "name" name
  | .product name package =>
    ∃ r, w.IsCall "product" r ∧ r.HasText "name" name ∧ r.HasText? "package" package

/-- Whether an expression declares a described target. -/
def TargetDescription.IsWrittenAs (d : TargetDescription) (w : Written) : Prop :=
  ∃ r, w.IsCall d.kind.constructor r ∧ r.HasText "name" d.name ∧ r.HasText? "path" d.path ∧
    r.HasArray "dependencies" DependencyDescription.IsWrittenAs d.dependencies

/-- Whether an expression declares a described product. -/
def ProductDescription.IsWrittenAs (d : ProductDescription) (w : Written) : Prop :=
  ∃ r, w.IsCall d.kind.name r ∧ r.HasText "name" d.name ∧
    r.HasArray "targets" (fun text w => w.IsText text) d.targets

/-- Whether arguments give a described origin, and none that counts before it. -/
def Origin.IsWrittenIn (r : Row true) : Origin → Prop
  | .url address => r.HasText "url" address
  | .path location => r.HasText "path" location ∧ r.argument? "url" = none
  | .id identifier =>
    r.HasText "id" identifier ∧ r.argument? "url" = none ∧ r.argument? "path" = none

/-- Whether an expression declares a described reference. -/
def ReferenceDescription.IsWrittenAs (d : ReferenceDescription) (w : Written) : Prop :=
  ∃ r, w.IsCall "package" r ∧ d.origin.IsWrittenIn r ∧ r.HasText? "name" d.name

/-- Whether the arguments of a package say what is described. -/
def PackageDescription.IsWrittenIn (d : PackageDescription) (r : Row true) : Prop :=
  r.HasText "name" d.name ∧
    r.HasArray "targets" TargetDescription.IsWrittenAs d.targets ∧
    r.HasArray "products" ProductDescription.IsWrittenAs d.products ∧
    r.HasArray "dependencies" ReferenceDescription.IsWrittenAs d.references

/-! ### Terms of arguments -/

/-- The terms of a row are those of its values. -/
lemma Row.items_eq_values {labelled : Bool} (r : Row labelled) (line : Nat) :
    List.Forall₂ (fun w a => ∃ l, a.2 = w.term l) r.values (r.items line) := by
  match r with
  | .empty gap => exact .nil
  | .last (.mk before label value after h) => exact .cons ⟨_, rfl⟩ .nil
  | .more (.mk before label value after h) rest => exact .cons ⟨_, rfl⟩ (rest.items_eq_values _)

/-- An item has the label that is written in front of it. -/
lemma Entry.label_item (e : Entry true) (line : Nat) (label : String) :
    ((e.item line).1 == some label) = e.hasLabel label := by
  obtain ⟨before, l, value, after, h⟩ := e
  cases l with
  | none => rfl
  | some l =>
    rw [Bool.eq_iff_iff]
    simp only [Entry.item, Entry.hasLabel, Option.map_some, Option.any_some, beq_iff_eq,
      Option.some.injEq]
    constructor
    · rintro rfl
      simp
    · intro heq
      rw [heq, String.ofList_toList]

/-- The term of an argument is that of its value. -/
lemma Row.argument?_items (r : Row true) (line : Nat) (label : String) :
    ∃ l, Term.argument? (r.items line) label = (r.argument? label).map (Written.term l) := by
  match r with
  | .empty gap => exact ⟨0, by simp [Row.items, Row.argument?, Term.argument?]⟩
  | .last entry =>
    obtain ⟨before, l, value, after, h⟩ := entry
    refine ⟨line + newlines before.lexemes + newlines (Label.lexemes l), ?_⟩
    rw [Row.items, Term.argument?, List.find?_cons, Entry.label_item, Row.argument?]
    split <;> simp_all [Entry.item, Entry.value]
  | .more entry rest =>
    obtain ⟨tail, htail⟩ := rest.argument?_items (line + newlines entry.lexemes) label
    rw [Row.items, Term.argument?, List.find?_cons, Entry.label_item, Row.argument?]
    cases hl : entry.hasLabel label with
    | false => exact ⟨tail, htail⟩
    | true =>
      obtain ⟨before, l, value, after, h⟩ := entry
      exact ⟨line + newlines before.lexemes + newlines (Label.lexemes l), rfl⟩

/-! ### Readings of texts -/

/-- A text with no quote and no backslash is a body that says itself. -/
lemma literalValue?_quoted {cs : List Char}
    (hplain : ∀ c ∈ cs, c ≠ '"' ∧ c ≠ '\\' ∧ c ≠ '\n') :
    literalValue? (quoted cs) = some cs := by
  have hhead : cs.head? ≠ some '"' := fun h => (hplain '"' (List.mem_of_head? h)).1 rfl
  have hescape : interpolates cs = false ∧ unescape cs = cs := by
    clear hhead
    induction cs with
    | nil => exact ⟨rfl, rfl⟩
    | cons c cs ih =>
      obtain ⟨hi, hu⟩ := ih fun d hd => hplain d (List.mem_cons_of_mem _ hd)
      have hc : c ≠ '\\' := (hplain c List.mem_cons_self).2.1
      constructor
      · rw [← Bool.not_eq_true, interpolates_cons, not_or, Bool.not_eq_true]
        exact ⟨fun h => hc h.1, hi⟩
      · rw [unescape, hu]
        · rintro rfl
          exact absurd rfl hc
        · rintro d ds rfl
          exact absurd rfl hc
  rw [literalValue?_quoted_eq hhead, hescape.1, hescape.2, if_neg Bool.false_ne_true]

/-- The term of a literal is its text. -/
lemma Written.IsText.term {text : PlainText} {w : Written} (h : w.IsText text) (line : Nat) :
    w.term line = .string text.value ⟨line, line⟩ := by
  obtain ⟨hl, rfl⟩ := h
  rw [Written.term, literalValue?_quoted text.plain]
  simp

/-! ### Readings of names -/

/-- The names that end a callee are words. -/
def IsConstructor (name : String) : Prop :=
  ∀ c ∈ name.toList, Text.isWord c = true

instance (name : String) : Decidable (IsConstructor name) :=
  decidable_of_iff (name.toList.all Text.isWord = true) List.all_eq_true

/-- The last part of a callee is the name that it ends with. -/
lemma Word.EndsWith.lastPart {name : String} {w : Word} (hname : IsConstructor name)
    (h : w.EndsWith name) : Term.lastPart (String.ofList w.chars) = name := by
  have hdot : ∀ c ∈ name.toList, (c == '.') = false := by
    intro c hc
    rw [beq_eq_false_iff_ne]
    rintro rfl
    have hword := hname _ hc
    rw [isWord_dot] at hword
    exact absurd hword (by decide)
  have hends : Text.EndsIn (· == '.') w.chars name.toList :=
    ⟨hdot, h.imp_right fun ⟨qualifier, hchars⟩ => ⟨qualifier, '.', rfl, hchars⟩⟩
  have hlast : Text.lastPiece (· == '.') (String.ofList w.chars) = name := by
    rwa [Text.lastPiece_eq_iff, String.toList_ofList]
  rw [Term.lastPart, trim_of_joins w.joins, hlast, Text.trim,
    dropMargins_of_joins fun c hc => joinsName_of_isWord (hname c hc), String.ofList_toList]

/-- The term of a call of a constructor. -/
lemma Written.IsCall.term {name : String} {r : Row true} {w : Written} (hname : IsConstructor name)
    (h : w.IsCall name r) (line : Nat) : ∃ l span, w.term line = .call name (r.items l) span := by
  obtain ⟨callee, hends, gap, rfl⟩ := h
  exact ⟨_, _, by rw [Written.term, hends.lastPart hname]⟩

/-! ### Readings of arguments -/

section Readings

variable (m : Manifest) {r : Row true} {label : String}

/-- The text of an argument is read. -/
lemma Row.HasText.text? {text : PlainText} (h : r.HasText label text) (line : Nat) :
    m.text? (r.items line) label = some text.value := by
  obtain ⟨w, hw, htext⟩ := h
  obtain ⟨l, hl⟩ := r.argument?_items line label
  rw [Manifest.text?, hl, hw, Option.map_some, htext.term]
  rfl

/-- The text of an argument is not empty, and so it is read where an empty one would not count. -/
lemma Row.HasText.nonemptyText? {text : PlainText} (h : r.HasText label text) (line : Nat) :
    m.nonemptyText? (r.items line) label = some text.value := by
  rw [Manifest.nonemptyText?, h.text?]
  simp [text.ne_empty]

/-- Without an argument no text is read. -/
lemma Row.text?_of_none (h : r.argument? label = none) (line : Nat) :
    m.text? (r.items line) label = none := by
  obtain ⟨l, hl⟩ := r.argument?_items line label
  rw [Manifest.text?, hl, h]
  rfl

/-- The text of an argument is read if there is one. -/
lemma Row.HasText?.text? {text : Option PlainText} (h : r.HasText? label text) (line : Nat) :
    m.text? (r.items line) label = text.map (·.value) := by
  cases text with
  | none => exact Row.text?_of_none m h line
  | some text => exact Row.HasText.text? m h line

/-- The text of an argument is read if there is one, also where an empty one would not count. -/
lemma Row.HasText?.nonemptyText? {text : Option PlainText} (h : r.HasText? label text)
    (line : Nat) :
    m.nonemptyText? (r.items line) label = text.map (·.value) := by
  cases text with
  | none => rw [Manifest.nonemptyText?, Row.text?_of_none m h]; rfl
  | some text => exact Row.HasText.nonemptyText? m h line

/-- An array is read item by item. -/
lemma Row.HasArray.itemsOf {α : Type} {writes : α → Written → Prop} {xs : List α}
    (h : r.HasArray label writes xs) (line : Nat) :
    List.Forall₂ (fun x t => ∃ w l, writes x w ∧ t = w.term l) xs
      (m.constants.itemsOf (Term.argument? (r.items line) label)) := by
  obtain ⟨l, hl⟩ := r.argument?_items line label
  rcases h with ⟨rfl, hnone⟩ | ⟨items, hsome, hwrites⟩
  · rw [hl, hnone]
    exact .nil
  · rw [hl, hsome]
    have hvalues := items.items_eq_values l
    have hitems : m.constants.itemsOf ((some (Written.array items)).map (Written.term l)) =
        (items.items l).map (·.2) := by
      rw [Option.map_some, Written.term]
      rfl
    rw [hitems]
    generalize items.values = values at hwrites hvalues
    generalize items.items l = terms at hvalues
    induction hwrites generalizing terms with
    | nil =>
      cases hvalues
      exact .nil
    | cons hx _ ih =>
      cases hvalues with
      | cons ht hrest =>
        obtain ⟨l, hl⟩ := ht
        exact .cons ⟨_, l, hx, hl⟩ (ih _ hrest)

/-! ### Readings of descriptions -/

/-- What one reads of the items of an array, item by item. -/
lemma filterMap_of_forall₂ {α β γ : Type} {R : α → β → Prop} {xs : List α}
    {ts : List β} (h : List.Forall₂ R xs ts) {f : β → Option γ} {g : α → γ}
    (hf : ∀ x t, R x t → f t = some (g x)) :
    ts.filterMap f = xs.map g := by
  induction h with
  | nil => rfl
  | cons hx _ ih => rw [List.filterMap_cons_some (hf _ _ hx), ih, List.map_cons]

/-- A described dependency is reached directly. -/
lemma DependencyDescription.IsWrittenAs.reached {d : DependencyDescription} {w : Written}
    (h : d.IsWrittenAs w) (rest : Constants) (line : Nat) :
    m.reached rest (w.term line) = [⟨d.dependency, none⟩] := by
  cases d with
  | text name =>
    rw [Written.IsText.term h, Manifest.reached]
    rfl
  | target name =>
    obtain ⟨r, hcall, hname⟩ := h
    obtain ⟨l, span, hterm⟩ := hcall.term (by decide) line
    rw [hterm, Manifest.reached_call, Manifest.declared?, hname.nonemptyText?]
    rfl
  | byName name =>
    obtain ⟨r, hcall, hname⟩ := h
    obtain ⟨l, span, hterm⟩ := hcall.term (by decide) line
    rw [hterm, Manifest.reached_call, Manifest.declared?, hname.nonemptyText?]
    rfl
  | product name package =>
    obtain ⟨r, hcall, hname, hpackage⟩ := h
    obtain ⟨l, span, hterm⟩ := hcall.term (by decide) line
    rw [hterm, Manifest.reached_call, Manifest.declared?, hname.nonemptyText?, hpackage.text?]
    rfl

/-- A described dependency has no line. -/
lemma DependencyDescription.line_dependency (d : DependencyDescription) :
    d.dependency.line = none := by
  cases d <;> rfl

/-- The dependencies of a described target, but for their lines. -/
lemma Row.HasArray.dependencies {ds : List DependencyDescription}
    (h : r.HasArray "dependencies" DependencyDescription.IsWrittenAs ds) (line : Nat)
    (span : Span) :
    ((m.dependencies (r.items line) span).map fun d => { d with line := none }) =
      ds.map (·.dependency) := by
  have hitems := h.itemsOf m line
  clear h
  rw [Manifest.dependencies]
  generalize m.constants.itemsOf (Term.argument? (r.items line) "dependencies") = terms at hitems
  induction hitems with
  | nil => rfl
  | @cons d t ds ts hd _ ih =>
    obtain ⟨w, l, hwritten, rfl⟩ := hd
    have hline : { d.dependency with line := none } = d.dependency := by
      rw [← d.line_dependency]
    rw [List.flatMap_cons, hwritten.reached, List.singleton_append, List.map_cons, List.map_cons,
      ih, List.map_cons]
    simp only [hline]

/-- The constructors of targets are words. -/
lemma isConstructor_targetKind (k : TargetKind) : IsConstructor k.constructor := by
  cases k <;> decide

/-- The constructors of products are words. -/
lemma isConstructor_productKind (k : ProductKind) : IsConstructor k.name := by
  cases k <;> decide

/-- A described target is read as such, but for the lines of its dependencies. -/
lemma TargetDescription.IsWrittenAs.target? {d : TargetDescription} {w : Written}
    (h : d.IsWrittenAs w) (line : Nat) :
    ∃ t, m.target? (w.term line) = some t ∧
      t.withoutLines = d.target := by
  obtain ⟨r, hcall, hname, hpath, hdependencies⟩ := h
  obtain ⟨l, span, hterm⟩ := hcall.term (isConstructor_targetKind d.kind) line
  refine ⟨⟨d.name.value, d.kind, m.dependencies (r.items l) span, d.path.map (·.value)⟩, ?_,
    ?_⟩
  · rw [hterm, Manifest.target?]
    simp only [Constants.resolve, TargetKind.ofConstructor?_constructor, hname.nonemptyText? m l,
      hpath.text? m l]
    rfl
  · simp only [Target.withoutLines, hdependencies.dependencies m l span]
    rfl

/-- A described product is read as such. -/
lemma ProductDescription.IsWrittenAs.product? {d : ProductDescription} {w : Written}
    (h : d.IsWrittenAs w) (package : String) (line : Nat) :
    m.product? package (w.term line) = some (d.product package) := by
  obtain ⟨r, hcall, hname, htargets⟩ := h
  obtain ⟨l, span, hterm⟩ := hcall.term (isConstructor_productKind d.kind) line
  have hmembers : ((m.constants.itemsOf (Term.argument? (r.items l) "targets")).filterMap
      m.constants.stringOf?).filter (· != "") = d.targets.map (·.value) := by
    have htexts := filterMap_of_forall₂ (htargets.itemsOf m l) (f := m.constants.stringOf?)
      (g := PlainText.value) (by
        rintro text t ⟨w, l, htext, rfl⟩
        rw [htext.term]
        rfl)
    rw [htexts, List.filter_eq_self]
    intro value hvalue
    obtain ⟨text, -, rfl⟩ := List.mem_map.1 hvalue
    simpa using text.ne_empty
  rw [hterm, Manifest.product?]
  simp only [Constants.resolve, ProductKind.ofConstructor?_name, hname.nonemptyText? m l, hmembers]
  rfl

/-- A described reference is read as such. -/
lemma ReferenceDescription.IsWrittenAs.reference? {d : ReferenceDescription} {w : Written}
    (h : d.IsWrittenAs w) (line : Nat) : m.reference? (w.term line) = some d.reference := by
  obtain ⟨r, hcall, horigin, hname⟩ := h
  obtain ⟨l, span, hterm⟩ := hcall.term (by decide) line
  have hname := hname.nonemptyText? m l
  have hnone {label : String} (h : r.argument? label = none) :
      m.nonemptyText? (r.items l) label = none := by
    rw [Manifest.nonemptyText?, Row.text?_of_none m h]
    rfl
  rw [hterm, Manifest.reference?]
  simp only [Constants.resolve, hname, ReferenceDescription.reference]
  cases ho : d.origin with
  | url address =>
    rw [ho] at horigin
    rw [Row.HasText.nonemptyText? m horigin l]
  | path location =>
    rw [ho] at horigin
    rw [hnone horigin.2, horigin.1.nonemptyText? m l]
  | id identifier =>
    rw [ho] at horigin
    rw [hnone horigin.2.1, hnone horigin.2.2, horigin.1.nonemptyText? m l]

/-- A manifest is read as the described package if its arguments say so and its constants do not
interfere. -/
lemma PackageDescription.IsWrittenIn.package? {d : PackageDescription} (h : d.IsWrittenIn r)
    (line : Nat) (root : Path)
    (hconstants : ∀ c ∈ m.constants, c.name = "package" ∧ c.elementType = none)
    (harguments : ∀ label ∈ sectionLabels,
      Term.argument? m.arguments label = Term.argument? (r.items line) label) :
    (m.package? root).map Package.withoutLines = .ok (d.package root) := by
  obtain ⟨hname, htargets, hproducts, hreferences⟩ := h
  have hfind : m.constants.string? "name" = none := by
    have hnone : m.constants.find? "name" = none := by
      rw [Constants.find?, Option.map_eq_none_iff, List.find?_eq_none]
      intro c hc
      simp [(hconstants c hc).1]
    rw [Constants.string?, hnone]
  have hnamed : m.name? = some d.name.value := by
    have htext := hname.text? m line
    rw [Manifest.text?, ← harguments "name" (by decide)] at htext
    rw [Manifest.name?, hfind, htext]
    rfl
  have htyped (elementType : String) : m.constants.itemsOfType? elementType = none := by
    have hnil : m.constants.filterMap (Constants.typedItems? elementType) = [] := by
      rw [List.filterMap_eq_nil_iff]
      intro c hc
      rw [Constants.typedItems?, (hconstants c hc).2]
      split <;> rfl
    simp [Constants.itemsOfType?, hnil]
  have hitems (label elementType : String) (hl : label ∈ sectionLabels) :
      m.itemsIn label elementType = m.constants.itemsOf (Term.argument? (r.items line) label) := by
    rw [Manifest.itemsIn, htyped, harguments label hl]
  have herased := filterMap_of_forall₂ (htargets.itemsOf m line)
    (f := fun t => (m.target? t).map Target.withoutLines) (g := TargetDescription.target) (by
      rintro d t ⟨w, l, hwritten, rfl⟩
      obtain ⟨t, ht, htarget⟩ := hwritten.target? m l
      rw [ht, Option.map_some, htarget])
  have hproduct := filterMap_of_forall₂ (hproducts.itemsOf m line)
    (f := m.product? d.name.value) (g := ProductDescription.product d.name.value) (by
      rintro d t ⟨w, l, hwritten, rfl⟩
      exact hwritten.product? m _ l)
  have hreference := filterMap_of_forall₂ (hreferences.itemsOf m line)
    (f := m.reference?) (g := ReferenceDescription.reference) (by
      rintro d t ⟨w, l, hwritten, rfl⟩
      exact hwritten.reference? m l)
  rw [Manifest.package?, hnamed]
  simp only [d.name.ne_empty, if_false, hitems "targets" "Target" (by decide),
    hitems "products" "Product" (by decide),
    hitems "dependencies" "Package.Dependency" (by decide), hproduct, hreference, Except.map,
    Package.withoutLines, List.map_filterMap, herased]
  rfl

end Readings

end SwiftDependencies
