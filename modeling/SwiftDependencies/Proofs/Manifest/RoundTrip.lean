import Mathlib.Tactic.Common
import SwiftDependencies.Manifest.Reader
import SwiftDependencies.Proofs.Manifest.Bindings
import SwiftDependencies.Proofs.Manifest.Description
import SwiftDependencies.Proofs.Manifest.Preambles

/-!
# Reading back a declared package

A `PackageText` is the declaration of a constant `package` that is a call of `Package`, with all the
space between its tokens.  If its arguments write down a description, then reading its text by
sections gives the described package (`Reader.bySections_package`).

The proof follows the text: nothing but the package is declared (`PackageText.mem_constants`), and
the arguments are those of the one call of `Package` (`PackageText.package?_text`).
-/

namespace SwiftDependencies

open Source Source.Fragment

/-! ### Declarations of packages -/

/-- The word `let`. -/
def letWord : Word := ⟨"let".toList, by decide, List.all_eq_true.1 (by decide)⟩

/-- The name `package`. -/
def packageName : Identifier := ⟨"package".toList, by decide, List.all_eq_true.1 (by decide)⟩

/-- The name `Package`, of which the package is a call. -/
def packageCallee : Callee where
  chars := "Package".toList
  ne_nil := by decide
  joins := List.all_eq_true.1 (by decide)
  named := by decide

/-- The declaration of a package with some arguments, and the space between its tokens. -/
structure PackageText where
  before : Gap
  afterLet : Gap
  afterName : Gap
  afterSign : Gap
  afterCallee : Gap
  arguments : Row true
  after : Gap
  separates : afterLet ≠ []

namespace PackageText

/-- The call that constructs the package. -/
def call (t : PackageText) : Written :=
  .call packageCallee t.afterCallee t.arguments

/-- The lexemes of a declaration. -/
def lexemes (t : PackageText) : List Lexeme :=
  t.before.lexemes ++ (letWord.lexemes ++ (t.afterLet.lexemes ++ (packageName.toWord.lexemes ++
    (t.afterName.lexemes ++ .code '=' :: (t.afterSign.lexemes ++ (t.call.lexemes ++
      t.after.lexemes))))))

/-- The text of a declaration. -/
def text (t : PackageText) : List Char :=
  textOf t.lexemes

end PackageText

/-! ### The fragment of a declaration -/

namespace PackageText

variable (t : PackageText)

/-- What is in front of the value. -/
def heading : Heading :=
  ⟨none, letWord, t.afterLet, packageName, none, t.afterName, .inl rfl, t.separates⟩

/-- The text of a package is its parts in order. -/
lemma lexemes_eq : t.lexemes = t.before.lexemes ++ (t.heading.lexemes ++ (t.afterSign.lexemes ++
    (t.call.lexemes ++ t.after.lexemes))) := by
  simp only [lexemes, Heading.lexemes, Heading.front, heading, Access.lexemes, ArrayType.lexemes,
    List.nil_append, List.append_assoc, List.singleton_append]

/-- The text of a package is recovered from its characters. -/
lemma scansBefore : ScansBefore t.lexemes := by
  have hcall := t.call.scansBefore.append_before t.after.scans.scansBefore t.after.head?_textOf_ne
  rw [lexemes_eq]
  exact t.before.scans.append_before
    (t.heading.scans.append_before (t.afterSign.scans.append_before hcall))

/-- The line of the call. -/
def line : Nat :=
  1 + newlines t.before.lexemes + newlines t.heading.lexemes + newlines t.afterSign.lexemes

/-- The fragment of the value that is declared, and what follows it. -/
def value : Fragment :=
  glyphsFrom (1 + newlines t.before.lexemes + newlines t.heading.lexemes) 0 t.afterSign.lexemes ++
    (glyphsFrom t.line 0 t.call.lexemes ++
      glyphsFrom (t.line + newlines t.call.lexemes) 0 t.after.lexemes)

/-- The text of a package is scanned as what it is written with. -/
lemma glyphs_text : glyphs t.text = glyphsFrom 1 0 t.before.lexemes ++
    (glyphsFrom (1 + newlines t.before.lexemes) 0 t.heading.lexemes ++ t.value) := by
  rw [glyphs, text, lexemes_textOf t.scansBefore, lexemes_eq,
    glyphsFrom_append_of_balanced (balanced_gap _),
    glyphsFrom_append_of_balanced t.heading.balanced,
    glyphsFrom_append_of_balanced (balanced_gap _), glyphsFrom_append_of_balanced t.call.balanced]
  rfl

/-- The arguments of the constructed package are found. -/
lemma package?_text :
    ∃ l depth span, (package? false (glyphs t.text)) =
      some ⟨Fragment.sections (glyphsFrom l depth t.arguments.lexemes), span⟩ := by
  have hfound : t.call.package? t.line =
      some (t.line + newlines t.afterCallee.lexemes, t.arguments) := by
    rw [call, Written.package?, if_pos (show packageCallee.chars = "Package".toList from rfl)]
  have hends :=
    EndsName.append (allBlank_gap (t.line + newlines t.call.lexemes) 0 t.after) endsName_nil
  rw [List.append_nil] at hends
  have hcall := t.call.findsSections t.line 0 hends
  rw [hfound] at hcall
  obtain ⟨depth, span, hspan⟩ := hcall
  refine ⟨t.line + newlines t.afterCallee.lexemes, depth, span, ?_⟩
  rw [t.glyphs_text, package?_gap (allBlank_gap _ _ _), Heading.package?_append, value,
    package?_gap (allBlank_gap _ _ _), Bool.false_and]
  exact hspan

/-- Nothing is declared in the value. -/
lemma constants_value : constants false t.value = [] := by
  have hafter := allBlank_gap (t.line + newlines t.call.lexemes) 0 t.after
  have hend : Stops (glyphsFrom (t.line + newlines t.call.lexemes) 0 t.after.lexemes) := by
    rw [← List.append_nil (glyphsFrom _ _ t.after.lexemes)]
    exact .append hafter stops_nil
  obtain ⟨b, hb⟩ := constants_gap hafter declaration?_nil false
  rw [value,
    Written.constants_value t.afterSign _ _
      (t.call.declaration?_append t.line 0 fun _ _ => hend),
    ← List.append_nil (glyphsFrom (t.line + newlines t.call.lexemes) 0 t.after.lexemes), hb,
    constants_nil]

/-- Nothing is declared in the middle of the heading. -/
lemma constants_heading (line : Nat) :
    constants false (glyphsFrom line 0 t.heading.lexemes ++ t.value) = [] := by
  have hglyphs : glyphsFrom line 0 t.heading.lexemes ++ t.value =
      glyphsFrom line 0 letWord.lexemes ++ (glyphsFrom line 0 t.afterLet.lexemes ++
        (glyphsFrom (line + newlines t.afterLet.lexemes) 0 packageName.toWord.lexemes ++
          (glyphsFrom (line + newlines t.afterLet.lexemes) 0 t.afterName.lexemes ++
            ⟨'=', '=', line + newlines t.afterLet.lexemes + newlines t.afterName.lexemes, 0, 0⟩ ::
              t.value))) := by
    rw [Heading.lexemes, Heading.front, heading, Access.lexemes, ArrayType.lexemes, List.nil_append,
      List.nil_append, List.append_assoc, List.append_assoc, List.append_assoc,
      glyphsFrom_append_of_balanced (balanced_word _),
      glyphsFrom_append_of_balanced (balanced_gap _),
      glyphsFrom_append_of_balanced (balanced_word _),
      glyphsFrom_append_of_balanced (balanced_gap _),
      letWord.newlines_eq, packageName.toWord.newlines_eq]
    simp only [List.append_assoc, Nat.add_zero]
    rfl
  have hstops : Stops (glyphsFrom (line + newlines t.afterLet.lexemes) 0 t.afterName.lexemes ++
      ⟨'=', '=', line + newlines t.afterLet.lexemes + newlines t.afterName.lexemes, 0,
        0⟩ :: t.value) :=
    .append (allBlank_gap _ _ _) (stops_of_sign (c := '=') rfl (by decide) rfl)
  obtain ⟨b, hb⟩ := constants_gap (allBlank_gap line 0 t.afterLet)
    (declaration?_name (packageName.toWord.glyphsFrom_ne_nil _ _)
      (by simpa using packageName.toWord.joins) hstops) false
  obtain ⟨e, he⟩ := constants_gap (allBlank_gap (line + newlines t.afterLet.lexemes)
    0 t.afterName)
    (declaration?_sign (f := t.value) ⟨'=', '=', line + newlines t.afterLet.lexemes +
      newlines t.afterName.lexemes, 0, 0⟩ (by simp [signs]) (by simp)) false
  rw [hglyphs, letWord.constants_append _ _ (by simp), hb,
    packageName.toWord.constants_append _ _ fun _ => hstops, he,
    constants_sign _ (by simp [signs]) (by simp) (by simp), t.constants_value]

/-- Nothing but the package is declared. -/
lemma mem_constants {c : Constant} (h : c ∈ constants true (glyphs t.text)) :
    c.name = "package" ∧ c.elementType = none := by
  have hequals := t.call.avoids not_isFirst_equals rfl
    (allBlank_gap (1 + newlines t.before.lexemes + newlines t.heading.lexemes) 0 t.afterSign)
    t.line 0 (glyphsFrom (t.line + newlines t.call.lexemes) 0 t.after.lexemes)
  obtain ⟨typeText, hdeclaration, htype⟩ :=
    t.heading.declaration?_append (1 + newlines t.before.lexemes) hequals
  rw [t.glyphs_text] at h
  have hc := mem_constants_gap (allBlank_gap _ _ _) hdeclaration t.constants_value
    (t.constants_heading _) h
  rw [htype] at hc
  exact hc

end PackageText

/-- Reading back a text that declares a described package gives the package, but for the lines on
which its dependencies are found. -/
theorem Reader.bySections_package (d : PackageDescription) (t : PackageText) (root : Path)
    (h : d.IsWrittenIn t.arguments) :
    (Reader.bySections t.text root).map Package.withoutLines = .ok (d.package root) := by
  obtain ⟨l, depth, span, hpackage⟩ := t.package?_text
  refine h.package? _ l root (fun c hc => t.mem_constants hc) fun label hl => ?_
  have hcall : (Manifest.ofSections t.text).arguments =
      Fragment.sections (glyphsFrom l depth t.arguments.lexemes) := by
    rw [Manifest.arguments, Manifest.ofSections]
    simp only [hpackage]
    rfl
  rw [hcall, argument?_sections _ hl,
    t.arguments.section?_glyphsFrom (isKeyword_sectionLabels label hl)]

/-! ### A declaration of a package -/

/-- The name with some characters. -/
def Identifier.of (name : String)
    (starts : (name.toList.head?.any Text.isNameStart) = true := by decide)
    (ascii : name.toList.all Text.isAsciiWord = true := by decide) : Identifier :=
  ⟨name.toList, starts, fun c hc => by simp [Text.isWord, List.all_eq_true.1 ascii c hc]⟩

/-- Letters, digits and dots go on with names. -/
lemma joinsName_of_isAsciiWord {c : Char} (h : (c == '.' || Text.isAsciiWord c) = true) :
    joinsName c = true := by
  rcases Bool.or_eq_true _ _ ▸ h with h | h
  · simp [joinsName, h]
  · exact joinsName_of_isWord (by simp [Text.isWord, h])

/-- The callee with some characters. -/
def Callee.of (name : String) (ne_nil : name.toList ≠ [] := by decide)
    (ascii : name.toList.all (fun c => c == '.' || Text.isAsciiWord c) = true := by decide)
    (named : ((name.toList.drop (if name.toList.head? == some '.' then 1 else 0)).head?.any
      Text.isNameStart) = true := by decide) : Callee :=
  ⟨⟨name.toList, ne_nil,
    fun c hc => joinsName_of_isAsciiWord (List.all_eq_true.1 ascii c hc)⟩, named⟩

/-- The text with some characters. -/
def PlainText.of (value : String) (ne_empty : value ≠ "" := by decide)
    (plain : value.toList.all (fun c => !(c == '"' || c == '\\' || c == '\n')) =
      true := by decide) :
    PlainText :=
  ⟨value, ne_empty, fun c hc => by simpa [and_assoc] using List.all_eq_true.1 plain c hc⟩

/-- The type of an array of elements with a name. -/
def ArrayType.of (element : String)
    (ascii : element.toList.all (fun c => c == '.' || Text.isAsciiWord c) = true := by decide) :
    ArrayType :=
  have hjoins : ∀ c ∈ element.toList, joinsName c = true := fun c hc =>
    joinsName_of_isAsciiWord (List.all_eq_true.1 ascii c hc)
  ⟨[], [' '], element.toList, by simp, fun c hc => .inl (hjoins c hc),
    balanced_of_inline (fun c hc => .inr (.inl (hjoins c hc))) fun _ _ => trivial⟩

/-- The literal of a text. -/
def PlainText.written (text : PlainText) : Written :=
  .literal (quoted text.value.toList) (.quoted (.of_forall text.plain))

/-- One space. -/
def oneSpace : Gap := [.blank ' ' (by decide)]

/-- An item on a line of its own. -/
def Entry.unlabelled {labelled : Bool} (value : Written) : Entry labelled :=
  .mk [.blank '\n' (by decide)] none value [] (by simp)

/-- An argument with a label. -/
def Entry.argument (name : Identifier) (value : Written) : Entry true :=
  .mk oneSpace (some ⟨name, [], oneSpace⟩) value [] (fun _ => rfl)

/-- A row of some items, without a comma at its end. -/
def Row.of {labelled : Bool} : List (Entry labelled) → Row labelled
  | [] => .empty []
  | [entry] => .last entry
  | entry :: entries => .more entry (Row.of entries)

/-- A package with a target that depends on a target and on a product. -/
def appDescription : PackageDescription where
  name := .of "App"
  targets := [⟨.of "Core", .library, some (.of "src"),
    [.text (.of "Util"), .product (.of "NIO") (some (.of "nio"))]⟩]
  products := [⟨.of "Lib", .library, [.of "Core"]⟩]
  references := [⟨.url (.of "git@host:nio"), none⟩]

/-- A declaration of that package, with a condition on the product, a comma at the end, and a
comment of brackets and quotes. -/
def appText : PackageText where
  before := []
  afterLet := oneSpace
  afterName := oneSpace
  afterSign := oneSpace
  afterCallee := []
  arguments := .more (.argument (.of "name") (PlainText.of "App").written)
    (.more (.mk [.line "targets: [\"".toList (by decide)] (some ⟨.of "targets", [], oneSpace⟩)
      (.array (.of [.unlabelled (.call (.of ".target") [] (.of
        [.argument (.of "name") (PlainText.of "Core").written,
          .argument (.of "path") (PlainText.of "src").written,
          .argument (.of "dependencies") (.array (.of
            [.unlabelled (PlainText.of "Util").written,
              .unlabelled (.call (.of ".product") [] (.of
                [.argument (.of "name") (PlainText.of "NIO").written,
                  .argument (.of "package") (PlainText.of "nio").written,
                  .argument (.of "condition") (.call (.of ".when") [] (.of
                    [.argument (.of "platforms") (.array (.of
                      [.unlabelled (.word (Callee.of ".linux").toWord)]))]))]))]))]))]))
      [] (fun _ => rfl))
    (.more (.argument (.of "products")
      (.array (.of [.unlabelled (.call (.of "Product.library") [] (.of
        [.argument (.of "name") (PlainText.of "Lib").written,
          .argument (.of "targets")
            (.array (.of [.unlabelled (PlainText.of "Core").written]))]))])))
    (.more (.argument (.of "dependencies") (.array (.of [.unlabelled (.call (.of ".package") [] (.of
      [.argument (.of "url") (PlainText.of "git@host:nio").written,
        .argument (.of "from") (PlainText.of "2.0.0").written]))])))
    (.empty []))))
  after := [.block "]*/".toList (.char (by decide) (by decide) .last)]
  separates := by simp [oneSpace]

/-- The arguments of the example are a way to write its description. -/
lemma appDescription_isWrittenIn : appDescription.IsWrittenIn appText.arguments := by
  refine ⟨⟨_, rfl, _, rfl⟩, .inr ⟨_, rfl, ?targets⟩, .inr ⟨_, rfl, ?products⟩,
    .inr ⟨_, rfl, ?references⟩⟩
  case targets =>
    refine .cons ⟨_, ⟨_, .inr ⟨[], rfl⟩, _, rfl⟩, ⟨_, rfl, _, rfl⟩,
      ⟨_, rfl, _, rfl⟩, .inr ⟨_, rfl, ?_⟩⟩ .nil
    refine .cons ⟨_, rfl⟩ (.cons ?_ .nil)
    exact ⟨_, ⟨_, .inr ⟨[], rfl⟩, _, rfl⟩, ⟨_, rfl, _, rfl⟩, ⟨_, rfl, _, rfl⟩⟩
  case products =>
    refine .cons ⟨_, ⟨_, .inr ⟨"Product".toList, rfl⟩, _, rfl⟩, ⟨_, rfl, _, rfl⟩,
      .inr ⟨_, rfl, ?_⟩⟩ .nil
    exact .cons ⟨_, rfl⟩ .nil
  case references =>
    refine .cons ⟨_, ⟨_, .inr ⟨[], rfl⟩, _, rfl⟩, ?_, rfl⟩ .nil
    exact ⟨_, rfl, _, rfl⟩

/-- The declaration is read as the package. -/
theorem Reader.bySections_app :
    appDescription.IsWrittenIn appText.arguments ∧
      (Reader.bySections appText.text default).map Package.withoutLines =
        .ok (appDescription.package default) :=
  ⟨appDescription_isWrittenIn,
    Reader.bySections_package appDescription appText default appDescription_isWrittenIn⟩

/-! ### The targets as a constant

A package may also refer to a constant for its targets, which is declared in front of it. -/

/-- The word for what is visible to all. -/
def publicWord : Word := ⟨"public".toList, by decide, List.all_eq_true.1 (by decide)⟩

/-- The targets of a package, as a constant. -/
def targetsBinding : Binding where
  heading := ⟨none, letWord, oneSpace, .of "all", some (.of "Target"), oneSpace, .inl rfl,
    by simp [oneSpace]⟩
  afterSign := oneSpace
  value := .array (.of [.mk [] none (.call (.of ".target") [] (.of
    [.mk [] (some ⟨.of "name", [], oneSpace⟩) (PlainText.of "Core").written [] fun _ => rfl]))
      [] (by simp)])
  joined := by simp

/-- The package with these targets. -/
def packageBinding : Binding where
  heading := ⟨some ⟨publicWord, oneSpace, ⟨"public", by decide, rfl⟩, by simp [oneSpace]⟩,
    letWord, oneSpace, packageName, none, oneSpace, .inl rfl, by simp [oneSpace]⟩
  afterSign := oneSpace
  value := .call packageCallee [] (.of
    [.mk [] (some ⟨.of "name", [], oneSpace⟩) (PlainText.of "App").written [] fun _ => rfl,
      .argument (.of "targets") (.word (Identifier.of "all").toWord)])
  joined := by
    rintro _ _ _ ⟨⟩
    rfl

/-- The two of them, with a comment after the first. -/
def appBindings : Bindings true :=
  .more [] (.inl ⟨rfl, by simp [Gap.lexemes]⟩) targetsBinding
    (.more (oneSpace ++ [.line " all".toList (by decide)])
      (.inr ⟨List.replicate 7 ' ', [], rfl, by simp⟩)
      packageBinding (.none ⟨[.blank '\n' (by decide)], none, by simp⟩))

end SwiftDependencies
