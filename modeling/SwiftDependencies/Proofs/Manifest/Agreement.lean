import Mathlib.Data.List.Basic
import Mathlib.Tactic.Common
import SwiftDependencies.Proofs.Manifest.RoundTrip
import SwiftDependencies.Proofs.Program.Declarations

/-!
# Agreement of the readers

A manifest that consists of bindings, one of which holds a call of `Package`, is read by its
sections as it is read as a program (`Reader.asProgramBy_eq_bySections`), whatever the space in it
and whichever parser gives a tree that mirrors it.

Both readings have the same constants and the same clean text.  Their calls of `Package` differ in
the arguments that are not read, so the package that is described must not depend on these
(`Manifest.Agrees.package?_eq`).
-/

namespace SwiftDependencies

open Source Source.Fragment Program

/-! ### What a package depends on -/

namespace Manifest

/-- Whether two manifests have the same constants, the same clean text, and the same arguments where
these are read. -/
structure Agrees (m m' : Manifest) : Prop where
  constants : m.constants = m'.constants
  clean : m.clean = m'.clean
  arguments : ∀ label ∈ sectionLabels,
    Term.argument? m.arguments label = Term.argument? m'.arguments label

variable {m m' : Manifest}

/-- The text of an argument depends on the constants only. -/
lemma text?_congr (h : m.constants = m'.constants) : m.text? = m'.text? := by
  unfold text?
  rw [h]

/-- Whether that text is empty depends on the constants only. -/
lemma nonemptyText?_congr (h : m.constants = m'.constants) :
    m.nonemptyText? = m'.nonemptyText? := by
  unfold nonemptyText?
  rw [text?_congr h]

/-- A dependency that a call declares by its own name depends on the constants only. -/
lemma declared?_congr (h : m.constants = m'.constants) : m.declared? = m'.declared? := by
  unfold declared?
  rw [nonemptyText?_congr h, text?_congr h]

/-- The dependencies that a term declares depend on the constants alone. -/
lemma reached_congr (h : m.constants = m'.constants) (rest : Constants) (t : Term) :
    m.reached rest t = m'.reached rest t := by
  fun_induction m.reached rest t with
  | case1 rest value span => rw [reached]
  | case2 rest name span hnone =>
    rw [reached]
    split <;> rename_i heq
    · rfl
    · simp [hnone] at heq
  | case3 rest name span t hsome hlt ih =>
    rw [reached, ih]
    split <;> rename_i heq
    · simp [hsome] at heq
    · obtain rfl := Option.some.inj (hsome.symm.trans heq)
      rfl
  | case4 rest items span ih =>
    rw [reached_array, List.flatMap_subtype fun _ _ => rfl, List.unattach_attach]
    exact List.flatMap_congr ih
  | case5 rest callee arguments span d hd => rw [reached_call, ← declared?_congr h, hd]
  | case6 rest callee arguments span hnone ih =>
    rw [reached_call, ← declared?_congr h, hnone,
      List.flatMap_subtype (g := fun a => if a.2.isArray then m.reached rest a.2 else [])
        fun _ _ => rfl,
      List.unattach_attach]
    refine List.flatMap_congr fun a ha => ?_
    rw [ih a ha]
  | case7 rest text span => rw [reached]

/-- The dependencies of a target depend on the constants and the clean text only. -/
lemma dependencies_congr (h : m.constants = m'.constants) (hclean : m.clean = m'.clean) :
    m.dependencies = m'.dependencies := by
  have hreached : m.reached m'.constants = m'.reached m'.constants :=
    funext fun t => reached_congr h m'.constants t
  unfold dependencies
  rw [h, hclean, hreached]

/-- A target depends on the constants and the clean text only. -/
lemma target?_congr (h : m.constants = m'.constants) (hclean : m.clean = m'.clean) :
    m.target? = m'.target? := by
  unfold target?
  rw [h, nonemptyText?_congr h, text?_congr h, dependencies_congr h hclean]

/-- A product depends on the constants only. -/
lemma product?_congr (h : m.constants = m'.constants) : m.product? = m'.product? := by
  unfold product?
  rw [h, nonemptyText?_congr h]

/-- A reference depends on the constants only. -/
lemma reference?_congr (h : m.constants = m'.constants) : m.reference? = m'.reference? := by
  unfold reference?
  rw [h, nonemptyText?_congr h]

/-- The package that is described depends on nothing else. -/
theorem Agrees.package?_eq (h : m.Agrees m') (root : Path) :
    m.package? root = m'.package? root := by
  have hname : m.name? = m'.name? := by
    rw [name?, name?, h.constants, h.clean, h.arguments "name" (by decide)]
  have hitems (label elementType : String) (hl : label ∈ sectionLabels) :
      m.itemsIn label elementType = m'.itemsIn label elementType := by
    rw [itemsIn, itemsIn, h.constants, h.arguments label hl]
  rw [package?, package?, hname, hitems "targets" "Target" (by decide),
    hitems "products" "Product" (by decide), hitems "dependencies" "Package.Dependency" (by decide),
    target?_congr h.constants h.clean, product?_congr h.constants, reference?_congr h.constants]

end Manifest

/-! ### The two readings -/

/-- A manifest that consists of bindings, with a call of `Package`, is read as a program as it is
read by its sections. -/
theorem Reader.asProgramBy_eq_bySections {parser : Parser} {bs : Bindings true} {file : Node}
    (root : Path) (hparse : parser bs.text = some [file])
    (hfile : file.IsFile (bs.Mirrors bs.text 1)) (hpackage : (bs.package? 1).isSome = true) :
    Reader.asProgramBy parser bs.text root = Reader.bySections bs.text root := by
  obtain ⟨⟨line, row⟩, hfound⟩ := Option.isSome_iff_exists.1 hpackage
  obtain ⟨span, hcall⟩ := hfile.firstCallOf? fun ns hns => hfound ▸ hns.package?
  obtain ⟨depth, span', hsections⟩ := bs.package?_glyphsFrom 1 false hfound
  have hconstants : ([file].flatMap Node.parts).filterMap (Node.constant? bs.text) =
      bs.constants 1 := by
    rw [List.flatMap_singleton, Node.filterMap_constant?]
    exact hfile.declarations.constants
  have hprogram : Manifest.ofProgramBy parser bs.text =
      .ok ⟨bs.constants 1, some ⟨row.items line, span⟩, clean bs.text⟩ := by
    simp only [Manifest.ofProgramBy, hparse, hcall, hconstants]
  have hbySections : Manifest.ofSections bs.text =
      ⟨bs.constants 1, some ⟨Fragment.sections (glyphsFrom line depth row.lexemes), span'⟩,
        clean bs.text⟩ := by
    rw [Manifest.ofSections, bs.glyphs_text, bs.constants_glyphsFrom, hsections]
  have hagrees : Manifest.Agrees
      ⟨bs.constants 1, some ⟨row.items line, span⟩, clean bs.text⟩
      ⟨bs.constants 1, some ⟨Fragment.sections (glyphsFrom line depth row.lexemes), span'⟩,
        clean bs.text⟩ := by
    refine ⟨rfl, rfl, fun label hl => ?_⟩
    have hsection := argument?_sections (glyphsFrom line depth row.lexemes) hl
    rw [row.section?_glyphsFrom (isKeyword_sectionLabels label hl)] at hsection
    exact hsection.symm
  rw [asProgramBy, bySections, hprogram, hbySections, ← hagrees.package?_eq root]
  rfl

/-! ### A manifest of two bindings

The bindings are `appBindings`, of which a parser gives the tree `appNode`. -/

example : String.ofList appBindings.text = "let all: [Target] = [.target(name: \"Core\")] // all
public let package = Package(name: \"App\", targets: all)
" := by decide +kernel

namespace Program.Node

/-- A word or a sign on a line. -/
def wordOn (line start : Nat) (text : String) : Node :=
  .word (.word text.toList) ⟨start, start + text.length, ⟨line, line⟩⟩

/-- A phrase on a line. -/
def phraseOn (line start stop : Nat) (p : Phrase) (parts : List Node) : Node :=
  .phrase p parts ⟨start, stop, ⟨line, line⟩⟩

/-- A name on a line. -/
def nameOn (line start stop : Nat) : Node :=
  phraseOn line start stop .name [.word (.pattern .name) ⟨start, stop, ⟨line, line⟩⟩]

/-- A string literal on a line. -/
def literalOn (line start stop : Nat) : Node :=
  phraseOn line start stop .lineString [wordOn line start "\"",
    .word (.pattern .lineText) ⟨start + 1, stop - 1, ⟨line, line⟩⟩,
    wordOn line (stop - 1) "\""]

/-- An argument on a line. -/
def argumentOn (line start colon stop : Nat) (value : Node) : Node :=
  phraseOn line start stop .argument
    [phraseOn line start colon .argumentLabel [nameOn line start colon],
      wordOn line colon ":", value]

/-- A call on a line, with the signs at the start and the end of its arguments. -/
def callOn (line start stop : Nat) (callee : Node) (arguments : List Node) : Node :=
  phraseOn line start stop .functionCall [callee, phraseOn line callee.region.stop stop .callSuffix
    [phraseOn line callee.region.stop stop .valueArguments
      (wordOn line callee.region.stop "(" :: (arguments ++ [wordOn line (stop - 1) ")"]))]]

/-- The equals sign on a line. -/
def equalsOn (line start : Nat) : Node :=
  .word (.mark .equalsSign) ⟨start, start + 1, ⟨line, line⟩⟩

variable {source : List Char} {line start colon stop : Nat}

/-- A phrase whose parts are plain is a token with its own text. -/
lemma isToken_phraseOn {p : Phrase} {parts : List Node} {cs : List Char}
    (hchars : (phraseOn line start stop p parts).region.chars source = cs)
    (hcall : (phraseOn line start stop p parts).isCall = false)
    (h : ∀ part ∈ parts, part.IsPlain) :
    (phraseOn line start stop p parts).IsToken source p cs :=
  ⟨rfl, hchars, isPlain_of_parts hcall h⟩

/-- Words are plain. -/
@[simp] lemma isPlain_wordOn (text : String) : (wordOn line start text).IsPlain :=
  isPlain_word _ _

/-- Names are plain. -/
@[simp] lemma isPlain_nameOn : (nameOn line start stop).IsPlain :=
  isPlain_of_parts rfl (by simp [nameOn, phraseOn, parts])

/-- The node of a literal mirrors the literal that it spans. -/
lemma mirrors_literalOn {text : List Char} {h : LiteralText text}
    (hchars : (literalOn line start stop).region.chars source = text) :
    (Written.literal text h).Mirrors source line (literalOn line start stop) := by
  refine ⟨.inl rfl, isPlain_of_parts rfl (by simp [literalOn, phraseOn, parts]), ?_, ?_⟩
  · simpa [Lexeme.text] using hchars
  · rw [newlines_literal h]
    rfl

/-- A node with a name, a colon and a value is an argument with that label. -/
lemma isArgument_argumentOn {l : Label} {value : Node} {P : Node → Prop}
    (hchars : (source.drop start).take (colon - start) = l.name.chars)
    (hvalue : value.isComment = false) (h : P value) :
    (argumentOn line start colon stop value).IsArgument source (some l) P := by
  refine ⟨rfl, hasPlainComments_of_all ?_,
    phraseOn line start colon .argumentLabel [nameOn line start colon],
    wordOn line colon ":", value, ?_, rfl, hchars, ?_, rfl, h⟩
  · simp [argumentOn, phraseOn, parts, hvalue, wordOn]
    rfl
  · simp [argumentOn, phraseOn, essentialParts, parts, hvalue]
    exact ⟨rfl, rfl⟩
  · exact isPlain_of_parts rfl (by simp [phraseOn, parts])

end Program.Node

open Program.Node

/-- The call of the target of the package. -/
def targetNode : Node :=
  callOn 1 21 42
    (phraseOn 1 21 28 .prefixExpression [.word (.mark .dot) ⟨21, 22, ⟨1, 1⟩⟩, nameOn 1 22 28])
    [argumentOn 1 29 33 41 (literalOn 1 35 41)]

/-- The declaration of the targets. -/
def targetsNode : Node :=
  phraseOn 1 0 43 .propertyDeclaration
    [phraseOn 1 0 3 .bindingWord [wordOn 1 0 "let"], phraseOn 1 4 7 .boundPattern [nameOn 1 4 7],
      phraseOn 1 7 17 .typeClause [wordOn 1 7 ":", phraseOn 1 9 17 .arrayType
        [wordOn 1 9 "[", phraseOn 1 10 16 .namedType [nameOn 1 10 16], wordOn 1 16 "]"]],
      equalsOn 1 18, phraseOn 1 20 43 .arrayLiteral [wordOn 1 20 "[", targetNode, wordOn 1 42 "]"]]

/-- The declaration of the package. -/
def packageNode : Node :=
  phraseOn 2 51 106 .propertyDeclaration
    [phraseOn 2 51 57 .modifiers [phraseOn 2 51 57 .visibilityModifier [wordOn 2 51 "public"]],
      phraseOn 2 58 61 .bindingWord [wordOn 2 58 "let"],
      phraseOn 2 62 69 .boundPattern [nameOn 2 62 69], equalsOn 2 70,
      callOn 2 72 106 (nameOn 2 72 79) [argumentOn 2 80 84 91 (literalOn 2 86 91), wordOn 2 91 ",",
        argumentOn 2 93 100 105 (nameOn 2 102 105)]]

/-- The tree of the manifest, with the comment. -/
def appNode : Node :=
  .phrase .file [targetsNode, phraseOn 1 44 50 .comment [], packageNode] ⟨0, 107, ⟨1, 3⟩⟩

/-- The node of the target mirrors its expression. -/
lemma mirrors_targetNode :
    (Written.call (.of ".target") [] (.of
      [.mk [] (some ⟨.of "name", [], oneSpace⟩) (PlainText.of "Core").written []
        fun _ => rfl])).Mirrors appBindings.text 1 targetNode := by
  refine .inl ⟨⟨rfl, hasPlainComments_of_all rfl, _, _, rfl, rfl, ⟨rfl, ?callee, rfl⟩, rfl,
    hasPlainComments_of_all rfl, _, rfl, rfl, hasPlainComments_of_all rfl, _, rfl, ?argument⟩,
    rfl, rfl⟩
  case callee => exact isPlain_of_parts rfl (by simp [phraseOn, Node.parts])
  case argument => exact isArgument_argumentOn rfl rfl (mirrors_literalOn rfl)

/-- The node of the first binding mirrors it. -/
lemma isDeclaration_targetsNode : targetsNode.IsDeclaration appBindings.text targetsBinding.heading
    (targetsBinding.value.Mirrors appBindings.text (targetsBinding.valueLine 1)) := by
  refine ⟨rfl, hasPlainComments_of_all rfl, [], _, _, [_], _, _, rfl, rfl, ?introducer, ?name,
    ⟨_, rfl, ?type⟩, rfl, rfl, hasPlainComments_of_all rfl, ⟨rfl, rfl⟩, _, rfl,
    mirrors_targetNode⟩
  case introducer => exact isToken_phraseOn rfl rfl (by simp)
  case name => exact isToken_phraseOn rfl rfl (by simp)
  case type => exact isToken_phraseOn rfl rfl (by simp [phraseOn, isCall, isA, phrase?])

/-- The node of the second binding mirrors it. -/
lemma isDeclaration_packageNode : packageNode.IsDeclaration appBindings.text packageBinding.heading
    (packageBinding.value.Mirrors appBindings.text (packageBinding.valueLine 2)) := by
  refine ⟨rfl, hasPlainComments_of_all rfl, [_], _, _, [], _, _, rfl, ⟨_, rfl, ?access⟩,
    ?introducer, ?name, rfl, rfl, .inl ⟨⟨rfl, hasPlainComments_of_all rfl, _, _, rfl, rfl,
      ⟨rfl, isPlain_nameOn, rfl⟩, rfl,
      hasPlainComments_of_all rfl, _, rfl, rfl, hasPlainComments_of_all rfl, _, _, rfl,
      ?argument, _, rfl, ?argument'⟩, rfl, rfl⟩⟩
  case access => exact isToken_phraseOn rfl rfl (by simp [phraseOn, isCall, isA, phrase?])
  case introducer => exact isToken_phraseOn rfl rfl (by simp)
  case name => exact isToken_phraseOn rfl rfl (by simp)
  case argument => exact isArgument_argumentOn rfl rfl (mirrors_literalOn rfl)
  case argument' => exact isArgument_argumentOn rfl rfl ⟨rfl, isPlain_nameOn, rfl, rfl⟩

/-- The node of the example is that of a file with both bindings. -/
lemma isFile_appNode : appNode.IsFile (appBindings.Mirrors appBindings.text 1) :=
  ⟨rfl, hasPlainComments_of_all rfl, _, _, rfl, isDeclaration_targetsNode, _, _, rfl,
    isDeclaration_packageNode, rfl⟩

/-- Both readers agree on the manifest. -/
theorem Reader.asProgramBy_eq_bySections_app :
    appNode.IsFile (appBindings.Mirrors appBindings.text 1) ∧
    (appBindings.package? 1).isSome = true ∧
      Reader.asProgramBy (fun _ => some [appNode]) appBindings.text default =
        Reader.bySections appBindings.text default :=
  ⟨isFile_appNode, rfl, Reader.asProgramBy_eq_bySections default rfl isFile_appNode rfl⟩

end SwiftDependencies
