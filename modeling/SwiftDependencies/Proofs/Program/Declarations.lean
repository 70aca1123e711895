import Mathlib.Data.List.Basic
import Mathlib.Tactic.Common
import SwiftDependencies.Proofs.Manifest.Bindings
import SwiftDependencies.Proofs.Program.Mirror

/-!
# Trees of bindings

What a parser of programs makes of a manifest that consists of bindings: a file with a declaration
for each binding, in which comments are nodes of their own.  `Bindings.Mirrors` says this of the
declarations, and `Node.IsFile` of the file.

The constants that are declared in such a file are those of the bindings
(`Bindings.Mirrors.constants`), and the first call of `Package` in it is theirs
(`Bindings.Mirrors.package?`).
-/

namespace SwiftDependencies

open Source Program

/-! ### Declarations -/

namespace Program.Node

/-- Whether a node is of a kind, with a certain text and without calls. -/
structure IsToken (source : List Char) (p : Phrase) (cs : List Char) (n : Node) : Prop where
  phrase : n.phrase? = some p
  chars : n.region.chars source = cs
  isPlain : n.IsPlain

/-- Whether there is a node of a kind for a text, if there is the text. -/
def AreToken (source : List Char) (p : Phrase) (cs : Option (List Char)) (ns : List Node) : Prop :=
  match cs with
  | none => ns = []
  | some cs => ∃ n, ns = [n] ∧ n.IsToken source p cs

/-- Whether a node is the declaration of a value with some heading. -/
structure IsDeclaration (source : List Char) (heading : Heading) (value : Node → Prop)
    (n : Node) : Prop where
  phrase : n.phrase? = some .propertyDeclaration
  comments : n.HasPlainComments
  parts : ∃ modifiers introducer name clauses sign v,
    n.essentialParts = modifiers ++ introducer :: name :: (clauses ++ [sign, v]) ∧
      AreToken source .modifiers (heading.access.map (·.level.chars)) modifiers ∧
      introducer.IsToken source .bindingWord heading.introducer.chars ∧
      name.IsToken source .boundPattern heading.name.chars ∧
      AreToken source .typeClause (heading.type.map ArrayType.chars) clauses ∧
      sign.isEqualsSign = true ∧ value v

/-- Whether a node is a file of some declarations. -/
structure IsFile (declarations : List Node → Prop) (n : Node) : Prop where
  phrase : n.phrase? = some .file
  comments : n.HasPlainComments
  declarations : declarations n.essentialPhrases

end Program.Node

/-- Whether some nodes are what a parser makes of some bindings that begin on a line. -/
def Bindings.Mirrors (source : List Char) {first : Bool} :
    Bindings first → Nat → List Node → Prop
  | .none _, _, nodes => nodes = []
  | .more before _ b rest, line, nodes => ∃ n ns, nodes = n :: ns ∧
      n.IsDeclaration source b.heading
        (b.value.Mirrors source (b.valueLine (line + newlines before.lexemes))) ∧
      rest.Mirrors source (line + newlines before.lexemes + newlines b.lexemes) ns

/-! ### Parts of a declaration -/

namespace Program.Node

variable {n : Node} {source : List Char}

/-- An equals sign is no phrase. -/
lemma phrase?_of_isEqualsSign (h : n.isEqualsSign = true) : n.phrase? = none := by
  cases n with
  | word t r => rfl
  | phrase p ps r => simp [isEqualsSign] at h

/-- A phrase is no equals sign. -/
lemma isEqualsSign_of_phrase? (h : n.phrase?.isSome = true) : n.isEqualsSign = false := by
  rw [← Bool.not_eq_true]
  intro hsign
  simp [phrase?_of_isEqualsSign hsign] at h

variable {p q : Phrase} {cs : Option (List Char)} {ns : List Node}

/-- The nodes of a part are phrases. -/
lemma AreToken.isSome_phrase? (h : AreToken source p cs ns) :
    ∀ m ∈ ns, m.phrase?.isSome = true := by
  cases cs with
  | none =>
    obtain rfl : ns = [] := h
    simp
  | some cs =>
    obtain ⟨m, rfl, hm⟩ := h
    simp [hm.phrase]

/-- The nodes of a part are of no other kind. -/
lemma AreToken.find?_of_ne (h : AreToken source p cs ns) (hne : p ≠ q) :
    ns.find? (isA q) = none := by
  cases cs with
  | none =>
    obtain rfl : ns = [] := h
    rfl
  | some cs =>
    obtain ⟨m, rfl, hm⟩ := h
    simp [isA_of_phrase? hm.phrase, hne]

/-- The text of a part is found at the first node of its kind. -/
lemma AreToken.find? (h : AreToken source p cs ns) :
    (ns.find? (isA p)).map (fun m => m.region.chars source) = cs := by
  cases cs with
  | none =>
    obtain rfl : ns = [] := h
    rfl
  | some cs =>
    obtain ⟨m, rfl, hm⟩ := h
    simp [isA_of_phrase? hm.phrase, hm.chars]

/-- There is no call in the nodes of a part. -/
lemma AreToken.findSome?_within (h : AreToken source p cs ns) (name : String) :
    (ns.findSome? fun m => m.within.find? (isCallOf name source)) = none := by
  cases cs with
  | none =>
    obtain rfl : ns = [] := h
    rfl
  | some cs =>
    obtain ⟨m, rfl, hm⟩ := h
    rw [List.findSome?_singleton, find?_within_of_plain hm.isPlain]

/-- But for the sign, the parts of a declaration are phrases. -/
lemma essentialPhrases_of_parts {modifiers clauses : List Node} {introducer name sign v : Node}
    {level declared : Option (List Char)} {word identifier : List Char}
    (hparts : n.essentialParts = modifiers ++ introducer :: name :: (clauses ++ [sign, v]))
    (hmodifiers : AreToken source .modifiers level modifiers)
    (hintroducer : introducer.IsToken source .bindingWord word)
    (hname : name.IsToken source .boundPattern identifier)
    (hclauses : AreToken source .typeClause declared clauses)
    (hsign : sign.isEqualsSign = true) (hv : v.IsExpression) :
    n.essentialPhrases = modifiers ++ introducer :: name :: (clauses ++ [v]) := by
  have hall {ns : List Node} (h : ∀ m ∈ ns, m.phrase?.isSome = true) :
      ns.filter (fun m => m.phrase?.isSome) = ns := List.filter_eq_self.2 h
  rw [essentialPhrases_eq, hparts, List.filter_append, hall hmodifiers.isSome_phrase?,
    List.filter_cons_of_pos (by rw [hintroducer.phrase]; rfl),
    List.filter_cons_of_pos (by rw [hname.phrase]; rfl), List.filter_append,
    hall hclauses.isSome_phrase?, List.filter_cons_of_neg (by simp [phrase?_of_isEqualsSign hsign]),
    hall (by simpa using hv.isSome_phrase?)]

variable {heading : Heading} {value : Node → Prop}

/-- What a declaration declares. -/
lemma IsDeclaration.constant? {t : Term} (h : n.IsDeclaration source heading value)
    (hkind : ∀ v, value v → v.IsExpression) (hterm : ∀ v, value v → v.term source = t) :
    n.constant? source =
      some ⟨String.ofList heading.name.chars, t, heading.type.bind ArrayType.elementType?⟩ := by
  obtain ⟨hphrase, -, modifiers, introducer, name, clauses, sign, v, hparts,
      hmodifiers, hintroducer,
    hname, hclauses, hsign, hv⟩ := h
  have hphrases := essentialPhrases_of_parts hparts hmodifiers hintroducer hname hclauses hsign
    (hkind v hv)
  have hpattern : n.phrases.find? (isA .boundPattern) = some name := by
    rw [find?_phrases (by decide), hphrases, List.find?_append, hmodifiers.find?_of_ne (by decide),
      Option.none_or, List.find?_cons_of_neg (by simp [isA_of_phrase? hintroducer.phrase]),
      List.find?_cons_of_pos (by simp [isA_of_phrase? hname.phrase])]
  have hclause : n.phrases.find? (isA .typeClause) = clauses.find? (isA .typeClause) := by
    have hlast : [v].find? (isA .typeClause) = none := by
      rw [List.find?_cons_of_neg (by simp [(hkind v hv).isA (q := .typeClause) (by decide)]),
        List.find?_nil]
    rw [find?_phrases (by decide), hphrases, List.find?_append, hmodifiers.find?_of_ne (by decide),
      Option.none_or, List.find?_cons_of_neg (by simp [isA_of_phrase? hintroducer.phrase]),
      List.find?_cons_of_neg (by simp [isA_of_phrase? hname.phrase]), List.find?_append, hlast,
      Option.or_none]
  have hvalue : n.declaredValue? = some v := by
    have hskip {ns : List Node} (h : ∀ m ∈ ns, m.phrase?.isSome = true) (rest : List Node) :
        (ns ++ rest).dropWhile (fun m => !m.isEqualsSign) = rest.dropWhile fun m =>
          !m.isEqualsSign :=
      List.dropWhile_append_of_pos fun m hm => by simp [isEqualsSign_of_phrase? (h m hm)]
    have hfront : ∀ m ∈ [introducer, name], m.phrase?.isSome = true := by
      simp [hintroducer.phrase, hname.phrase]
    have hdrop : n.essentialParts.dropWhile (fun m => !m.isEqualsSign) = [sign, v] := by
      have hsplit : introducer :: name :: (clauses ++ [sign, v]) =
          [introducer, name] ++ (clauses ++ [sign, v]) := rfl
      rw [hparts, hskip hmodifiers.isSome_phrase?, hsplit, hskip hfront,
        hskip hclauses.isSome_phrase?, List.dropWhile_cons_of_neg (by simp [hsign])]
    rw [declaredValue?, hdrop]
  have htype :
      ((clauses.find? (isA .typeClause)).bind fun a => elementType? (a.region.text source)) =
      heading.type.bind ArrayType.elementType? := by
    have hmap := congrArg (fun cs => cs.bind fun cs => elementType? (String.ofList cs))
      hclauses.find?
    rw [Option.bind_map, Option.bind_map] at hmap
    exact hmap
  have htrim : Text.trim (name.region.text source) = String.ofList heading.name.chars := by
    rw [Source.Region.text, hname.chars]
    exact trim_of_joins heading.name.toWord.joins
  simp [Node.constant?, isA_of_phrase? hphrase, hpattern, hvalue, hclause, htype, htrim, hterm v hv]

/-- Nothing else declares anything. -/
lemma constant?_eq_none (h : n.isA .propertyDeclaration = false) : n.constant? source = none := by
  simp [Node.constant?, h]

/-- Signs and comments declare nothing. -/
lemma filterMap_constant? (n : Node) :
    n.parts.filterMap (Node.constant? source) =
      n.essentialPhrases.filterMap (Node.constant? source) := by
  rw [essentialPhrases, phrases, List.filter_filter, List.filterMap_filter]
  refine List.filterMap_congr fun part _ => ?_
  split <;> rename_i hpart
  · rfl
  · refine constant?_eq_none ?_
    rw [Bool.and_eq_true, not_and_or] at hpart
    cases hphrase : part.phrase? with
    | none => simp [isA, hphrase]
    | some p => cases p <;> simp_all [isA, isComment]

/-! ### The constructed package -/

/-- In a declaration the search goes on with the value. -/
lemma IsDeclaration.find?_within {name : String} {found : Option (Nat × Row true)}
    (h : n.IsDeclaration source heading value) (hkind : ∀ v, value v → v.IsExpression)
    (hfound : ∀ v, value v →
      FindsArguments source (v.within.find? (isCallOf name source)) found) :
    FindsArguments source (n.within.find? (isCallOf name source)) found := by
  obtain ⟨hphrase, hcomments, modifiers, introducer, identifier, clauses, sign, v,
      hparts, hmodifiers,
    hintroducer, hidentifier, hclauses, hsign, hv⟩ := h
  have hcall : n.isCall = false :=
    isCall_eq_false_of_phrase? hphrase (by decide) (by decide) (by decide)
  rw [find?_within_of_not (isCallOf_eq_false hcall name) hcomments,
    essentialPhrases_of_parts hparts hmodifiers hintroducer hidentifier hclauses hsign (hkind v hv),
    List.findSome?_append, hmodifiers.findSome?_within, Option.none_or, List.findSome?_cons,
    find?_within_of_plain hintroducer.isPlain, List.findSome?_cons,
    find?_within_of_plain hidentifier.isPlain, List.findSome?_append, hclauses.findSome?_within,
    Option.none_or, List.findSome?_singleton]
  exact hfound v hv

/-- The first call in a file with the arguments that were to be found. -/
lemma IsFile.firstCallOf? {declarations : List Node → Prop} {name : String}
    {found : Nat × Row true} (h : n.IsFile declarations)
    (hfound : ∀ ns, declarations ns → FindsArguments source
      (ns.findSome? fun m => m.within.find? (isCallOf name source)) (some found)) :
    ∃ span, firstCallOf? name source [n] = some ⟨found.2.items found.1, span⟩ := by
  have hcall : n.isCall = false :=
    isCall_eq_false_of_phrase? h.phrase (by decide) (by decide) (by decide)
  have hsearch := hfound _ h.declarations
  rw [← find?_within_of_not (isCallOf_eq_false hcall name) h.comments] at hsearch
  rw [Node.firstCallOf?, List.flatMap_singleton]
  cases hfind : n.within.find? (isCallOf name source) with
  | none =>
    rw [hfind] at hsearch
    nomatch hsearch
  | some call =>
    rw [hfind] at hsearch
    obtain ⟨callee, span, hterm⟩ := hsearch
    exact ⟨span, by rw [Option.map_some, hterm]⟩

end Program.Node

variable {source : List Char}

/-- The constants that are declared are those of the bindings. -/
theorem Bindings.Mirrors.constants {first : Bool} {bs : Bindings first} {line : Nat}
    {nodes : List Node} (h : bs.Mirrors source line nodes) :
    nodes.filterMap (Node.constant? source) = bs.constants line := by
  induction bs generalizing line nodes with
  | none after =>
    obtain rfl : nodes = [] := h
    rfl
  | more before starts b rest ih =>
    obtain ⟨n, ns, rfl, hn, hns⟩ := h
    rw [List.filterMap_cons_some
      (hn.constant? (fun v hv => hv.isExpression) fun v hv => hv.term), ih hns]
    rfl

/-- The first call of `Package` in the declarations is that of the bindings. -/
theorem Bindings.Mirrors.package? {first : Bool} {bs : Bindings first} {line : Nat}
    {nodes : List Node} (h : bs.Mirrors source line nodes) :
    Node.FindsArguments source
      (nodes.findSome? fun n => n.within.find? (Node.isCallOf "Package" source))
      (bs.package? line) := by
  induction bs generalizing line nodes with
  | none after =>
    obtain rfl : nodes = [] := h
    exact .none
  | more before starts b rest ih =>
    obtain ⟨n, ns, rfl, hn, hns⟩ := h
    have hfound := (hn.find?_within (fun v hv => hv.isExpression)
      fun v hv => hv.package?).or (ih hns)
    rw [Bindings.package?, List.findSome?_cons]
    split <;> rename_i heq <;> rwa [heq] at hfound

end SwiftDependencies
