import Mathlib.Data.List.DropRight
import Mathlib.Data.List.TakeWhile
import Mathlib.Tactic.Common
import SwiftDependencies.Manifest.Fragment
import SwiftDependencies.Proofs.Manifest.Written
import SwiftDependencies.Proofs.Text.Margins

/-!
# Cutting fragments

What the functions of `Manifest.Fragment` do with a fragment that is put together from known parts:
blanks around it are trimmed, a balanced part is one item, a name before a parenthesis is a callee,
and a name before a colon is a label.  Of the parts only the skeleton needs to be known.

`Fragment.termOf` is the one step of reading a term from a fragment without margins, so that
`Fragment.term` need not be opened again.
-/

namespace SwiftDependencies.Source.Fragment

open Text (isNameStart isWord)

variable {f a b rest : Fragment}

/-! ### Blanks around a fragment -/

/-- A fragment of blanks. -/
def AllBlank (f : Fragment) : Prop :=
  ∀ c ∈ f.chars, Text.isBlank c = true

instance (f : Fragment) : Decidable (AllBlank f) :=
  decidable_of_iff (f.chars.all Text.isBlank = true) List.all_eq_true

/-- A text whose first and last character are not blank. -/
def Solid (cs : List Char) : Prop :=
  (∃ c ∈ cs.head?, Text.isBlank c = false) ∧ ∃ c ∈ cs.getLast?, Text.isBlank c = false

/-- The characters of a blank fragment are blank. -/
lemma AllBlank.isBlank (h : AllBlank f) : ∀ g ∈ f, g.isBlank = true :=
  fun _ hg => h _ (List.mem_map_of_mem hg)

/-- A fragment of blank characters is blank. -/
lemma allBlank_of_forall (h : ∀ g ∈ f, g.isBlank = true) : AllBlank f := by
  intro c hc
  obtain ⟨g, hg, rfl⟩ := List.mem_map.1 hc
  exact h g hg

/-- The empty fragment is blank. -/
lemma allBlank_nil : AllBlank [] := by simp [AllBlank, chars]

/-- A blank fragment passes the test for being so. -/
lemma isBlank_of_allBlank (h : AllBlank f) : f.isBlank = true :=
  List.all_eq_true.2 h.isBlank

/-- A fragment first shows its first character that is visible. -/
lemma first?_eq (f : Fragment) : first? f = f.chars.head? := by
  cases f <;> rfl

/-- A fragment with a character that is not blank is not blank. -/
lemma isBlank_of_mem_chars {c : Char} (hc : c ∈ f.chars) (h : Text.isBlank c = false) :
    f.isBlank = false := by
  obtain ⟨g, hg, rfl⟩ := List.mem_map.1 hc
  rw [Fragment.isBlank, List.all_eq_false]
  exact ⟨g, hg, by simpa [Glyph.isBlank] using h⟩

/-- Blanks in front are skipped. -/
lemma skipBlanks_append (h : AllBlank a) : skipBlanks (a ++ f) = skipBlanks f :=
  List.dropWhile_append_of_pos h.isBlank

/-- Nothing is skipped in front of a character that is not blank. -/
lemma skipBlanks_of_first {c : Char} (h : first? f = some c) (hc : Text.isBlank c = false) :
    skipBlanks f = f := by
  cases f with
  | nil => rfl
  | cons g f =>
    obtain rfl : g.skeleton = c := by simpa [first?] using h
    simp [skipBlanks, Glyph.isBlank, hc]

/-- The margins of a fragment are what is blank around its solid part. -/
lemma trimmed_append (ha : AllBlank a) (hf : Solid f.chars) (hb : AllBlank b) :
    trimmed (a ++ f ++ b) = f := by
  obtain ⟨⟨c, hc, hcb⟩, d, hd, hdb⟩ := hf
  rw [chars, List.head?_map] at hc
  rw [chars, List.getLast?_map] at hd
  obtain ⟨g, hg, rfl⟩ := Option.map_eq_some_iff.1 hc
  obtain ⟨e, he, rfl⟩ := Option.map_eq_some_iff.1 hd
  exact Text.dropMargins_append ha.isBlank ⟨g, hg, hcb⟩ ⟨e, he, hdb⟩ hb.isBlank

/-- Nothing is trimmed of a fragment that begins and ends with characters that are not blank. -/
lemma trimmed_of_solid (hf : Solid f.chars) : trimmed f = f := by
  simpa using trimmed_append (a := []) (b := []) allBlank_nil hf allBlank_nil

/-- Blanks behind a fragment are trimmed. -/
lemma trimmed_append_blank (hb : AllBlank b) (f : Fragment) : trimmed (f ++ b) = trimmed f :=
  Text.dropMargins_append_right hb.isBlank f

/-- Blanks in front of a fragment are trimmed, so they may be skipped before. -/
lemma trimmed_skipBlanks (f : Fragment) : trimmed (skipBlanks f) = trimmed f := by
  rw [trimmed, trimmed, Text.dropMargins, Text.dropMargins, Text.dropStart, Text.dropStart,
    skipBlanks, List.dropWhile_idempotent]

/-- Nothing is left of blanks. -/
lemma trimmed_of_allBlank (hf : AllBlank f) : trimmed f = [] :=
  trimmed_append_blank hf []

/-- What is not blank after a fragment is part of it without its margins. -/
lemma exists_trimmed_append (hf : ∃ g ∈ f.head?, g.isBlank = false) (hb : ¬AllBlank b) :
    ∃ rest, rest ≠ [] ∧ trimmed (f ++ b) = f ++ rest := by
  obtain ⟨g, hg, hgb⟩ := hf
  have hstart : Text.dropStart Glyph.isBlank (f ++ b) = f ++ b := by
    cases f with
    | nil => simp at hg
    | cons e f =>
      obtain rfl : e = g := Option.some.inj hg
      exact List.dropWhile_cons_of_neg (by simp [hgb])
  have hne : b.reverse.dropWhile Glyph.isBlank ≠ [] := by
    rw [Ne, List.dropWhile_eq_nil_iff]
    intro hall
    exact hb (allBlank_of_forall fun e he => hall e (List.mem_reverse.2 he))
  refine ⟨Text.dropEnd Glyph.isBlank b, ?_, ?_⟩
  · rw [Text.dropEnd, Ne, List.reverse_eq_nil_iff]
    exact hne
  · rw [trimmed, Text.dropMargins, hstart, Text.dropEnd, List.reverse_append,
      List.dropWhile_append, if_neg, List.reverse_append, List.reverse_reverse, Text.dropEnd]
    rwa [List.isEmpty_iff]

/-- Everything is skipped if it is blank. -/
lemma skipBlanks_eq_nil_iff : skipBlanks f = [] ↔ AllBlank f := by
  rw [skipBlanks, List.dropWhile_eq_nil_iff]
  exact ⟨allBlank_of_forall, AllBlank.isBlank⟩

/-- Blanks are skipped up to the first character that is none. -/
lemma skipBlanks_append_of_ne_nil (hf : skipBlanks f ≠ []) (rest : Fragment) :
    skipBlanks (f ++ rest) = skipBlanks f ++ rest := by
  rw [skipBlanks, List.dropWhile_append, if_neg]
  · rfl
  · rwa [List.isEmpty_iff]

/-! ### Where a word ends -/

/-- Whether the next character that a fragment shows does not go on with a word. -/
def Stops (f : Fragment) : Prop :=
  ∀ c ∈ first? (skipBlanks f), isWord c = false

/-- No word goes on where words stop. -/
lemma Stops.not_word (h : Stops f) : ∀ c ∈ first? f, isWord c = false := by
  intro c hc
  rcases Bool.eq_false_or_eq_true (Text.isBlank c) with hb | hb
  · exact isWord_of_isBlank hb
  · exact h c (by rwa [skipBlanks_of_first hc hb])

/-- No word goes on with a blank. -/
lemma AllBlank.not_word (h : AllBlank f) (hne : f ≠ []) (rest : Fragment) :
    ∀ c ∈ first? (f ++ rest), isWord c = false := by
  intro c hc
  cases f with
  | nil => exact absurd rfl hne
  | cons g f =>
    obtain rfl : g.skeleton = c := by simpa [first?] using hc
    exact isWord_of_isBlank (h.isBlank g List.mem_cons_self)

/-- Words stop also in front of blanks. -/
lemma Stops.append {gap : Fragment} (hg : AllBlank gap) (h : Stops f) : Stops (gap ++ f) := by
  intro c hc
  rw [skipBlanks_append hg] at hc
  exact h c hc

/-- Words stop at the end. -/
lemma stops_nil : Stops [] := by simp [Stops, skipBlanks, first?]

/-- Words stop at signs. -/
lemma stops_of_sign {c : Char} (h : first? f = some c) (hc : c ∈ signs)
    (hb : Text.isBlank c = false) : Stops f := by
  intro d hd
  rw [skipBlanks_of_first h hb] at hd
  obtain rfl := Option.mem_unique h hd
  exact isWord_of_mem_signs hc

/-! ### The term of a fragment -/

/-- The term of a fragment without margins, from the terms of its items. -/
def termOf : Fragment → Term
  | [] => .unknown "" ⟨0, 0⟩
  | g :: rest =>
    let all : Fragment := g :: rest
    let span := span g rest
    if g.literalLength = all.length then
      match literalValue? all.cleanText with
      | some value => .string (String.ofList value) span
      | none => .unknown (String.ofList all.cleanText) span
    else if g.skeleton = '[' ∧ closing? all.chars = some rest.length then
      .array ((all.inside 1).items.map term) span
    else if all.identifierLength = all.length then .reference (String.ofList all.chars) span
    else
      match all.calleeLength? with
      | none => .unknown (String.ofList all.cleanText) span
      | some n =>
        if closing? (all.chars.drop (n - 1)) = some (all.length - n) then
          .call (Term.lastPart (String.ofList (all.chars.take (n - 1))))
            ((all.inside n).items.map fun item => (item.argument.1, item.argument.2.term)) span
        else .unknown (String.ofList all.cleanText) span

/-- The term of a fragment is that of the fragment without its margins. -/
theorem term_eq (f : Fragment) : f.term = termOf f.trimmed := by
  rw [term]
  split
  · rename_i h
    rw [h, termOf]
  · rename_i g rest h
    refine Eq.trans ?_ (congrArg termOf h).symm
    simp only [List.map_subtype, List.unattach_attach]
    rfl

/-- Margins do not change a term. -/
lemma term_margins (ha : AllBlank a) (hf : Solid f.chars) (hb : AllBlank b) :
    term (a ++ f ++ b) = term f := by
  rw [term_eq, term_eq, trimmed_append ha hf hb, trimmed_of_solid hf]

/-- The lines of a fragment, from its first glyph to its last. -/
def spanOf : Fragment → Span
  | [] => ⟨0, 0⟩
  | g :: rest => span g rest

/-- Whether no literal begins a fragment. -/
def BeginsCode (f : Fragment) : Prop :=
  ∀ g ∈ f.head?, g.literalLength = 0

/-- A fragment that one literal covers. -/
lemma termOf_literal (hne : f ≠ []) (h : ∀ g ∈ f.head?, g.literalLength = f.length) :
    termOf f =
      match literalValue? f.cleanText with
      | some value => .string (String.ofList value) (spanOf f)
      | none => .unknown (String.ofList f.cleanText) (spanOf f) := by
  cases f with
  | nil => exact absurd rfl hne
  | cons g f =>
    rw [termOf]
    simp only [h g rfl, if_true]
    rfl

/-- A fragment is a name exactly if it begins like one and has only characters of words. -/
lemma identifierLength_eq_length_iff (hne : f ≠ []) :
    identifierLength f = f.length ↔
      (f.chars.head?.any isNameStart) = true ∧ ∀ c ∈ f.chars, isWord c = true := by
  rw [identifierLength, first?_eq]
  split
  · rename_i hstart
    have hlen : (f.chars.takeWhile isWord).length = f.length ↔
        ∀ c ∈ f.chars, isWord c = true := by
      rw [← length_chars, (List.takeWhile_prefix isWord).sublist.length_eq,
        List.takeWhile_eq_self_iff]
    simpa [hstart] using hlen
  · rename_i hstart
    have hlen : 0 ≠ f.length := fun h => hne (List.length_eq_zero_iff.1 h.symm)
    simp only [hstart, Bool.false_eq_true, false_and, iff_false]
    exact hlen

/-- A fragment with anything else in it is no identifier. -/
lemma identifierLength_ne {c : Char} (hc : c ∈ f.chars) (h : isWord c = false) :
    identifierLength f ≠ f.length := by
  have hne : f ≠ [] := by
    rintro rfl
    simp [chars] at hc
  intro hlen
  have := ((identifierLength_eq_length_iff hne).1 hlen).2 c hc
  simp [h] at this

/-- Items in square brackets are an array. -/
lemma termOf_array {o c : Glyph} {inner : Fragment} {p : Char → Prop} (ho : o.skeleton = '[')
    (hl : o.literalLength = 0) (hc : c.skeleton = ']') (hin : Balanced p inner.chars) :
    termOf (o :: (inner ++ [c])) =
      .array (inner.items.map term) (spanOf (o :: (inner ++ [c]))) := by
  have hclosing : closing? (chars (o :: (inner ++ [c]))) = some (inner ++ [c]).length := by
    have := closing?_enclosed (o := o.skeleton) (c := c.skeleton) (by simp [ho, isOpener])
      (by simp [hc, isCloser]) hin []
    simpa [chars] using this
  have hinside : inside 1 (o :: (inner ++ [c])) = inner := by simp [inside]
  rw [termOf]
  simp only [hl, List.length_cons, ho, hclosing, hinside]
  rw [if_neg (by omega), if_pos ⟨trivial, trivial⟩]
  rfl

/-- The end of a name before blanks and a sign. -/
lemma dropWhile_joinsName {name gap : Fragment} {o : Glyph} {tail : Fragment}
    (hn : ∀ c ∈ name.chars, joinsName c = true) (hg : AllBlank gap)
    (ho : joinsName o.skeleton = false) :
    (name ++ gap ++ o :: tail).dropWhile (fun g => joinsName g.skeleton) = gap ++ o :: tail := by
  rw [List.append_assoc, List.dropWhile_append_of_pos fun g h => hn _ (List.mem_map_of_mem h)]
  cases gap with
  | nil => simp [ho]
  | cons g gap =>
    have : joinsName g.skeleton = false := joinsName_of_isBlank (hg.isBlank g List.mem_cons_self)
    simp [this]

/-- The part of a callee that must begin like a name. -/
def unmarked (cs : List Char) : List Char :=
  cs.drop (if cs.head? == some '.' then 1 else 0)

/-- A name, a gap and an opening parenthesis begin a call. -/
lemma calleeLength?_eq {name gap : Fragment} {o : Glyph} {tail : Fragment}
    (hn : ∀ c ∈ name.chars, joinsName c = true)
    (hs : ((unmarked name.chars).head?.any isNameStart) = true) (hg : AllBlank gap)
    (ho : o.skeleton = '(') :
    calleeLength? (name ++ gap ++ o :: tail) = some (name.length + gap.length + 1) := by
  have hfirst : first? (name ++ gap ++ o :: tail) = name.chars.head? := by
    cases name with
    | nil => simp [unmarked, chars] at hs
    | cons g name => rfl
  obtain ⟨n, hn1, hdrop⟩ : ∃ n, n ≤ name.length ∧
      unmarked name.chars = chars (name.drop n) ∧
      (if first? (name ++ gap ++ o :: tail) == some '.' then 1 else 0) = n := by
    refine ⟨_, ?_, ?_, rfl⟩
    · cases name with
      | nil => simp [unmarked, chars] at hs
      | cons g name => simp only [List.length_cons]; split <;> omega
    · rw [hfirst, unmarked, chars, chars, List.map_drop]
  have hjoin : ∀ c ∈ chars (name.drop n), joinsName c = true := by
    intro c hc
    rw [chars, List.map_drop] at hc
    exact hn c (List.mem_of_mem_drop hc)
  have hsplit : (name ++ gap ++ o :: tail).drop n = name.drop n ++ gap ++ o :: tail := by
    rw [List.append_assoc, List.drop_append_of_le_length hn1, List.append_assoc]
  have hstart : ((first? (name.drop n ++ gap ++ o :: tail)).any isNameStart) = true := by
    rw [hdrop.1] at hs
    cases hname : name.drop n with
    | nil => simp [hname, chars] at hs
    | cons g rest => simpa [hname, first?, chars] using hs
  have hrest : skipBlanks ((name.drop n ++ gap ++ o :: tail).dropWhile
      fun g => isWord g.skeleton || g.skeleton == '.') = o :: tail := by
    have hwhile : (name.drop n ++ gap ++ o :: tail).dropWhile (fun g => joinsName g.skeleton) =
        gap ++ o :: tail :=
      dropWhile_joinsName hjoin hg (joinsName_of_mem_signs (by rw [ho]; decide))
    rw [show (fun g : Glyph => isWord g.skeleton || g.skeleton == '.') =
      fun g => joinsName g.skeleton from rfl, hwhile, skipBlanks_append hg]
    exact skipBlanks_of_first (c := '(') (by simp [first?, ho]) (by decide)
  simp only [calleeLength?, hdrop.2, hsplit, hstart, hrest]
  simp [first?, ho]
  omega

/-- A name alone begins no call. -/
lemma calleeLength?_of_joins (h : ∀ c ∈ f.chars, joinsName c = true) :
    calleeLength? f = none := by
  have hrest (n : Nat) :
      (f.drop n).dropWhile (fun g => isWord g.skeleton || g.skeleton == '.') = [] := by
    rw [List.dropWhile_eq_nil_iff]
    intro g hg
    exact h _ (List.mem_map_of_mem (List.mem_of_mem_drop hg))
  simp [calleeLength?, hrest, skipBlanks, first?]

/-- A token of characters that join is a name, or it is not interpreted. -/
lemma termOf_word (hne : f ≠ []) (hl : BeginsCode f) (h : ∀ c ∈ f.chars, joinsName c = true) :
    termOf f =
      if (f.chars.head?.any isNameStart && f.chars.all isWord) = true then
        .reference (String.ofList f.chars) (spanOf f)
      else .unknown (String.ofList f.cleanText) (spanOf f) := by
  have hlen := identifierLength_eq_length_iff hne
  have hcallee := calleeLength?_of_joins h
  cases f with
  | nil => exact absurd rfl hne
  | cons g f =>
    have hlit : g.literalLength ≠ (g :: f).length := by simp [hl g rfl]
    have hbracket : ¬(g.skeleton = '[' ∧ closing? (chars (g :: f)) = some f.length) := by
      rintro ⟨hg, -⟩
      have hjoin := h g.skeleton (by simp [chars])
      rw [hg] at hjoin
      exact not_mem_signs hjoin (by decide)
    rw [termOf]
    simp only [hlit, hbracket, hcallee, if_false, hlen, Bool.and_eq_true, List.all_eq_true]
    rfl

/-- Blanks after a callee do not change its last part. -/
lemma lastPart_append {cs bs : List Char} (h : ∀ c ∈ bs, Text.isBlank c = true) :
    Term.lastPart (String.ofList (cs ++ bs)) = Term.lastPart (String.ofList cs) := by
  simp [Term.lastPart, Text.trim, Text.dropMargins_append_right h]

/-- A name, blanks, and arguments in parentheses are a call. -/
lemma termOf_call {name gap inner : Fragment} {o c : Glyph} {p : Char → Prop}
    (hn : ∀ c ∈ name.chars, joinsName c = true)
    (hs : ((unmarked name.chars).head?.any isNameStart) = true) (hg : AllBlank gap)
    (ho : o.skeleton = '(') (hc : c.skeleton = ')') (hl : BeginsCode name)
    (hin : Balanced p inner.chars) :
    termOf (name ++ gap ++ o :: (inner ++ [c])) =
      .call (Term.lastPart (String.ofList name.chars))
        (inner.items.map fun item => (item.argument.1, item.argument.2.term))
        (spanOf (name ++ gap ++ o :: (inner ++ [c]))) := by
  have hcallee : calleeLength? (name ++ gap ++ o :: (inner ++ [c])) =
      some (name.length + gap.length + 1) := calleeLength?_eq hn hs hg ho
  have hword : identifierLength (name ++ gap ++ o :: (inner ++ [c])) ≠
      (name ++ gap ++ o :: (inner ++ [c])).length :=
    identifierLength_ne (c := o.skeleton) (by simp [chars])
      (isWord_of_mem_signs (by rw [ho]; decide))
  have hdrop : (chars (name ++ gap ++ o :: (inner ++ [c]))).drop (name.length + gap.length) =
      o.skeleton :: (inner.chars ++ [c.skeleton]) := by
    rw [chars_append, ← length_chars name, ← length_chars gap, ← List.length_append,
      ← chars_append, List.drop_left]
    simp [chars]
  have hclosing : closing? (o.skeleton :: (inner.chars ++ [c.skeleton])) =
      some (inner.length + 1) := by
    have := closing?_enclosed (o := o.skeleton) (c := c.skeleton) (by simp [ho, isOpener])
      (by simp [hc, isCloser]) hin []
    simpa using this
  have htake : (chars (name ++ gap ++ o :: (inner ++ [c]))).take (name.length + gap.length) =
      name.chars ++ gap.chars := by
    rw [chars_append, ← length_chars name, ← length_chars gap, ← List.length_append,
      ← chars_append, List.take_left]
  have hinside : inside (name.length + gap.length + 1) (name ++ gap ++ o :: (inner ++ [c])) =
      inner := by
    rw [inside, ← List.drop_drop, ← List.length_append, List.drop_left]
    simp
  cases hname : name with
  | nil => simp [hname, unmarked, chars] at hs
  | cons g rest =>
    have hlit : g.literalLength = 0 := hl g (by simp [hname])
    have hbracket : g.skeleton ≠ '[' := by
      intro hb
      have hjoin := hn g.skeleton (by simp [hname, chars])
      rw [hb] at hjoin
      exact not_mem_signs hjoin (by decide)
    rw [hname] at hcallee hword hdrop htake hinside
    simp only [List.cons_append] at hcallee hword hdrop htake hinside ⊢
    rw [termOf]
    simp only [hcallee, Nat.add_sub_cancel, hdrop, hclosing, htake, hinside]
    rw [if_neg (by simp [hlit]), if_neg (fun h => hbracket h.1), if_neg hword, if_pos,
      lastPart_append hg]
    · rfl
    · simp
      omega

/-! ### Items -/

/-- The item that a fragment is, unless it is blank. -/
def itemOf (f : Fragment) : List Fragment :=
  if f.isBlank then [] else [f]

/-- A balanced fragment without commas outside of brackets is one item, or none if it is blank. -/
lemma items_of_balanced {p : Char → Prop} (h : Balanced p f.chars)
    (hp : ∀ c, p c → c ≠ ',') :
    items f = itemOf f := by
  have hpieces : piecesFrom (·.skeleton) (· == ',') 0 (f ++ []) =
      (piecesFrom (·.skeleton) (· == ',') 0 []).modifyHead (f ++ ·) :=
    piecesFrom_append h (by omega) (fun _ c hc => by simpa using hp c hc) rfl []
  rw [List.append_nil] at hpieces
  rw [items, hpieces, itemOf]
  simp only [piecesFrom, List.modifyHead_cons, List.append_nil]
  by_cases hb : f.isBlank <;> simp [hb]

/-- A balanced fragment and a comma are one item, and the others follow. -/
lemma items_append_comma {p : Char → Prop} {comma : Glyph} (h : Balanced p f.chars)
    (hp : ∀ c, p c → c ≠ ',') (hc : comma.skeleton = ',') (rest : Fragment) :
    items (f ++ comma :: rest) = itemOf f ++ items rest := by
  have hpieces : piecesFrom (·.skeleton) (· == ',') 0 (f ++ comma :: rest) =
      (piecesFrom (·.skeleton) (· == ',') 0 (comma :: rest)).modifyHead (f ++ ·) :=
    piecesFrom_append h (by omega) (fun _ c hc => by simpa using hp c hc) rfl _
  rw [items, hpieces, piecesFrom_cons_of_separator rest (by simp [hc, isOpener])
    (by simp [hc, isCloser])
      (by simp [hc]), itemOf, items]
  simp only [List.modifyHead_cons, List.append_nil]
  by_cases hb : f.isBlank <;> simp [hb]

/-! ### Labels -/

/-- The name at the start of a fragment ends where no word goes on. -/
lemma identifierLength_append {name : Fragment} (hs : (name.chars.head?.any isNameStart) = true)
    (hw : ∀ c ∈ name.chars, isWord c = true) (hr : ∀ c ∈ first? rest, isWord c = false) :
    identifierLength (name ++ rest) = name.length := by
  have hstart : ((first? (name ++ rest)).any isNameStart) = true := by
    cases name with
    | nil => simp [chars] at hs
    | cons g name => simpa [first?, chars] using hs
  have hstop : rest.chars.takeWhile isWord = [] := by
    cases rest with
    | nil => rfl
    | cons g rest => simp [chars, hr g.skeleton rfl]
  rw [identifierLength, if_pos hstart, chars_append, List.takeWhile_append_of_pos hw, hstop]
  simp

/-- No identifier begins with anything else than its first character may be. -/
lemma identifierLength_of_first {c : Char} (h : first? f = some c) (hc : isNameStart c = false) :
    identifierLength f = 0 := by
  simp [identifierLength, h, hc]

/-- Whether a fragment shows nothing, or first something other than a certain sign. -/
def Avoids (sign : Char) (f : Fragment) : Prop :=
  ∀ c ∈ first? f, c ≠ sign

/-- An identifier ends where words stop. -/
lemma identifierLength_le {name : Fragment} (hr : ∀ c ∈ first? rest, isWord c = false) :
    identifierLength (name ++ rest) ≤ name.length := by
  have hstop : rest.chars.takeWhile isWord = [] := by
    cases rest with
    | nil => rfl
    | cons g rest => simp [chars, hr g.skeleton rfl]
  rw [identifierLength]
  split
  · rw [chars_append, List.takeWhile_append]
    split
    · simp [hstop]
    · rw [← length_chars name]
      exact (List.takeWhile_prefix _).length_le
  · exact Nat.zero_le _

/-- What is shown after the start of a name: the name goes on, or what follows it is shown. -/
lemma first?_skipBlanks_drop {name : Fragment} {c : Char} {n : Nat}
    (hn : ∀ d ∈ name.chars, joinsName d = true) (hlen : n ≤ name.length)
    (hc : c ∈ first? (skipBlanks ((name ++ rest).drop n))) :
    joinsName c = true ∨ c ∈ first? (skipBlanks rest) := by
  rw [List.drop_append_of_le_length hlen] at hc
  cases hname : name.drop n with
  | nil =>
    rw [hname, List.nil_append] at hc
    exact .inr hc
  | cons g tail =>
    have hjoin : joinsName g.skeleton = true :=
      hn _ (List.mem_map_of_mem (List.mem_of_mem_drop (hname ▸ List.mem_cons_self)))
    have hblank := isBlank_of_joinsName hjoin
    rw [hname, List.cons_append, skipBlanks_of_first (c := g.skeleton) rfl hblank] at hc
    obtain rfl : g.skeleton = c := by simpa [first?] using hc
    exact .inl hjoin

/-- A name that no colon follows is no label. -/
lemma label?_of_name {name : Fragment} (hn : ∀ c ∈ name.chars, joinsName c = true)
    (hs : Stops rest) (hr : Avoids ':' (skipBlanks rest)) : label? (name ++ rest) = none := by
  have hlen : identifierLength (name ++ rest) ≤ name.length := identifierLength_le hs.not_word
  have hcolon : first? (skipBlanks ((name ++ rest).drop (identifierLength (name ++ rest)))) ≠
      some ':' := by
    intro hc
    rcases first?_skipBlanks_drop hn hlen hc with hj | hc
    · exact not_mem_signs hj (by decide)
    · exact hr _ hc rfl
  simp [label?, hcolon]

/-- No label begins with anything else than a name. -/
lemma label?_of_first {c : Char} (h : first? f = some c) (hc : isNameStart c = false) :
    label? f = none := by
  simp [label?, identifierLength_of_first h hc]

/-- A label, its colon, and what stands after it. -/
lemma label?_eq {name gap : Fragment} {c : Glyph} {value : Fragment}
    (hs : (name.chars.head?.any isNameStart) = true) (hw : ∀ c ∈ name.chars, isWord c = true)
    (hg : AllBlank gap) (hc : c.skeleton = ':') (hv : Avoids ':' value) :
    label? (name ++ (gap ++ c :: value)) = some (String.ofList name.chars, value) := by
  have hfirst : first? (c :: value) = some ':' := by simp [first?, hc]
  have hlen := identifierLength_append hs hw
    (Stops.append hg (stops_of_sign hfirst (by decide) rfl)).not_word
  have hpos : name.length ≠ 0 := by
    intro h
    obtain rfl := List.length_eq_zero_iff.1 h
    simp [chars] at hs
  have hrest : skipBlanks (gap ++ c :: value) = c :: value := by
    rw [skipBlanks_append hg]
    exact skipBlanks_of_first hfirst rfl
  have hnext : (first? value != some ':') = true := by
    rw [bne_iff_ne]
    exact fun h => hv _ h rfl
  simp only [label?, hlen, List.drop_left, List.take_left, hrest, hfirst, List.drop_succ_cons,
    List.drop_zero, hnext]
  simp [hpos]

/-- What a label and the value after it are read from. -/
lemma exists_of_label? {l : String} {value : Fragment} (h : label? f = some (l, value)) :
    ∃ name gap colon, f = name ++ (gap ++ colon :: value) ∧
      l = String.ofList name.chars ∧ name ≠ [] ∧
      (∀ c ∈ name.chars, isWord c = true) ∧ AllBlank gap ∧ colon.skeleton = ':' ∧
      Avoids ':' value := by
  simp only [label?] at h
  split at h
  swap
  · simp at h
  rename_i hc
  simp only [Bool.and_eq_true, bne_iff_ne, ne_eq, beq_iff_eq] at hc
  obtain ⟨⟨hpos, hcolon⟩, hnext⟩ := hc
  obtain ⟨rfl, rfl⟩ := Prod.mk.inj (Option.some.inj h)
  obtain ⟨colon, value, hrest⟩ : ∃ colon value,
      skipBlanks (f.drop f.identifierLength) = colon :: value := by
    refine List.exists_cons_of_ne_nil ?_
    intro hnil
    simp [hnil, first?] at hcolon
  rw [hrest] at hcolon hnext ⊢
  have hword : chars (f.take f.identifierLength) = f.chars.takeWhile isWord := by
    rw [identifierLength] at hpos ⊢
    split at hpos
    · rename_i hstart
      rw [if_pos hstart, chars, List.map_take]
      exact (List.prefix_iff_eq_take.1 (List.takeWhile_prefix isWord)).symm
    · exact absurd rfl hpos
  have hlength : f.identifierLength ≤ f.length := by
    rw [identifierLength]
    split
    · rw [← length_chars f]
      exact (List.takeWhile_prefix isWord).length_le
    · exact Nat.zero_le _
  refine ⟨f.take f.identifierLength, (f.drop f.identifierLength).takeWhile Glyph.isBlank,
    colon, ?_, rfl, ?_, ?_, ?_, ?_, ?_⟩
  · rw [List.drop_succ_cons, List.drop_zero, ← hrest, skipBlanks,
      List.takeWhile_append_dropWhile, List.take_append_drop]
  · intro hnil
    have hzero := congrArg List.length hnil
    rw [List.length_take_of_le hlength, List.length_nil] at hzero
    exact hpos hzero
  · rw [hword]
    exact List.all_eq_true.1 List.all_takeWhile
  · exact allBlank_of_forall (List.all_eq_true.1 List.all_takeWhile)
  · simpa [first?] using hcolon
  · rintro c hc rfl
    exact hnext hc

/-! ### Words at the start -/

/-- The words that are searched for. -/
structure IsKeyword (word : String) : Prop where
  ne_nil : word.toList ≠ []
  word : ∀ c ∈ word.toList, isWord c = true

instance (word : String) : Decidable (IsKeyword word) :=
  decidable_of_iff (word.toList ≠ [] ∧ word.toList.all isWord = true)
    ⟨fun h => ⟨h.1, List.all_eq_true.1 h.2⟩,
      fun h => ⟨h.ne_nil, List.all_eq_true.2 h.word⟩⟩

/-- A keyword at the start of a name is not longer than the name. -/
lemma length_le_of_startsWith {word : String} {name : Fragment} (hk : IsKeyword word)
    (hr : ∀ c ∈ first? rest, isWord c = false)
    (h : startsWith word.toList (name ++ rest) = true) :
    word.length ≤ name.length ∧ word.toList <+: name.chars := by
  rw [startsWith, List.isPrefixOf_iff_prefix, chars_append] at h
  have hlen : word.toList.length ≤ name.chars.length := by
    by_contra hlt
    obtain ⟨tail, htail⟩ := List.prefix_of_prefix_length_le (List.prefix_append name.chars _) h
      (by omega)
    cases tail with
    | nil =>
      rw [List.append_nil] at htail
      simp [htail] at hlt
    | cons c cs =>
      have hword := hk.word c (by simp [← htail])
      rw [← htail, List.prefix_append_right_inj] at h
      obtain ⟨more, hmore⟩ := h
      have := hr c (by rw [first?_eq, ← hmore]; rfl)
      simp [this] at hword
  refine ⟨by rwa [String.length_toList, length_chars] at hlen, ?_⟩
  exact List.prefix_of_prefix_length_le h (List.prefix_append _ _) hlen

/-- A keyword at the start of a name, after which no name goes on, is the name. -/
lemma eq_of_startsWith {word : String} {name : Fragment} (hk : IsKeyword word)
    (hn : ∀ c ∈ name.chars, joinsName c = true) (hr : ∀ c ∈ first? rest, isWord c = false)
    (h : startsWith word.toList (name ++ rest) = true)
    (hnext : ∀ c ∈ first? ((name ++ rest).drop word.length), joinsName c = false) :
    name.chars = word.toList := by
  obtain ⟨hlen, tail, htail⟩ := length_le_of_startsWith hk hr h
  cases hdrop : name.drop word.length with
  | nil =>
    have hle := List.drop_eq_nil_iff.1 hdrop
    have hsum := congrArg List.length htail
    rw [List.length_append, String.length_toList, length_chars] at hsum
    have hnil : tail = [] := List.length_eq_zero_iff.1 (by omega)
    rw [← htail, hnil, List.append_nil]
  | cons g more =>
    have hjoin : joinsName g.skeleton = true :=
      hn _ (List.mem_map_of_mem (List.mem_of_mem_drop (hdrop ▸ List.mem_cons_self)))
    have := hnext g.skeleton (by rw [List.drop_append_of_le_length hlen, hdrop]; rfl)
    simp [this] at hjoin

/-- No keyword begins where no word begins. -/
lemma startsWith_of_first {word : String} (hk : IsKeyword word)
    (h : ∀ c ∈ first? f, isWord c = false) : startsWith word.toList f = false := by
  rw [← Bool.not_eq_true, startsWith, List.isPrefixOf_iff_prefix]
  rintro ⟨tail, htail⟩
  obtain ⟨c, cs, hc⟩ := List.exists_cons_of_ne_nil hk.ne_nil
  have hword := hk.word c (by simp [hc])
  rw [first?_eq, ← htail, hc] at h
  simp [h c rfl] at hword

end SwiftDependencies.Source.Fragment
