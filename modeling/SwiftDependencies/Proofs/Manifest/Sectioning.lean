import Mathlib.Tactic.Common
import SwiftDependencies.Proofs.Manifest.Initializer
import SwiftDependencies.Proofs.Manifest.Items
import SwiftDependencies.Proofs.Source.Hiding

/-!
# Sections and arguments

The arguments of the constructed package are read in a way of their own.  Their labels are searched
for among the characters in the parentheses, and a value is delimited from where its label is found.
Any other call is read by cutting what is in its parentheses at the commas, and each piece may begin
with a label.

This file compares the two on any text whose first `Package(` is closed and has only labelled
arguments.

* The search meets the same argument first, unless the label and a colon also stand in the value of
  an argument before it, outside the brackets of that value: the search does not know where a value
  ends (`Shows`, `section?_append_of_not_shows`).
* Of a value that begins with a group in round or square brackets the search takes that group only,
  and otherwise all of the value (`leading`, `term_argumentValue`).
* A group alone never reads as the same term as the group with more after it
  (`term_leading_eq_iff`).

The induction is on the items of a balanced fragment (`items_induction`).
-/

namespace SwiftDependencies

open Source Source.Fragment

namespace Source.Fragment

open Text (isNameStart isWord)

variable {label : String} {f value after rest : Fragment}

/-! ### What the two ways of reading are about -/

/-- What stands in the parentheses of the first constructed package, if they are closed. -/
def packageBody? (joined : Bool) : Fragment → Option Fragment
  | [] => none
  | g :: gs =>
    match if joined then none else afterPackage? (g :: gs) with
    | none => packageBody? (joinsName g.skeleton) gs
    | some body => (closingFrom? 1 body.chars).map fun n => body.take n

/-- The arguments that any call has with this in its parentheses. -/
def arguments (body : Fragment) : List (Option String × Term) :=
  body.items.map fun item => (item.argument.1, item.argument.2.term)

/-- Whether an argument has a label. -/
def hasLabel (label : String) (item : Fragment) : Bool :=
  item.argument.1 == some label

/-- The value of the first argument with a label. -/
def labelled? (label : String) (body : Fragment) : Option Fragment :=
  (body.items.find? (hasLabel label)).map fun item => item.argument.2

/-- Whether a label and its colon stand in a value outside brackets, where no name goes on. -/
def Shows (label : String) (value : Fragment) : Prop :=
  ∃ before place, value = before ++ place ∧ before.chars.foldl levelAfter 0 = 0 ∧
    before.chars.getLast?.any joinsName = false ∧ (afterLabel? label place).isSome = true

/-- The length of the group in round or square brackets that a fragment begins with. -/
def groupLength? (f : Fragment) : Option Nat :=
  if first? f == some '[' || first? f == some '(' then (closing? f.chars).map (· + 1) else none

/-- The group in round or square brackets that a value begins with, and otherwise all of the
value. -/
def leading (value : Fragment) : Fragment :=
  match groupLength? value.skipBlanks with
  | some n => value.skipBlanks.take n
  | none => value

/-- Whether nothing follows the group that a value begins with, if it begins with one. -/
def IsOneGroup (value : Fragment) : Prop :=
  ∀ n ∈ groupLength? value.skipBlanks, AllBlank (value.skipBlanks.drop n)

instance (label : String) (value : Fragment) : Decidable (Shows label value) :=
  decidable_of_iff (∃ n, n < value.length + 1 ∧
      (chars (value.take n)).foldl levelAfter 0 = 0 ∧
        (chars (value.take n)).getLast?.any joinsName = false ∧
          (afterLabel? label (value.drop n)).isSome = true) <| by
    constructor
    · rintro ⟨n, -, h⟩
      exact ⟨value.take n, value.drop n, (List.take_append_drop n value).symm, h⟩
    · rintro ⟨before, place, rfl, h⟩
      refine ⟨before.length, ?_, ?_⟩
      · rw [List.length_append]
        omega
      · rwa [List.take_left, List.drop_left]

instance (value : Fragment) : Decidable (IsOneGroup value) :=
  inferInstanceAs (Decidable (∀ n ∈ groupLength? value.skipBlanks,
    AllBlank (value.skipBlanks.drop n)))

/-- The reading of the constructed package goes over what stands in its parentheses. -/
lemma package?_of_packageBody? {joined : Bool} {body : Fragment}
    (h : packageBody? joined f = some body) :
    ∃ span, package? joined f = some ⟨sections body, span⟩ := by
  induction f generalizing joined with
  | nil => simp [packageBody?] at h
  | cons g gs ih =>
    rw [packageBody?] at h
    rw [package?]
    cases hafter : if joined then none else afterPackage? (g :: gs) with
    | none =>
      rw [hafter] at h
      exact ih h
    | some all =>
      rw [hafter] at h
      obtain ⟨n, hn, rfl⟩ := Option.map_eq_some_iff.1 h
      simp only [hn]
      exact ⟨_, rfl⟩

/-- The arguments of a construction are balanced and stand in the text. -/
lemma balanced_of_packageBody? {joined : Bool} {body : Fragment}
    (h : packageBody? joined f = some body) :
    Balanced (fun _ => True) body.chars ∧ body ⊆ f := by
  induction f generalizing joined with
  | nil => simp [packageBody?] at h
  | cons g gs ih =>
    rw [packageBody?] at h
    cases hafter : if joined then none else afterPackage? (g :: gs) with
    | none =>
      rw [hafter] at h
      obtain ⟨hbalanced, hsubset⟩ := ih h
      exact ⟨hbalanced, List.subset_cons_of_subset g hsubset⟩
    | some all =>
      rw [hafter] at h
      obtain ⟨n, hn, rfl⟩ := Option.map_eq_some_iff.1 h
      constructor
      · rw [chars, List.map_take]
        exact balanced_of_closingFrom? hn
      · have hall : all ⊆ g :: gs := by
          split at hafter
          · simp at hafter
          simp only [afterPackage?] at hafter
          split at hafter
          · obtain rfl := Option.some.inj hafter
            refine List.Subset.trans (List.drop_subset 1 _) ?_
            exact List.Subset.trans (List.dropWhile_sublist _).subset (List.drop_subset 7 _)
          · simp at hafter
        exact List.Subset.trans (List.take_subset n all) hall

/-! ### The search for a label -/

/-- A label that is found with something after it that shows no colon is found without it. -/
lemma isSome_afterLabel?_of_append (hl : IsKeyword label) (hr : EndsItem (skipBlanks rest))
    (h : (afterLabel? label (f ++ rest)).isSome = true) : (afterLabel? label f).isSome = true := by
  have hstops : Stops rest := by
    intro c hc
    rw [hr c hc]
    exact isWord_of_mem_signs (by decide)
  simp only [afterLabel?] at h ⊢
  split at h
  swap
  · simp at h
  rename_i hc
  simp only [Bool.and_eq_true, bne_iff_ne, ne_eq, beq_iff_eq] at hc
  obtain ⟨⟨hstart, hcolon⟩, hnext⟩ := hc
  obtain ⟨hlength, hprefix⟩ := length_le_of_startsWith hl hstops.not_word hstart
  rw [List.drop_append_of_le_length hlength] at hcolon hnext
  have hne : skipBlanks (f.drop label.length) ≠ [] := by
    intro hnil
    rw [skipBlanks_append (skipBlanks_eq_nil_iff.1 hnil)] at hcolon
    exact absurd (hr _ hcolon) (by decide)
  rw [skipBlanks_append_of_ne_nil hne] at hcolon hnext
  have hstart' : f.startsWith label.toList = true := List.isPrefixOf_iff_prefix.2 hprefix
  obtain ⟨colon, tail, hdrop⟩ := List.exists_cons_of_ne_nil hne
  rw [hdrop] at hcolon hnext ⊢
  have hnext' : first? tail ≠ some ':' := by
    intro htail
    cases tail with
    | nil => simp [first?] at htail
    | cons g tail => exact hnext htail
  have hcolon' : colon.skeleton = ':' := by simpa [first?] using hcolon
  rw [hstart', List.drop_succ_cons, List.drop_zero, bne_iff_ne.2 hnext']
  simp [first?, hcolon']

/-- The search passes over a value that does not show the label. -/
lemma section?_append_of_not_shows (hl : IsKeyword label) (hr : EndsItem (skipBlanks rest))
    (h : ¬Shows label value) :
    ∃ joined,
      (value ++ rest).section? label false 0 =
        rest.section? label joined (value.chars.foldl levelAfter 0) := by
  -- the state of the search at a place is known from what of the value is before it
  have hgo (before place : Fragment) (hv : value = before ++ place) :
      ∃ joined, section? label (before.chars.getLast?.any joinsName)
        (before.chars.foldl levelAfter 0)
        (place ++ rest) = section? label joined (value.chars.foldl levelAfter 0) rest := by
    induction place generalizing before with
    | nil =>
      rw [List.append_nil] at hv
      rw [hv]
      exact ⟨_, rfl⟩
    | cons g place ih =>
      obtain ⟨joined, hjoined⟩ := ih (before ++ [g]) (by rw [hv, List.append_assoc]; rfl)
      refine ⟨joined, ?_⟩
      rw [← hjoined, List.cons_append, section?_cons g]
      · simp [chars]
      · intro hjoin hlevel
        rw [Option.eq_none_iff_forall_ne_some]
        intro found hfound
        refine h ⟨before, g :: place, hv, hlevel, hjoin, ?_⟩
        refine isSome_afterLabel?_of_append hl hr ?_
        rw [List.cons_append, hfound]
        rfl
  exact hgo [] value rfl

/-- An argument that has another label, and does not show this one in its value, is passed over. -/
lemma section?_append_of_other {l : String} (hl : IsKeyword label)
    (hf : Balanced (· ≠ ',') f.chars) (hlabel : f.argument.1 = some l) (hne : l ≠ label)
    (h : ¬Shows label f.argument.2) (hr : EndsItem rest) :
    ∃ joined, section? label false 0 (f ++ rest) = section? label joined 0 rest := by
  have hvalue := balanced_argument hlabel hf
  obtain ⟨before, name, gap, colon, after, heq, hbefore, hname, hnil, hword, hgap,
      hcolon, -, hafter⟩ :=
    exists_of_argument hlabel
  have hjoins : ∀ c ∈ name.chars, joinsName c = true :=
    fun c hc => joinsName_of_isWord (hword c hc)
  have hends : EndsItem (skipBlanks (after ++ rest)) := by
    rwa [skipBlanks_append hafter, hr.skipBlanks]
  have hsplit : f ++ rest = before ++
      (name ++ (gap ++ colon :: (f.argument.2 ++ (after ++ rest)))) := by
    conv => lhs; rw [heq]
    simp
  have hother : afterLabel? label (name ++ (gap ++ colon :: (f.argument.2 ++ (after ++ rest)))) =
      none := by
    refine afterLabel?_of_ne hl hjoins ?_ ?_
    · exact .append hgap (stops_of_sign (c := ':') (by simp [first?, hcolon]) (by decide) rfl)
    · intro hchars
      apply hne
      rw [hname, hchars, String.ofList_toList]
  obtain ⟨j, hj⟩ :=
    Fragment.section?_signs hl true hgap.signs (colon :: (f.argument.2 ++ (after ++ rest)))
  obtain ⟨k, hk⟩ := section?_append_of_not_shows hl hends h
  obtain ⟨m, hm⟩ := section?_signs hl k hafter.signs rest
  refine ⟨m, ?_⟩
  have hsign : joinsName colon.skeleton = false := joinsName_of_mem_signs (by rw [hcolon]; decide)
  have hpass := section?_sign (f := f.argument.2 ++ (after ++ rest))
    hl j colon hsign (by rw [hcolon]; rfl)
    (by rw [hcolon]; rfl)
  rw [hsplit, section?_gap hl hbefore, section?_name hnil hjoins false fun _ => hother, hj, hpass,
    hk, hvalue.foldl_levelAfter, hm]

/-! ### The value that is delimited -/

/-- The value of an argument is a group in brackets, if one begins it, and else all that comes
before a comma. -/
lemma argumentValue_eq (f : Fragment) :
    argumentValue f =
      match groupLength? f with
      | some n => f.take n
      | none => untilSeparator (·.skeleton) (· == ',') 0 f := by
  unfold argumentValue groupLength?
  split <;> rename_i h
  · split at h
    · rw [if_pos ‹_›, h]
      rfl
    · simp at h
  · split at h
    · rw [if_pos ‹_›, h]
      rfl
    · rw [if_neg ‹_›]

/-- A group that a balanced fragment begins with. -/
lemma exists_of_groupLength? {p : Char → Prop} {n : Nat} (hf : Balanced p f.chars)
    (h : groupLength? f = some n) :
    ∃ (o : Glyph) (inner : Fragment) (c : Glyph) (more : Fragment),
      f = o :: (inner ++ c :: more) ∧ (o.skeleton = '[' ∨ o.skeleton = '(') ∧
      isCloser c.skeleton = true ∧ Balanced (fun _ => True) inner.chars ∧
      n = inner.length + 2 := by
  unfold groupLength? at h
  split at h
  swap
  · simp at h
  rename_i hfirst
  obtain ⟨m, hm, rfl⟩ := Option.map_eq_some_iff.1 h
  cases f with
  | nil => simp [first?] at hfirst
  | cons o f =>
    have ho : o.skeleton = '[' ∨ o.skeleton = '(' := by simpa [first?] using hfirst
    have opens : isOpener o.skeleton = true := by rcases ho with ho | ho <;> simp [ho, isOpener]
    obtain ⟨inner, c, more, hchars, closes, hinner, -⟩ := Balanced.exists_group opens hf
    obtain ⟨inner, tail, rfl, rfl, htail⟩ := List.map_eq_append_iff.1 hchars
    obtain ⟨c, more, rfl, rfl, rfl⟩ := List.map_eq_cons_iff.1 htail
    refine ⟨o, inner, c, more, rfl, ho, closes, hinner, ?_⟩
    have hclosing := closing?_enclosed opens closes hinner (more.map (·.skeleton))
    have hsame : chars (o :: (inner ++ c :: more)) =
        o.skeleton :: (inner.map (·.skeleton) ++ c.skeleton :: more.map (·.skeleton)) := by
      simp [chars]
    rw [hsame, hclosing, Option.some.injEq, List.length_map] at hm
    omega

/-- What follows does not change the group that a fragment begins with. -/
lemma groupLength?_append {p : Char → Prop} (hf : Balanced p f.chars) (hne : f ≠ [])
    (rest : Fragment) :
    groupLength? (f ++ rest) = groupLength? f := by
  have hfirst : first? (f ++ rest) = first? f := by
    cases f with
    | nil => exact absurd rfl hne
    | cons g f => rfl
  cases f with
  | nil => exact absurd rfl hne
  | cons o f =>
    rcases Bool.eq_false_or_eq_true (isOpener o.skeleton) with opens | opens
    · obtain ⟨inner, c, more, hchars, closes, hinner, -⟩ := Balanced.exists_group opens hf
      have hone := closing?_enclosed opens closes hinner more
      have hall := closing?_enclosed opens closes hinner (more ++ rest.chars)
      rw [groupLength?, groupLength?, hfirst]
      have hleft : chars (o :: f ++ rest) = o.skeleton :: (inner ++ c :: (more ++ rest.chars)) := by
        rw [chars_append, chars, List.map_cons, hchars]
        simp
      have hright : chars (o :: f) = o.skeleton :: (inner ++ c :: more) := congrArg _ hchars
      rw [hleft, hright, hone, hall]
    · have hnone : (first? (o :: f) == some '[' || first? (o :: f) == some '(') = false := by
        rw [Bool.or_eq_false_iff]
        constructor <;> rw [beq_eq_false_iff_ne] <;> intro h
        all_goals
          simp only [first?, List.head?_cons, Option.map_some, Option.some.injEq] at h
          rw [h] at opens
          exact absurd opens (by decide)
      rw [groupLength?, groupLength?, hfirst, hnone]
      rfl

/-- A balanced fragment stays so without the blanks in front. -/
lemma balanced_skipBlanks {p : Char → Prop} (hf : Balanced p f.chars) :
    Balanced p (skipBlanks f).chars := by
  refine Balanced.of_append_left (a := chars (f.takeWhile Glyph.isBlank)) ?_ ?_
  · have hblank : AllBlank (f.takeWhile Glyph.isBlank) :=
      allBlank_of_forall (List.all_eq_true.1 List.all_takeWhile)
    exact fun c hc => (hblank.signs c hc).2
  · rw [← chars_append, skipBlanks, List.takeWhile_append_dropWhile]
    exact hf

/-- What is delimited of a value reads as the group that the value begins with, or else as the
value. -/
lemma term_argumentValue (hv : Balanced (· ≠ ',') value.chars) (ha : AllBlank after)
    (hr : EndsItem rest) :
    term (argumentValue (skipBlanks (value ++ (after ++ rest)))) = term value.leading := by
  by_cases hnil : skipBlanks value = []
  · have hblank := skipBlanks_eq_nil_iff.1 hnil
    have hnone : argumentValue rest = [] := by
      have hgroup : groupLength? rest = none := by
        rw [groupLength?, if_neg]
        simp only [Bool.or_eq_true, beq_iff_eq]
        rintro (h | h) <;> exact absurd (hr _ h) (by decide)
      rw [argumentValue_eq, hgroup]
      exact untilSeparator_item (f := []) (p := (· ≠ ',')) .nil (fun _ h => h) hr
    have hleading : value.leading = value := by simp [leading, hnil, groupLength?, first?]
    rw [skipBlanks_append hblank, skipBlanks_append ha, hr.skipBlanks, hnone, hleading, term_eq,
      term_eq, trimmed_of_allBlank hblank, trimmed_of_allBlank allBlank_nil]
  · have hskip := balanced_skipBlanks hv
    rw [skipBlanks_append_of_ne_nil hnil, argumentValue_eq, groupLength?_append hskip hnil, leading]
    cases hgroup : groupLength? (skipBlanks value) with
    | some n =>
      obtain ⟨o, inner, c, more, heq, -, -, -, rfl⟩ := exists_of_groupLength? hskip hgroup
      have hle : inner.length + 2 ≤ (skipBlanks value).length := by
        rw [heq]
        simp only [List.length_cons, List.length_append]
        omega
      simp only [List.take_append_of_le_length hle]
    | none =>
      have hwhole : Balanced (· ≠ ',') (chars (skipBlanks value ++ after)) := by
        rw [chars_append]
        refine hskip.append (.of_forall fun c hc =>
          ⟨(ha.signs c hc).2.1, (ha.signs c hc).2.2, ?_⟩)
        rintro rfl
        exact absurd (ha _ hc) (by decide)
      simp only [← List.append_assoc, untilSeparator_item hwhole (fun _ h => h) hr]
      rw [term_eq, term_eq, trimmed_append_blank ha, trimmed_skipBlanks]

/-- The search finds the value of an argument with the label. -/
lemma section?_append_of_label (hl : IsKeyword label) (hf : Balanced (· ≠ ',') f.chars)
    (hlabel : f.argument.1 = some label) (hr : EndsItem rest) :
    (section? label false 0 (f ++ rest)).map term = some f.argument.2.leading.term := by
  have hvalue := balanced_argument hlabel hf
  obtain ⟨before, name, gap, colon, after, heq, hbefore, hname, hnil, hword, hgap, hcolon,
      hv, hafter⟩ :=
    exists_of_argument hlabel
  have hsplit : f ++ rest = before ++
      (name ++ gap ++ colon :: (f.argument.2 ++ (after ++ rest))) := by
    conv => lhs; rw [heq]
    simp
  have hchars : name.chars = label.toList := by rw [hname, String.toList_ofList]
  have havoids : Avoids ':' (f.argument.2 ++ (after ++ rest)) := by
    cases hcases : f.argument.2 with
    | cons g v => exact fun c hc => hv c (by rw [hcases]; exact hc)
    | nil =>
      intro c hc
      cases after with
      | nil => rw [hr c hc]; decide
      | cons g after =>
        rintro rfl
        have : Text.isBlank ':' = true := by
          rw [← Option.some.inj hc]
          exact hafter.isBlank g List.mem_cons_self
        exact absurd this (by decide)
  have hfound := afterLabel?_eq hchars hgap hcolon havoids
  rw [hsplit, section?_gap hl hbefore, section?_of_label hfound (by simp), Option.map_some,
    term_argumentValue hvalue hafter hr]

/-- The search in an item and what follows it, from what the search in the rest finds. -/
lemma section?_item {others : List Fragment} (hl : IsKeyword label)
    (hf : Balanced (· ≠ ',') f.chars) (hr : EndsItem rest)
    (hlabels : ∀ item ∈ itemOf f, item.argument.1.isSome = true)
    (hshows : ∀ item ∈ (itemOf f ++ others).takeWhile fun item => !item.hasLabel label,
      ¬Shows label item.argument.2)
    (hrest : (∀ item ∈ others.takeWhile fun item => !item.hasLabel label,
        ¬Shows label item.argument.2) → ∀ joined, (section? label joined 0 rest).map term =
      (others.find? (hasLabel label)).map fun item =>
        item.argument.2.leading.term) :
    (section? label false 0 (f ++ rest)).map term =
      ((itemOf f ++ others).find? (hasLabel label)).map fun item =>
        item.argument.2.leading.term := by
  rw [itemOf] at hlabels hshows ⊢
  split at hlabels <;> rename_i hblank
  · have hgap : AllBlank f := allBlank_of_forall (List.all_eq_true.1 hblank)
    rw [if_pos hblank, List.nil_append] at hshows ⊢
    rw [section?_gap hl hgap]
    exact hrest hshows false
  · rw [if_neg hblank, List.singleton_append] at hshows ⊢
    obtain ⟨l, hlabel⟩ := Option.isSome_iff_exists.1 (hlabels f List.mem_cons_self)
    by_cases heq : l = label
    · subst heq
      rw [section?_append_of_label hl hf hlabel hr,
        List.find?_cons_of_pos (by simp [hasLabel, hlabel])]
      rfl
    · have hnot : hasLabel label f = false := by simp [hasLabel, hlabel, heq]
      rw [List.takeWhile_cons_of_pos (by simp [hnot])] at hshows
      obtain ⟨j, hj⟩ :=
        Fragment.section?_append_of_other hl hf hlabel heq (hshows f List.mem_cons_self) hr
      rw [hj, List.find?_cons_of_neg (by simp [hnot])]
      exact hrest (fun item hitem => hshows item (List.mem_cons_of_mem f hitem)) j

/-- The search for a label in a row of labelled arguments finds the first one that has it, unless
the label shows in the value of one before. -/
theorem section?_items (hl : IsKeyword label) :
    ∀ body : Fragment, Balanced (fun _ => True) body.chars →
    (∀ item ∈ body.items, item.argument.1.isSome = true) →
    (∀ item ∈ body.items.takeWhile fun item => !item.hasLabel label,
      ¬Shows label item.argument.2) →
    (section? label false 0 body).map term =
      (body.items.find? (hasLabel label)).map fun item =>
        item.argument.2.leading.term := by
  refine items_induction ?_ ?_
  · intro f hf hlabels hshows
    have hend : EndsItem [] := by simp [EndsItem, first?]
    have hitems : f.items = itemOf f := items_of_balanced hf fun _ h => h
    rw [hitems] at hlabels hshows ⊢
    have hothers : ∀ joined, (section? label joined 0 []).map term =
        (([] : List Fragment).find? (hasLabel label)).map fun item =>
          item.argument.2.leading.term :=
      fun _ => rfl
    have hitem := section?_item hl hf hend hlabels (by rwa [List.append_nil]) fun _ => hothers
    rwa [List.append_nil, List.append_nil] at hitem
  · intro f comma rest hf hcomma ih hlabels hshows
    have hend : EndsItem (comma :: rest) := by
      intro c hc
      obtain rfl : comma.skeleton = c := Option.some.inj hc
      exact hcomma
    have hsign : joinsName comma.skeleton = false := joinsName_of_mem_signs (by rw [hcomma]; decide)
    rw [items_append_comma hf (fun _ h => h) hcomma rest] at hlabels hshows ⊢
    refine section?_item hl hf hend (fun item hitem => hlabels item (List.mem_append_left _ hitem))
      hshows ?_
    intro hothers joined
    rw [section?_sign hl joined comma hsign (by rw [hcomma]; rfl) (by rw [hcomma]; rfl)]
    exact ih (fun item hitem => hlabels item (List.mem_append_right _ hitem)) hothers

/-! ### Groups and what follows them -/

/-- Whether the literals of a fragment begin with marks, as all those of a text do. -/
def Marked (f : Fragment) : Prop :=
  ∀ g ∈ f, g.literalLength ≠ 0 → IsMark g.skeleton

/-- Only the first glyph of a literal says how long it is. -/
lemma eq_of_mem_glyphsOf {cs ss : List Char} {line depth n : Nat} {g : Glyph}
    (hg : g ∈ glyphsOf line depth n cs ss) (hn : g.literalLength ≠ 0) :
    g.literalLength = n ∧ ss.head? = some g.skeleton := by
  cases cs with
  | nil => simp [glyphsOf] at hg
  | cons c cs =>
    cases ss with
    | nil => simp [glyphsOf] at hg
    | cons s ss =>
      rw [glyphsOf] at hg
      rcases List.mem_cons.1 hg with rfl | hg
      · exact ⟨rfl, rfl⟩
      · have hzero (cs ss : List Char) (line depth : Nat) :
            ∀ g ∈ glyphsOf line depth 0 cs ss, g.literalLength = 0 := by
          induction ss generalizing cs line depth with
          | nil => cases cs <;> simp [glyphsOf]
          | cons s ss ih =>
            cases cs with
            | nil => simp [glyphsOf]
            | cons c cs =>
              intro g hg
              rw [glyphsOf] at hg
              rcases List.mem_cons.1 hg with rfl | hg
              · rfl
              · exact ih _ _ _ g hg
        exact absurd (hzero _ _ _ _ g hg) hn

/-- The literals of a text begin with marks. -/
lemma marked_glyphs (cs : List Char) : Marked (glyphs cs) := by
  have hgo (xs : List Lexeme) (hxs : ∀ x ∈ xs, x.HasMarks) (line depth : Nat) :
      Marked (glyphsFrom line depth xs) := by
    induction xs generalizing line depth with
    | nil => simp [Marked]
    | cons x xs ih =>
      intro g hg hn
      rw [glyphsFrom] at hg
      rcases List.mem_append.1 hg with hg | hg
      · obtain ⟨hlength, hfirst⟩ := eq_of_mem_glyphsOf hg hn
        have hx := hxs x List.mem_cons_self
        cases x with
        | code c => exact absurd hlength hn
        | comment text closed => exact absurd hlength hn
        | literal text closed =>
          obtain ⟨c, hc, hmark⟩ := hx.1
          have hsame : (blankInside text).head? = text.head? := by
            rcases text with _ | ⟨c, _ | ⟨d, text⟩⟩ <;> rfl
          rw [Lexeme.skeleton, hsame, Option.mem_def.1 hc, Option.some.injEq] at hfirst
          rwa [← hfirst]
      · exact ih (fun y hy => hxs y (List.mem_cons_of_mem x hy)) _ _ g hg hn
  exact hgo (lexemes cs) (fun x hx => Lexeme.hasMarks hx) 1 0

/-- A fragment that begins with a round or square bracket is an array or is not interpreted. -/
lemma termOf_bracket {o : Glyph} (ho : o.skeleton = '[' ∨ o.skeleton = '(')
    (hl : o.literalLength = 0) (f : Fragment) :
    termOf (o :: f) =
      if o.skeleton = '[' ∧ closing? (chars (o :: f)) = some f.length then
        .array ((inside 1 (o :: f)).items.map term) (spanOf (o :: f))
      else .unknown (String.ofList (cleanText (o :: f))) (spanOf (o :: f)) := by
  have hword : isWord o.skeleton = false := by
    rcases ho with ho | ho <;> rw [ho] <;> exact isWord_of_mem_signs (by decide)
  have hname : identifierLength (o :: f) ≠ (o :: f).length :=
    identifierLength_ne (c := o.skeleton) (by simp [chars]) hword
  have hcallee : calleeLength? (o :: f) = none := by
    have hdot : (first? (o :: f) == some '.') = false := by
      rcases ho with ho | ho <;> simp [first?, ho]
    have hstart : isNameStart o.skeleton = false := by
      rcases ho with ho | ho <;> rw [ho] <;> decide +kernel
    rw [calleeLength?, hdot]
    simp [first?, hstart]
  rw [termOf]
  simp only [hl, hname, hcallee, if_false]
  rw [if_neg (by simp)]
  rfl

/-- A group and the group with more after it are never the same term. -/
lemma termOf_group_ne {o c : Glyph} {inner more : Fragment}
    (ho : o.skeleton = '[' ∨ o.skeleton = '(') (hl : o.literalLength = 0)
    (hc : isCloser c.skeleton = true) (hin : Balanced (fun _ => True) inner.chars)
    (hmore : more ≠ []) :
    termOf (o :: (inner ++ [c])) ≠ termOf (o :: (inner ++ c :: more)) := by
  have opens : isOpener o.skeleton = true := by rcases ho with ho | ho <;> simp [ho, isOpener]
  have hclosing (f : Fragment) : closing? (chars (o :: (inner ++ c :: f))) =
      some (inner.length + 1) := by
    have := closing?_enclosed opens hc hin f.chars
    rw [length_chars] at this
    simpa [chars] using this
  have hlonger : (inner ++ [c]).length < (inner ++ c :: more).length := by
    have := List.length_pos_iff.2 hmore
    simp only [List.length_append, List.length_cons, List.length_nil]
    omega
  have hopen : ¬(o.skeleton = '[' ∧
      closing? (chars (o :: (inner ++ c :: more))) = some (inner ++ c :: more).length) := by
    rintro ⟨-, h⟩
    rw [hclosing, Option.some.injEq] at h
    simp only [List.length_append, List.length_cons, List.length_nil] at hlonger h
    omega
  rw [termOf_bracket ho hl, termOf_bracket ho hl, if_neg hopen]
  split
  · exact fun h => Term.noConfusion h
  · intro h
    have htext := congrArg String.toList (Term.unknown.inj h).1
    rw [String.toList_ofList, String.toList_ofList] at htext
    have hlength := congrArg List.length htext
    simp only [cleanText, List.length_map, List.length_cons] at hlength
    omega

/-- The group that a value begins with reads as the value exactly if it is all of the value. -/
theorem term_leading_eq_iff {p : Char → Prop} (hm : Marked value) (hv : Balanced p value.chars) :
    value.leading.term = value.term ↔ IsOneGroup value := by
  unfold leading IsOneGroup
  cases hgroup : groupLength? (skipBlanks value) with
  | none => simp
  | some n =>
    obtain ⟨o, inner, c, more, heq, ho, hc, hin, rfl⟩ :=
      exists_of_groupLength? (balanced_skipBlanks hv) hgroup
    have hclose : Text.isBlank c.skeleton = false := by
      rw [← Bool.not_eq_true]
      intro h
      have := isCloser_of_isBlank h
      rw [hc] at this
      exact absurd this (by decide)
    have hopen : Text.isBlank o.skeleton = false := by rcases ho with ho | ho <;> rw [ho] <;> decide
    have hsplit : skipBlanks value = o :: (inner ++ [c]) ++ more := by rw [heq]; simp
    have hlength : (o :: (inner ++ [c])).length = inner.length + 2 := by simp
    have hsolid : Solid (chars (o :: (inner ++ [c]))) := by
      refine ⟨⟨o.skeleton, rfl, hopen⟩, c.skeleton, ?_, hclose⟩
      rw [chars, List.map_cons, List.map_append, ← List.cons_append]
      exact List.getLast?_concat
    have hvalue : term value = termOf (trimmed (o :: (inner ++ [c]) ++ more)) := by
      rw [term_eq, ← trimmed_skipBlanks, hsplit]
    simp only [Option.mem_def, Option.some.injEq, forall_eq']
    rw [hsplit, ← hlength, List.take_left, List.drop_left, term_eq,
      trimmed_of_solid hsolid, hvalue]
    constructor
    · intro hsame
      by_contra hblank
      obtain ⟨rest, hrest, htrimmed⟩ :=
        exists_trimmed_append (f := o :: (inner ++ [c])) ⟨o, rfl, hopen⟩ hblank
      rw [htrimmed, List.cons_append, List.append_assoc, List.singleton_append] at hsame
      have hcode : o.literalLength = 0 := by
        by_contra hlit
        have ho' : o ∈ value := (List.dropWhile_sublist _).subset (heq ▸ List.mem_cons_self)
        rcases ho with ho | ho <;> rcases hm o ho' hlit with h | h <;> rw [ho] at h <;>
          exact absurd h (by decide)
      exact termOf_group_ne ho hcode hc hin hrest hsame
    · intro hblank
      rw [trimmed_append_blank hblank, trimmed_of_solid hsolid]

end Source.Fragment

/-! ### The sections of a text -/

/-- In a text whose first `Package(` is closed and has labelled arguments only, what the package is
read to have for a label is the first argument that has the label: the group in round or square
brackets that its value begins with, or else the value. So this is what any other call with these
arguments is read to have for the label exactly if that group, where there is one, is all of the
value. It is assumed that the label and a colon do not show in the value of an argument before. -/
theorem argument?_sections_eq (cs : List Char) {body : Fragment} {label : String}
    (hbody : packageBody? false (glyphs cs) = some body)
    (hlabels : ∀ item ∈ body.items, item.argument.1.isSome = true)
    (hl : label ∈ sectionLabels)
    (hshows : ∀ item ∈ body.items.takeWhile fun item => !item.hasLabel label,
      ¬Shows label item.argument.2) :
    ∃ call, (Manifest.ofSections cs).call = some call ∧
      Term.argument? call.arguments label =
        (labelled? label body).map (fun value => value.leading.term) ∧
      (Term.argument? call.arguments label = Term.argument? body.arguments label ↔
        ∀ value ∈ labelled? label body, IsOneGroup value) := by
  obtain ⟨hbalanced, hsubset⟩ := balanced_of_packageBody? hbody
  obtain ⟨span, hcall⟩ := package?_of_packageBody? hbody
  have hsection : Term.argument? (sections body) label =
      (labelled? label body).map fun value => value.leading.term := by
    rw [argument?_sections body hl,
      Fragment.section?_items (isKeyword_sectionLabels label hl) body hbalanced hlabels hshows,
      labelled?, Option.map_map]
    rfl
  have harguments : Term.argument? body.arguments label = (labelled? label body).map term := by
    rw [Term.argument?, arguments, List.find?_map, labelled?, Option.map_map, Option.map_map]
    rfl
  refine ⟨_, hcall, hsection, ?_⟩
  rw [hsection, harguments]
  cases hfound : labelled? label body with
  | none => simp
  | some value =>
    obtain ⟨item, hitem, rfl⟩ := Option.map_eq_some_iff.1 hfound
    have hmem := List.mem_of_find?_eq_some hitem
    have hlabel : item.argument.1 = some label := by simpa [hasLabel] using List.find?_some hitem
    have hmarked : Marked item.argument.2 := by
      intro g hg
      exact marked_glyphs cs g (hsubset (subset_of_mem_items hmem (item.argument_subset hg)))
    have hvalue := balanced_argument hlabel (balanced_of_mem_items hbalanced hmem)
    simp only [Option.map_some, Option.some.injEq, Option.mem_def, forall_eq']
    exact term_leading_eq_iff hmarked hvalue

/-- An array and what a condition chooses, each in an argument with its own label. -/
theorem argument?_sections_eq_array :
    ∃ body call, packageBody? false (glyphs "Package(name: n, targets: [a, f(b)])".toList) =
      some body ∧
      (Manifest.ofSections "Package(name: n, targets: [a, f(b)])".toList).call = some call ∧
      Term.argument? call.arguments "targets" = Term.argument? body.arguments "targets" := by
  have hbody :
      packageBody? false (glyphs "Package(name: n, targets: [a, f(b)])".toList) =
        some
          ((packageBody? false (glyphs "Package(name: n, targets: [a, f(b)])".toList)).getD []) := by
    decide +kernel
  obtain ⟨call, hcall, -, hsame⟩ :=
    argument?_sections_eq "Package(name: n, targets: [a, f(b)])".toList
    hbody (by decide +kernel) (show "targets" ∈ sectionLabels by decide) (by decide +kernel)
  refine ⟨_, call, hbody, hcall, hsame.2 ?_⟩
  decide +kernel

/-- The sum of two arrays is read as the first of them, and a label that shows in the value of
another argument is read from there. -/
theorem argument?_sections_ne :
    (∃ body call, packageBody? false (glyphs "Package(targets: [a] + [b])".toList) = some body ∧
      (∀ item ∈ body.items, item.argument.1.isSome = true) ∧
      (Manifest.ofSections "Package(targets: [a] + [b])".toList).call = some call ∧
      Term.argument? call.arguments "targets" ≠ Term.argument? body.arguments "targets") ∧
    ∃ body call, packageBody? false (glyphs "Package(name: c ? targets : other)".toList) =
      some body ∧
      (∀ item ∈ body.items, item.argument.1.isSome = true) ∧
      (Manifest.ofSections "Package(name: c ? targets : other)".toList).call = some call ∧
      Term.argument? call.arguments "targets" ≠ Term.argument? body.arguments "targets" := by
  constructor
  · have hbody : packageBody? false (glyphs "Package(targets: [a] + [b])".toList) =
        some ((packageBody? false (glyphs "Package(targets: [a] + [b])".toList)).getD []) := by
      decide +kernel
    obtain ⟨span, hcall⟩ := package?_of_packageBody? hbody
    refine ⟨_, _, hbody, by decide +kernel, hcall, ?_⟩
    have harray : (Term.argument? (sections ((packageBody? false (glyphs
        "Package(targets: [a] + [b])".toList)).getD [])) "targets").map Term.isArray ≠
          (Term.argument? (arguments ((packageBody? false (glyphs
            "Package(targets: [a] + [b])".toList)).getD [])) "targets").map Term.isArray := by
      decide +kernel
    exact fun h => harray (congrArg (Option.map Term.isArray) h)
  · have hbody :
        packageBody? false (glyphs "Package(name: c ? targets : other)".toList) =
          some
            ((packageBody? false (glyphs "Package(name: c ? targets : other)".toList)).getD []) := by
      decide +kernel
    obtain ⟨span, hcall⟩ := package?_of_packageBody? hbody
    refine ⟨_, _, hbody, by decide +kernel, hcall, ?_⟩
    have hsome : (Term.argument? (sections ((packageBody? false (glyphs
        "Package(name: c ? targets : other)".toList)).getD [])) "targets").isSome ≠
          (Term.argument? (arguments ((packageBody? false (glyphs
            "Package(name: c ? targets : other)".toList)).getD [])) "targets").isSome := by
      decide +kernel
    exact fun h => hsome (congrArg Option.isSome h)

end SwiftDependencies
