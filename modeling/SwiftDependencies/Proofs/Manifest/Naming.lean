import Mathlib.Data.Option.Basic
import Mathlib.Tactic.Common
import SwiftDependencies.Manifest.Interpretation

/-!
# Where the name of a package comes from

Three places may name a package: a string constant called `name`, the argument `name` of the
constructed package, and the first text of the form `name: "..."`, wherever it stands.  The first of
the three that is there decides, even if the name that it gives is empty.

`Manifest.Names` says this without the searches.  A text of the form `name: "..."` is described by
its parts (`BeginsWithName`), and it counts where no word goes on (`WritesNameAt`).
-/

namespace SwiftDependencies.Manifest

open Source (Span)

variable {m : Manifest} {name : String} {cs body before rest : List Char}

/-! ### A written name -/

/-- The characters that a name in quotes may have. -/
def IsPlain (c : Char) : Prop :=
  c ≠ '"' ∧ c ≠ '\\' ∧ c ≠ '\n'

/-- A text begins with `name: "..."`, with any blanks around the colon, and `body` is what is in the
quotes. -/
def BeginsWithName (cs body : List Char) : Prop :=
  ∃ gap space rest, cs = "name".toList ++
    (gap ++ ':' :: (space ++ '"' :: (body ++ '"' :: rest))) ∧
    (∀ c ∈ gap, Text.isBlank c = true) ∧ (∀ c ∈ space, Text.isBlank c = true) ∧
    body ≠ [] ∧ ∀ c ∈ body, IsPlain c

/-- Such a text stands at an offset, and no word goes on there. -/
def WritesNameAt (cs : List Char) (i : Nat) (body : List Char) : Prop :=
  BeginsWithName (cs.drop i) body ∧ ∀ c ∈ (cs.take i).getLast?, Text.isWord c = false

/-- The first such text. -/
def FirstWritten (cs body : List Char) : Prop :=
  ∃ i, WritesNameAt cs i body ∧ ∀ j < i, ∀ other, ¬WritesNameAt cs j other

/-- A text that begins with some characters and goes on with one of another kind. -/
lemma exists_of_head?_dropWhile {p : Char → Bool} {c : Char}
    (h : (cs.dropWhile p).head? = some c) :
    ∃ gap rest, cs = gap ++ c :: rest ∧ (∀ d ∈ gap, p d = true) ∧
      cs.dropWhile p = c :: rest := by
  obtain ⟨rest, hrest⟩ := List.head?_eq_some_iff.1 h
  refine ⟨cs.takeWhile p, rest, ?_, List.all_eq_true.1 List.all_takeWhile, hrest⟩
  rw [← hrest, List.takeWhile_append_dropWhile]

/-- What is dropped ends before the first character that is not to be dropped. -/
lemma dropWhile_append_cons {p : Char → Bool} {gap : List Char} (hgap : ∀ d ∈ gap, p d = true)
    {c : Char} (hc : p c = false) (rest : List Char) :
    (gap ++ c :: rest).dropWhile p = c :: rest := by
  rw [List.dropWhile_append_of_pos hgap, List.dropWhile_cons_of_neg (by simp [hc])]

/-- What is taken ends before the first character that is not to be taken. -/
lemma takeWhile_append_cons {p : Char → Bool} {gap : List Char} (hgap : ∀ d ∈ gap, p d = true)
    {c : Char} (hc : p c = false) (rest : List Char) : (gap ++ c :: rest).takeWhile p = gap := by
  rw [List.takeWhile_append_of_pos hgap, List.takeWhile_cons_of_neg (by simp [hc]), List.append_nil]

/-- The test for the characters of a name says what it is meant to say. -/
lemma isPlain_iff {c : Char} : (c != '"' && c != '\\' && c != '\n') = true ↔ IsPlain c := by
  simp [IsPlain, and_assoc]

/-- What the pattern matches is of the form. -/
lemma beginsWithName_of_quotedAfterName? (h : quotedAfterName? cs = some body) :
    BeginsWithName cs body := by
  simp only [quotedAfterName?, Option.bind_eq_bind, Option.bind_eq_some_iff, Option.guard_eq_some',
    exists_const, beq_iff_eq, Bool.and_eq_true, Bool.not_eq_true', List.isPrefixOf_iff_prefix] at h
  obtain ⟨hname, hcolon, hquote, ⟨hne, hend⟩, hbody⟩ := h
  obtain rfl := Option.some.inj hbody
  obtain ⟨afterName, rfl⟩ := hname
  obtain ⟨gap, afterColon, hgap, hblank, hafterColon⟩ := exists_of_head?_dropWhile hcolon
  rw [hafterColon] at hquote hne hend ⊢
  obtain ⟨space, quoted, hspace, hspaced, hquoted⟩ := exists_of_head?_dropWhile hquote
  rw [hquoted] at hne hend ⊢
  rw [List.drop_succ_cons, List.drop_zero] at hne hend ⊢
  obtain ⟨rest, hrest⟩ := List.head?_eq_some_iff.1 hend
  have htake := List.prefix_iff_eq_take.1 (List.takeWhile_prefix (l := quoted)
    fun c => c != '"' && c != '\\' && c != '\n')
  have hsplit : quoted = quoted.takeWhile (fun c => c != '"' && c != '\\' && c != '\n') ++
      '"' :: rest := by
    rw [← hrest, htake, List.length_take_of_le (List.takeWhile_prefix _).length_le,
      List.take_append_drop]
  refine ⟨gap, space, rest, ?_, hblank, hspaced, ?_, ?_⟩
  · rw [← hsplit, ← hspace, List.drop_succ_cons, List.drop_zero, ← hgap]
    rfl
  · intro hnil
    simp [hnil] at hne
  · exact fun c hc => isPlain_iff.1 (List.all_eq_true.1 List.all_takeWhile c hc)

/-- The pattern matches what is of the form. -/
lemma BeginsWithName.quotedAfterName?_eq (h : BeginsWithName cs body) :
    quotedAfterName? cs = some body := by
  obtain ⟨gap, space, rest, rfl, hgap, hspace, hne, hbody⟩ := h
  have hcolon := dropWhile_append_cons hgap (c := ':') (by decide)
    (space ++ '"' :: (body ++ '"' :: rest))
  have hquote := dropWhile_append_cons hspace (c := '"') (by decide) (body ++ '"' :: rest)
  have htake := takeWhile_append_cons (p := fun c => c != '"' && c != '\\' && c != '\n')
    (fun c hc => isPlain_iff.2 (hbody c hc)) (c := '"') (by decide) rest
  have hname : ("name".toList ++ (gap ++ ':' :: (space ++ '"' :: (body ++ '"' :: rest)))).drop 4 =
      gap ++ ':' :: (space ++ '"' :: (body ++ '"' :: rest)) := List.drop_left' rfl
  have hprefix : "name".toList.isPrefixOf
      ("name".toList ++ (gap ++ ':' :: (space ++ '"' :: (body ++ '"' :: rest)))) = true :=
    List.isPrefixOf_iff_prefix.2 (List.prefix_append _ _)
  simp only [quotedAfterName?, hname, hcolon, hquote, htake, hprefix, List.drop_succ_cons,
    List.drop_zero, List.head?_cons, List.drop_left]
  have hempty : body.isEmpty = false := by rwa [← Bool.not_eq_true, List.isEmpty_iff]
  simp [hempty, guard]

/-- The search in front of a text finds the name that the text begins with. -/
lemma quotedAfterName?_eq_some_iff : quotedAfterName? cs = some body ↔ BeginsWithName cs body :=
  ⟨beginsWithName_of_quotedAfterName?, BeginsWithName.quotedAfterName?_eq⟩

/-- A name is written behind a part of the text if the rest begins with it and no word goes on
there. -/
lemma writesNameAt_length_iff :
    WritesNameAt (before ++ rest) before.length body ↔
      BeginsWithName rest body ∧ before.getLast?.any Text.isWord = false := by
  rw [WritesNameAt, List.drop_left, List.take_left]
  cases before.getLast? <;> simp

/-- From a place on the search finds the first name that is written, if there is one. -/
lemma writtenName?_of (before rest : List Char) :
    match writtenName? (before.getLast?.any Text.isWord) rest with
    | some body => ∃ i, before.length ≤ i ∧ WritesNameAt (before ++ rest) i body ∧
        ∀ j, before.length ≤ j → j < i → ∀ other, ¬WritesNameAt (before ++ rest) j other
    | none =>
      ∀ j, before.length ≤ j → ∀ other, ¬WritesNameAt (before ++ rest) j other := by
  induction rest generalizing before with
  | nil =>
    rintro j hj other ⟨⟨gap, space, rest, heq, -⟩, -⟩
    rw [List.append_nil, List.drop_of_length_le hj] at heq
    simp at heq
  | cons c rest ih =>
    have hhere : ∀ other, WritesNameAt (before ++ c :: rest) before.length other ↔
        (if before.getLast?.any Text.isWord then none else quotedAfterName? (c :: rest)) =
          some other := by
      intro other
      rw [writesNameAt_length_iff, ← quotedAfterName?_eq_some_iff]
      split
      · rename_i hword
        simp [hword]
      · rename_i hword
        simp [hword]
    have hrest := ih (before ++ [c])
    rw [List.getLast?_append, List.getLast?_singleton, Option.some_or, Option.any_some,
      List.append_assoc, List.singleton_append, List.length_append, List.length_singleton] at hrest
    rw [writtenName?]
    cases hfound : if before.getLast?.any Text.isWord then none
      else quotedAfterName? (c :: rest) with
    | some body =>
      exact ⟨before.length, Nat.le_refl _, (hhere body).2 hfound,
        fun j hj hlt => absurd hlt (Nat.not_lt.2 hj)⟩
    | none =>
      have hnot : ∀ other, ¬WritesNameAt (before ++ c :: rest) before.length other := by
        intro other hother
        rw [hhere, hfound] at hother
        simp at hother
      dsimp only
      cases hnext : writtenName? (Text.isWord c) rest with
      | some body =>
        rw [hnext] at hrest
        obtain ⟨i, hi, hwrites, hfirst⟩ := hrest
        refine ⟨i, by omega, hwrites, ?_⟩
        intro j hj hlt
        rcases Nat.eq_or_lt_of_le hj with rfl | hj
        · exact hnot
        · exact hfirst j hj hlt
      | none =>
        rw [hnext] at hrest
        intro j hj
        rcases Nat.eq_or_lt_of_le hj with rfl | hj
        · exact hnot
        · exact hrest j hj

/-- The search finds nothing exactly if nothing of the form is written. -/
lemma writtenName?_eq_none_iff :
    writtenName? false cs = none ↔ ∀ i body, ¬WritesNameAt cs i body := by
  have h := writtenName?_of [] cs
  rw [List.getLast?_nil, Option.any_none, List.nil_append] at h
  cases hfound : writtenName? false cs with
  | none =>
    rw [hfound] at h
    exact ⟨fun _ i => h i (Nat.zero_le i), fun _ => rfl⟩
  | some body =>
    rw [hfound] at h
    obtain ⟨i, -, hwrites, -⟩ := h
    exact ⟨fun hnone => by simp at hnone, fun hnone => absurd hwrites (hnone i body)⟩

/-- What is written at an offset is written nowhere else first. -/
lemma FirstWritten.unique {other : List Char} (h : FirstWritten cs body)
    (hother : FirstWritten cs other) :
    body = other := by
  obtain ⟨i, hi, hfirst⟩ := h
  obtain ⟨j, hj, hbefore⟩ := hother
  obtain rfl : i = j := by
    rcases Nat.lt_trichotomy i j with hlt | heq | hlt
    · exact absurd hi (hbefore i hlt body)
    · exact heq
    · exact absurd hj (hfirst j hlt other)
  have hbody := quotedAfterName?_eq_some_iff.2 hi.1
  rw [quotedAfterName?_eq_some_iff.2 hj.1] at hbody
  exact (Option.some.inj hbody).symm

/-- The search finds the first name that is written. -/
lemma writtenName?_eq_some_iff : writtenName? false cs = some body ↔ FirstWritten cs body := by
  have hfound : ∀ other, writtenName? false cs = some other → FirstWritten cs other := by
    intro other hother
    have h := writtenName?_of [] cs
    rw [List.getLast?_nil, Option.any_none, List.nil_append, hother] at h
    obtain ⟨i, -, hwrites, hfirst⟩ := h
    exact ⟨i, hwrites, fun j => hfirst j (Nat.zero_le j)⟩
  refine ⟨hfound body, ?_⟩
  intro h
  cases hother : writtenName? false cs with
  | none =>
    obtain ⟨i, hwrites, -⟩ := h
    exact absurd hwrites (writtenName?_eq_none_iff.1 hother i body)
  | some other => rw [h.unique (hfound other hother)]

/-! ### The places that name a package -/

/-- The name that a package has from the first of the three places that gives one. -/
inductive Names (m : Manifest) : String → Prop where
  | constant {name : String} {span : Span}
    (bound : m.constants.find? "name" = some (.string name span)) :
    Names m name
  | argument {name : String}
    (unbound : ∀ text span, m.constants.find? "name" ≠ some (.string text span))
    (given : m.text? m.arguments "name" = some name) : Names m name
  | written {body : List Char}
    (unbound : ∀ text span, m.constants.find? "name" ≠ some (.string text span))
    (notGiven : m.text? m.arguments "name" = none) (first : FirstWritten m.clean body) :
    Names m (String.ofList body)

/-- A name directly stands for a text if it stands for a literal. -/
lemma string?_eq_some_iff {constants : Constants} {key : String} :
    constants.string? key = some name ↔
      ∃ span, constants.find? key = some (.string name span) := by
  unfold Constants.string?
  split
  · rename_i value span heq
    simp [heq]
  · rename_i hne
    simp only [reduceCtorEq, false_iff, not_exists]
    exact fun span => hne name span

/-- A name directly stands for no text if it stands for no literal. -/
lemma string?_eq_none_iff {constants : Constants} {key : String} :
    constants.string? key = none ↔
      ∀ text span, constants.find? key ≠ some (.string text span) := by
  rw [Option.eq_none_iff_forall_ne_some]
  simp only [ne_eq, string?_eq_some_iff, not_exists]

/-- The name is the one that the first of the three places gives. -/
theorem name?_eq_some_iff : m.name? = some name ↔ m.Names name := by
  have hname : m.name? = (m.constants.string? "name" <|> m.text? m.arguments "name" <|>
      (writtenName? false m.clean).map String.ofList) := rfl
  rw [hname]
  constructor
  · intro h
    cases hbound : m.constants.string? "name" with
    | some text =>
      obtain rfl : text = name := by simpa [hbound] using h
      obtain ⟨span, hspan⟩ := string?_eq_some_iff.1 hbound
      exact .constant hspan
    | none =>
      have hunbound := string?_eq_none_iff.1 hbound
      cases hgiven : m.text? m.arguments "name" with
      | some text =>
        obtain rfl : text = name := by simpa [hbound, hgiven] using h
        exact .argument hunbound hgiven
      | none =>
        obtain ⟨body, hbody, rfl⟩ : ∃ body, writtenName? false m.clean = some body ∧
            String.ofList body = name := by simpa [hbound, hgiven] using h
        exact .written hunbound hgiven (writtenName?_eq_some_iff.1 hbody)
  · intro h
    cases h with
    | constant bound => simp [string?_eq_some_iff.2 ⟨_, bound⟩]
    | argument unbound given => simp [string?_eq_none_iff.2 unbound, given]
    | written unbound notGiven first =>
      simp [string?_eq_none_iff.2 unbound, notGiven, writtenName?_eq_some_iff.2 first]

/-- No two names. -/
lemma Names.unique {other : String} (h : m.Names name) (hother : m.Names other) : name = other := by
  rw [← name?_eq_some_iff] at h hother
  exact Option.some.inj (h.symm.trans hother)

end SwiftDependencies.Manifest
