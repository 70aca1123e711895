import Mathlib.Data.List.ReduceOption
import Mathlib.Data.Option.Basic
import Mathlib.Tactic.Common
import SwiftDependencies.Proofs.Manifest.Declarations
import SwiftDependencies.Proofs.Manifest.Initializer
import SwiftDependencies.Proofs.Manifest.OffsetTerms
import SwiftDependencies.Proofs.Source.Blanking

/-!
# Sections by offset

The reader of sections that goes through the views of a text by offset, with every look-up checked.
What a pattern matches is taken from the glyphs of the rest of the text, which are looked up one by
one.

The arguments of the constructed package are searched for where the depth is what it is behind the
parenthesis that opens them.  A depth is never below zero, so that it says nothing of a place behind
stray closing brackets.  It is the level of `Fragment.section?` all the same, because the search
ends at the parenthesis that closes the first one: up to there no more brackets are closed than were
opened behind it (`Between`).  For the same reason a bracket that opens a value, and is searched for
to the end of the text, is closed before the arguments end.
-/

namespace SwiftDependencies.Source

namespace Fragment

variable {label word : String} {f body rest : Fragment}

/-! ### What a pattern leaves -/

/-- What follows a label and its colon. -/
def afterColon? (label : String) (f : Fragment) : Option Fragment :=
  let rest := skipBlanks (f.drop label.length)
  if f.startsWith label.toList && first? rest == some ':' && first? (rest.drop 1) != some ':' then
    some (rest.drop 1)
  else none

/-- What follows a label is what follows its colon, without blanks. -/
lemma afterLabel?_eq_map (label : String) (f : Fragment) :
    f.afterLabel? label = (f.afterColon? label).map skipBlanks := by
  unfold afterLabel? afterColon?
  dsimp only
  split <;> rfl

/-- What is left after blanks is the end of the fragment. -/
lemma suffix_skipBlanks (f : Fragment) : f.skipBlanks <:+ f :=
  List.dropWhile_suffix _

/-- A label and its colon show no bracket. -/
lemma exists_of_afterColon? (hl : IsKeyword label) (h : f.afterColon? label = some rest) :
    ∃ before, f = before ++ rest ∧
      ∀ c ∈ before.chars, isOpener c = false ∧ isCloser c = false := by
  simp only [afterColon?] at h
  split at h
  swap
  · simp at h
  rename_i hc
  simp only [Bool.and_eq_true, beq_iff_eq] at hc
  obtain ⟨⟨hstart, hcolon⟩, -⟩ := hc
  obtain ⟨colon, tail, htail⟩ :
      ∃ colon tail, skipBlanks (f.drop label.length) = colon :: tail := by
    refine List.exists_cons_of_ne_nil ?_
    intro hnil
    simp [hnil, first?] at hcolon
  rw [htail] at h hcolon
  obtain rfl : tail = rest := Option.some.inj h
  have hsign : colon.skeleton = ':' := by simpa [first?] using hcolon
  refine ⟨f.take label.length ++ (f.drop label.length).takeWhile Glyph.isBlank ++
    [colon], ?_, ?_⟩
  · rw [List.append_assoc, List.singleton_append, ← htail, List.append_assoc, skipBlanks,
      List.takeWhile_append_dropWhile, List.take_append_drop]
  · have hname : chars (f.take label.length) = label.toList := by
      rw [startsWith, List.isPrefixOf_iff_prefix] at hstart
      rw [chars, List.map_take, ← String.length_toList]
      exact (List.prefix_iff_eq_take.1 hstart).symm
    have hgap : AllBlank ((f.drop label.length).takeWhile Glyph.isBlank) :=
      allBlank_of_forall (List.all_eq_true.1 List.all_takeWhile)
    intro c hc
    rw [chars_append, chars_append, hname, List.mem_append, List.mem_append] at hc
    rcases hc with (hc | hc) | hc
    · have hjoins := joinsName_of_isWord (hl.word c hc)
      exact ⟨isOpener_of_joinsName hjoins, isCloser_of_joinsName hjoins⟩
    · exact (hgap.signs c hc).2
    · obtain rfl : c = colon.skeleton := by simpa [chars] using hc
      rw [hsign]
      exact ⟨rfl, rfl⟩

/-- The arguments of a package stand behind an opening parenthesis. -/
lemma exists_of_afterPackage? (h : f.afterPackage? = some body) :
    ∃ o : Glyph, o.skeleton = '(' ∧ o :: body <:+ f := by
  obtain ⟨-, o, ho, hrest⟩ := afterPackage?_eq_some_iff.1 h
  refine ⟨o, ho, ?_⟩
  rw [← hrest]
  exact (suffix_skipBlanks _).trans (List.drop_suffix 7 f)

/-- What is left after a word is the end of the fragment. -/
lemma suffix_of_afterWord? (h : f.afterWord? word = some rest) : rest <:+ f := by
  simp only [afterWord?] at h
  split at h
  · obtain rfl := Option.some.inj h
    exact (suffix_skipBlanks _).trans (List.drop_suffix _ f)
  · simp at h

/-- What is left after an attribute is the end of the fragment. -/
lemma suffix_of_afterAttribute? (h : f.afterAttribute? = some rest) : rest <:+ f := by
  simp only [afterAttribute?] at h
  split at h
  · obtain rfl := Option.some.inj h
    exact (suffix_skipBlanks _).trans ((List.dropWhile_suffix _).trans (List.drop_suffix 1 f))
  · simp at h

/-- What is left after attributes is the end of the fragment. -/
lemma suffix_afterAttributes (f : Fragment) : f.afterAttributes <:+ f := by
  fun_induction afterAttributes f with
  | case1 f rest h ih => exact ih.trans (suffix_of_afterAttribute? h)
  | case2 => exact List.suffix_rfl

/-- What is left after an access level is the end of the fragment. -/
lemma suffix_afterAccessLevel (f : Fragment) : f.afterAccessLevel <:+ f := by
  unfold afterAccessLevel
  cases h : accessLevels.findSome? fun word => f.afterWord? word with
  | none => exact List.suffix_rfl
  | some rest =>
    obtain ⟨word, -, hw⟩ := List.exists_of_findSome?_eq_some h
    exact suffix_of_afterWord? hw

/-- What is left after a sign is the end of the fragment. -/
lemma suffix_of_afterSign? (h : f.afterSign? = some rest) : rest <:+ f := by
  unfold afterSign? at h
  split at h
  · obtain rfl := Option.some.inj h
    exact List.drop_suffix 1 f
  · simp at h

/-- What is left after an equals sign is the end of the fragment. -/
lemma suffix_of_afterEquals? {x : Option String × Fragment} (h : f.afterEquals? = some x) :
    x.2 <:+ f := by
  simp only [afterEquals?] at h
  split at h
  · split at h
    · obtain ⟨rest, hrest, rfl⟩ := Option.map_eq_some_iff.1 h
      exact (suffix_of_afterSign? hrest).trans ((List.drop_suffix _ _).trans (suffix_skipBlanks f))
    · simp at h
  · obtain ⟨rest, hrest, rfl⟩ := Option.map_eq_some_iff.1 h
    exact (suffix_of_afterSign? hrest).trans (suffix_skipBlanks f)

/-- What follows the head of a declaration. -/
lemma suffix_of_declaration? {d : Declaration} (h : f.declaration? = some d) : d.rest <:+ f := by
  simp only [declaration?] at h
  obtain ⟨name, hname, h⟩ := Option.bind_eq_some_iff.1 h
  have hsuffix : name <:+ f := by
    have hhead : f.afterIndent.afterAttributes.afterAccessLevel <:+ f :=
      (suffix_afterAccessLevel _).trans ((suffix_afterAttributes _).trans (List.dropWhile_suffix _))
    rcases Option.or_eq_some_iff.1 hname with hname | ⟨-, hname⟩ <;>
      exact (suffix_of_afterWord? hname).trans hhead
  split at h
  · simp at h
  · obtain ⟨x, hx, rfl⟩ := Option.map_eq_some_iff.1 h
    exact (suffix_of_afterEquals? hx).trans ((List.drop_suffix _ _).trans hsuffix)

end Fragment

open Fragment

/-! ### The value of a constant -/

section Value

variable {gs f : Fragment} {i j : Nat} {level : Int} {begun : Bool}

/-- Whether the next character that is not blank goes on with a value. -/
def continuesAt? (s : List Char) (i : Nat) : Option Bool := do
  let next ← skipAt? s i s.length
  if next < s.length then do
    let c ← s[next]?
    some (continuesValue c)
  else some false

/-- Whether a value ends with its line at a character. -/
def endsLineAt? (s : List Char) (level : Int) (begun : Bool) (c : Char) (i : Nat) : Option Bool :=
  if level == 0 && c == '\n' && begun then (continuesAt? s i).map (!·) else some false

/-- The offset at which the value of a constant ends. -/
def valueStopAt? (s : List Char) (level : Int) (begun : Bool) (i : Nat) : Option Nat :=
  if i < s.length then do
    let c ← s[i]?
    if isCloser c && levelAfter level c < 0 then some i
    else if level == 0 && c == ';' then some i
    else
      let ends ← endsLineAt? s level begun c i
      if ends then some i
      else valueStopAt? s (levelAfter level c) (begun || !Text.isBlank c) (i + 1)
  else some s.length
termination_by s.length - i

/-- Whether a value goes on at an offset is seen at the first character there that is not blank. -/
lemma continuesAt?_eq (h : Extent.Holds ⟨i, gs.length⟩ gs f) :
    continuesAt? gs.chars i = some ((first? f.skipBlanks).any continuesValue) := by
  obtain ⟨next, hnext, hholds⟩ := exists_skipAt? h
  rw [continuesAt?, length_chars, hnext, Option.bind_eq_bind, Option.bind_some]
  cases hf : f.skipBlanks with
  | nil =>
    rw [hf] at hholds
    rw [if_neg (by rw [hholds.lt_iff]; simp)]
    rfl
  | cons g rest =>
    rw [hf] at hholds
    rw [if_pos (hholds.lt_iff.2 (List.cons_ne_nil g rest)),
      getElem?_chars (Extent.Holds.cons_iff.1 hholds).1]
    rfl

/-- There is an offset at which a value stops, and up to there it is the value. -/
lemma exists_valueStopAt? (level : Int) (begun : Bool) (h : Extent.Holds ⟨i, gs.length⟩ gs f) :
    ∃ j, valueStopAt? gs.chars level begun i = some j ∧
      Extent.Holds ⟨i, j⟩ gs (value level begun f) := by
  induction f generalizing i level begun with
  | nil =>
    have hi := h.stop_eq
    rw [valueStopAt?, length_chars, if_neg (by rw [h.lt_iff]; simp)]
    exact ⟨_, rfl, h⟩
  | cons g f ih =>
    obtain ⟨hg, hf⟩ := Extent.Holds.cons_iff.1 h
    have hlt : i < gs.length := h.lt_iff.2 (List.cons_ne_nil g f)
    have hends : endsLineAt? gs.chars level begun g.skeleton i =
        some (level == 0 && g.skeleton == '\n' && begun &&
          !(first? (skipBlanks f)).any continuesValue) := by
      rw [endsLineAt?]
      split
      · rename_i hline
        have hblank : g.isBlank = true := by
          simp only [Bool.and_eq_true, beq_iff_eq] at hline
          rw [Glyph.isBlank, hline.1.2]
          rfl
        rw [continuesAt?_eq h, skipBlanks, List.dropWhile_cons_of_pos hblank, hline, Bool.true_and]
        rfl
      · rename_i hline
        rw [Bool.not_eq_true] at hline
        rw [hline, Bool.false_and]
    rw [valueStopAt?, length_chars, if_pos hlt, getElem?_chars hg, Option.bind_eq_bind,
      Option.bind_some, hends, Option.bind_eq_bind, Option.bind_some, value]
    by_cases hclose : (isCloser g.skeleton && levelAfter level g.skeleton < 0) = true
    · rw [if_pos hclose, if_pos hclose]
      exact ⟨i, rfl, .nil gs i⟩
    rw [if_neg hclose, if_neg hclose]
    by_cases hsemi : (level == 0 && g.skeleton == ';') = true
    · rw [if_pos hsemi, if_pos hsemi]
      exact ⟨i, rfl, .nil gs i⟩
    rw [if_neg hsemi, if_neg hsemi]
    split
    · exact ⟨i, rfl, .nil gs i⟩
    · obtain ⟨j, hj, hholds⟩ := ih (levelAfter level g.skeleton) (begun || !g.isBlank) hf
      exact ⟨j, hj, Extent.Holds.cons_iff.2 ⟨hg, hholds⟩⟩

end Value

namespace Views

variable {cs : List Char} {f rest body : Fragment} {g : Glyph} {label : String} {i j : Nat}
    {level : Int}
  {joined atStart : Bool} {close : Option Nat} {base : Nat}

/-! ### Constants -/

/-- The constants that are declared from an offset on. -/
def constantsAt? (v : Views) (atStart : Bool) (i : Nat) : Option Constants :=
  if i < v.skeleton.length then do
    let c ← v.skeleton[i]?
    let f ← v.fragment? ⟨i, v.skeleton.length⟩
    match if atStart then f.declaration? else none with
    | none => constantsAt? v (c == '\n') (i + 1)
    | some d =>
      let start := v.skeleton.length - d.rest.length
      if i < start then
        let depth ← v.depths[i]?
        let stop ← valueStopAt? v.skeleton 0 false start
        let t ← v.termAt? ⟨start, stop⟩
        let others ← constantsAt? v false start
        some (if depth = 0 then ⟨d.name, t, d.typeText.bind elementType?⟩ :: others else others)
      else none
  else some []
termination_by v.skeleton.length - i

/-- The constants from an offset on are those of the rest of the text. -/
theorem constantsAt?_of (h : Extent.Holds ⟨i, cs.length⟩ (glyphs cs) f) :
    (of cs).constantsAt? atStart i = some (f.constants atStart) := by
  induction hn : f.length using Nat.strongRecOn generalizing i f atStart with
  | ind n ih =>
  subst hn
  rw [constantsAt?, length_skeleton_of]
  cases f with
  | nil =>
    rw [if_neg (by rw [h.lt_iff]; simp), constants_nil]
  | cons g f =>
    obtain ⟨hg, hf⟩ := Extent.Holds.cons_iff.1 h
    rw [if_pos (h.lt_iff.2 (List.cons_ne_nil g f)), getElem?_skeleton_of hg, fragment?_of h]
    simp only [Option.bind_eq_bind, Option.bind_some]
    cases hd : if atStart then declaration? (g :: f) else none with
    | none =>
      rw [constants_cons g fun hat => by rwa [if_pos hat] at hd]
      exact ih f.length (Nat.lt_succ_self _) hf rfl
    | some d =>
      obtain ⟨rfl, hdeclared⟩ : atStart = true ∧ declaration? (g :: f) = some d := by
        split at hd
        · exact ⟨‹_›, hd⟩
        · simp at hd
      have hshort := length_declaration?_lt hdeclared
      have hrest := h.suffix (suffix_of_declaration? hdeclared)
      obtain ⟨stop, hstop, hvalue⟩ :=
        exists_valueStopAt? 0 false (by rwa [length_glyphs])
      have hprogress : i < cs.length - d.rest.length := by
        rw [h.stop_eq]
        omega
      rw [constants_of_declaration hdeclared]
      simp only [hprogress, if_true, getElem?_depths_of hg, skeleton_of, hstop, termAt?_of hvalue,
        ih d.rest.length hshort hrest rfl, Option.bind_some]
      split <;> rfl

/-! ### Between the parentheses of the package -/

/-- A place between the parentheses of a call of which the closing one is at `close`, if there is
one: behind the opening one `level` brackets have been opened and not closed, and the depth there
was `base`. -/
structure Between (cs : List Char) (close : Option Nat) (base : Nat) (level : Int) (i : Nat) :
    Prop where
  nonneg : 0 ≤ level
  closes : closingAt? (chars (glyphs cs)) (level + 1) i = some close
  depth : (((of cs).skeleton.take i).foldl depthAfter 0 : Nat) = (base + level : Int)

/-- What is known behind a character. -/
lemma foldl_take_succ {β : Type} (step : β → Char → β) (init : β)
    (h : (glyphs cs)[i]? = some g) :
    ((of cs).skeleton.take (i + 1)).foldl step init =
      step (((of cs).skeleton.take i).foldl step init) g.skeleton := by
  rw [List.take_add_one, getElem?_skeleton_of h, Option.toList_some, List.foldl_append,
    List.foldl_cons, List.foldl_nil]

namespace Between

/-- One character on, as long as the parentheses are not closed. -/
lemma next (h : Between cs close base level i) (hg : (glyphs cs)[i]? = some g)
    (hi : i < close.getD cs.length) :
    Between cs close base (levelAfter level g.skeleton) (i + 1) := by
  have hlt := lt_length_of_getElem? hg
  have hadd : levelAfter (level + 1) g.skeleton = levelAfter level g.skeleton + 1 := by
    unfold levelAfter
    split
    · rfl
    · split <;> omega
  have hcloses := h.closes
  rw [closingAt?, if_pos (by rwa [length_chars, length_glyphs]), getElem?_chars hg,
    Option.bind_eq_bind, Option.bind_some, hadd] at hcloses
  have hopen : ¬(isCloser g.skeleton && levelAfter level g.skeleton + 1 == 0) = true := by
    intro hstop
    rw [if_pos hstop] at hcloses
    obtain rfl := Option.some.inj hcloses
    exact Nat.lt_irrefl i hi
  rw [if_neg hopen] at hcloses
  have hnonneg : 0 ≤ levelAfter level g.skeleton := by
    have := h.nonneg
    unfold levelAfter at hopen ⊢
    split
    · omega
    · rename_i ho
      split
      · rename_i hc
        simp only [ho, hc, Bool.true_and, beq_iff_eq, Bool.false_eq_true, if_false,
          if_true] at hopen
        omega
      · exact this
  refine ⟨hnonneg, hcloses, ?_⟩
  have hdepth := h.depth
  rw [foldl_take_succ depthAfter 0 hg, depthAfter]
  unfold levelAfter at hnonneg ⊢
  split
  · omega
  · split
    · rename_i ho hc
      simp only [ho, hc, Bool.false_eq_true, if_false, if_true] at hnonneg
      omega
    · exact hdepth

/-- Behind a text without brackets. -/
lemma skip {a : Fragment} (h : Between cs close base level i)
    (ha : ∀ c ∈ a.chars, isOpener c = false ∧ isCloser c = false)
    (hholds : Extent.Holds ⟨i, j⟩ (glyphs cs) a) (hj : j ≤ close.getD cs.length) :
    Between cs close base level j := by
  induction a generalizing i with
  | nil =>
    obtain rfl := hholds.stop_eq
    exact h
  | cons g a ih =>
    obtain ⟨hg, hrest⟩ := Extent.Holds.cons_iff.1 hholds
    have hlt : i < j := hholds.lt_iff.2 (List.cons_ne_nil g a)
    obtain ⟨opens, closes⟩ := ha g.skeleton List.mem_cons_self
    have hnext := h.next hg (Nat.lt_of_lt_of_le hlt hj)
    rw [levelAfter_plain level opens closes] at hnext
    exact ih hnext (fun c hc => ha c (List.mem_cons_of_mem _ hc)) hrest

/-- The depth is the one behind the opening parenthesis exactly outside further brackets. -/
lemma depth_eq_iff (h : Between cs close base level i) (hg : (glyphs cs)[i]? = some g) :
    g.depth = base ↔ level = 0 := by
  have hdepth := h.depth
  rw [← (known_of_getElem? hg).2.1] at hdepth
  omega

/-- A bracket between the parentheses is closed between them. -/
lemma closingAt?_eq (h : Between cs close base 0 i)
    (hholds : Extent.Holds ⟨i, close.getD cs.length⟩ (glyphs cs) (g :: f))
    (opens : isOpener g.skeleton = true) :
    closingAt? (chars (glyphs cs)) 0 i = some ((closing? (chars (g :: f))).map (i + ·)) := by
  have hcloses := h.closes
  rw [Source.closingAt?_eq] at hcloses ⊢
  cases close with
  | none =>
    rw [Option.getD_none, ← length_glyphs cs] at hholds
    rw [drop_chars hholds, closing?]
  | some n =>
    obtain ⟨more, hsplit⟩ := exists_drop_chars hholds
    have hlength : n = i + (g :: f).length := hholds.stop_eq
    -- the search for the closing parenthesis passes the closer of the bracket on its way
    rw [hsplit, chars, List.map_cons, List.cons_append, closingFrom?_opener opens,
      Option.some.injEq] at hcloses
    obtain ⟨total, htotal, hn⟩ := Option.map_eq_some_iff.1 hcloses
    obtain ⟨m, hm, rfl⟩ := Option.map_eq_some_iff.1 htotal
    obtain ⟨k, l, hk, -, rfl⟩ := closingFrom?_add (a := 1) (b := 1) (by decide) (by decide) hm
    have hwhole : closingFrom? 0 (chars (g :: f) ++ more) = some (k + 1) := by
      rw [chars, List.map_cons, List.cons_append, closingFrom?_opener opens, Int.zero_add, hk]
      rfl
    have hpart : closing? (chars (g :: f)) = some (k + 1) := by
      rwa [closing?, ← closingFrom?_append_eq_some_iff (by rw [length_chars]; omega) more]
    rw [hsplit, hwhole, hpart]

end Between

/-! ### The arguments of the package -/

/-- The offset at which the group ends that a value begins with, if it begins with one in round or
square brackets. -/
def groupStopAt? (v : Views) (i stop : Nat) : Option (Option Nat) :=
  if i < stop then do
    let c ← v.skeleton[i]?
    if c == '[' || c == '(' then closingAt? v.skeleton 0 i else some none
  else some none

/-- The extent of the value that begins at an offset, behind blanks. -/
def argumentValueAt? (v : Views) (i stop : Nat) : Option Extent := do
  let first ← skipAt? v.skeleton i stop
  match ← v.groupStopAt? first stop with
  | some n => some ⟨first, n + 1⟩
  | none =>
    let last ← commaAt? v.skeleton 0 first stop
    some ⟨first, last⟩

/-- The extent of the value of the first argument with a label at a depth. -/
def sectionAt? (v : Views) (label : String) (depth : Nat) (joined : Bool) (i stop : Nat) :
    Option (Option Extent) :=
  if i < stop then do
    let c ← v.skeleton[i]?
    let here ← v.depths[i]?
    let f ← v.fragment? ⟨i, stop⟩
    match if joined || here != depth then none else f.afterColon? label with
    | some rest => (v.argumentValueAt? (stop - rest.length) stop).map some
    | none => sectionAt? v label depth (joinsName c) (i + 1) stop
  else some none
termination_by stop - i

/-- The arguments that are read between two offsets. -/
def sectionsAt? (v : Views) (start stop : Nat) : Option (List (Option String × Term)) := do
  let found ← sectionLabels.mapM fun label => do
    let depth ← v.depths[start]?
    match ← v.sectionAt? label depth false start stop with
    | some e => (v.termAt? e).map fun t => some (some label, t)
    | none => some none
  some found.reduceOption

/-- The first constructed package from an offset on. -/
def callAt? (v : Views) (joined : Bool) (i : Nat) : Option (Option Call) :=
  if i < v.skeleton.length then do
    let c ← v.skeleton[i]?
    let f ← v.fragment? ⟨i, v.skeleton.length⟩
    match if joined then none else f.afterPackage? with
    | none => callAt? v (joinsName c) (i + 1)
    | some body =>
      let start := v.skeleton.length - body.length
      let close ← closingAt? v.skeleton 0 (start - 1)
      let stop := close.getD v.skeleton.length
      let arguments ← v.sectionsAt? start stop
      some (some ⟨arguments, ⟨v.lineOf i, v.lineOf stop⟩⟩)
  else some none
termination_by v.skeleton.length - i

/-- A group in brackets that begins at an offset ends where the brackets close. -/
lemma groupStopAt?_of (h : Between cs close base 0 i)
    (hholds : Extent.Holds ⟨i, close.getD cs.length⟩ (glyphs cs) f) :
    (of cs).groupStopAt? i (close.getD cs.length) =
      some ((if first? f == some '[' || first? f == some '(' then closing? f.chars else none).map
        (i + ·)) := by
  rw [groupStopAt?]
  cases f with
  | nil =>
    rw [if_neg (by rw [hholds.lt_iff]; simp)]
    rfl
  | cons g f =>
    have hg := (Extent.Holds.cons_iff.1 hholds).1
    have hfirst : first? (g :: f) = some g.skeleton := rfl
    rw [if_pos (hholds.lt_iff.2 (List.cons_ne_nil g f)), getElem?_skeleton_of hg,
      Option.bind_eq_bind, Option.bind_some, hfirst, Option.some_beq_some, Option.some_beq_some]
    split
    · rename_i hgroup
      have opens : isOpener g.skeleton = true := by
        rw [Bool.or_eq_true, beq_iff_eq, beq_iff_eq] at hgroup
        rcases hgroup with hgroup | hgroup <;> rw [hgroup] <;> rfl
      rw [skeleton_of]
      exact h.closingAt?_eq hholds opens
    · rfl

/-- There are offsets at which the value of an argument begins and ends. -/
lemma exists_argumentValueAt? (h : Between cs close base 0 i)
    (hholds : Extent.Holds ⟨i, close.getD cs.length⟩ (glyphs cs) f) :
    ∃ e, (of cs).argumentValueAt? i (close.getD cs.length) = some e ∧
      e.Holds (glyphs cs) f.skipBlanks.argumentValue := by
  obtain ⟨first, hfirst, hvalue⟩ := exists_skipAt? hholds
  have hbetween : Between cs close base 0 first := by
    have hsplit : f.takeWhile Glyph.isBlank ++ f.skipBlanks = f := List.takeWhile_append_dropWhile
    have hblank : AllBlank (f.takeWhile Glyph.isBlank) :=
      allBlank_of_forall (List.all_eq_true.1 List.all_takeWhile)
    have hleft := (hsplit ▸ hholds).left
    have hlength := congrArg List.length hsplit
    have h₁ := hholds.stop_eq
    have h₂ := hvalue.stop_eq
    rw [List.length_append] at hlength
    rw [show i + (f.takeWhile Glyph.isBlank).length = first by omega] at hleft
    exact h.skip (fun c hc => (hblank.signs c hc).2) hleft (by omega)
  rw [argumentValueAt?, skeleton_of, hfirst, Option.bind_eq_bind, Option.bind_some,
    groupStopAt?_of hbetween hvalue, Option.bind_eq_bind, Option.bind_some, argumentValue]
  cases hgroup : if first? f.skipBlanks == some '[' || first? f.skipBlanks == some '(' then
      closing? f.skipBlanks.chars else none with
  | none =>
    obtain ⟨last, hlast, hcomma⟩ := exists_commaAt? 0 hvalue
    simp only [Option.map_none, hlast, Option.bind_some]
    exact ⟨_, rfl, hcomma⟩
  | some n =>
    have hlt : n < f.skipBlanks.length := by
      split at hgroup
      · have := lt_length_of_closing? hgroup
        rwa [length_chars] at this
      · simp at hgroup
    have htake := hvalue.take (n + 1)
    rw [List.length_take_of_le hlt] at htake
    exact ⟨_, rfl, htake⟩

/-- The search by offset and depth finds what the search by level finds. -/
lemma sectionAt?_of (joined : Bool) (hl : IsKeyword label) (h : Between cs close base level i)
    (hholds : Extent.Holds ⟨i, close.getD cs.length⟩ (glyphs cs) f) :
    ∃ e, (of cs).sectionAt? label base joined i (close.getD cs.length) = some e ∧
      Option.Rel (fun e value => e.Holds (glyphs cs) value) e (f.section? label joined level) := by
  induction f generalizing i level joined with
  | nil =>
    rw [sectionAt?, if_neg (by rw [hholds.lt_iff]; simp)]
    exact ⟨none, rfl, .none⟩
  | cons g f ih =>
    obtain ⟨hg, hf⟩ := Extent.Holds.cons_iff.1 hholds
    have hlt := hholds.lt_iff.2 (List.cons_ne_nil g f)
    have hcond : (joined || g.depth != base) = (joined || level != 0) := by
      rw [Bool.eq_iff_iff, Bool.or_eq_true, Bool.or_eq_true, bne_iff_ne, bne_iff_ne, Ne, Ne,
        h.depth_eq_iff hg]
    rw [sectionAt?, if_pos hlt, getElem?_skeleton_of hg, getElem?_depths_of hg,
      fragment?_of hholds, section?]
    simp only [Option.bind_eq_bind, Option.bind_some, hcond, afterLabel?_eq_map]
    cases hcolon : if joined || level != 0 then none else afterColon? label (g :: f) with
    | none =>
      have hnone :
          (if joined || level != 0 then none else (afterColon? label (g :: f)).map skipBlanks) =
            none := by
        split at hcolon
        · rename_i hpass
          rw [if_pos hpass]
        · rename_i hpass
          rw [if_neg hpass, hcolon, Option.map_none]
      rw [hnone]
      exact ih _ (h.next hg hlt) hf
    | some rest =>
      obtain ⟨hpass, hfound⟩ : ¬(joined || level != 0) = true ∧
          afterColon? label (g :: f) = some rest := by
        split at hcolon
        · simp at hcolon
        · exact ⟨‹_›, hcolon⟩
      obtain rfl : level = 0 := by
        simp only [Bool.or_eq_true, bne_iff_ne, not_or, Decidable.not_not] at hpass
        exact hpass.2
      obtain ⟨before, hsplit, hplain⟩ := exists_of_afterColon? hl hfound
      rw [hsplit] at hholds
      have hright := hholds.right
      have hstart : close.getD cs.length - rest.length = i + before.length := by
        have := hholds.stop_eq
        rw [List.length_append] at this
        omega
      rw [hstart] at hright
      have hbetween := h.skip hplain hholds.left (by have := hright.stop_eq; omega)
      obtain ⟨e, he, hvalue⟩ := exists_argumentValueAt? hbetween hright
      refine ⟨some e, ?_, ?_⟩
      · simp only [hstart, he, Option.map_some]
      · rw [if_neg hpass, hfound]
        exact .some hvalue

/-- What is found for each element is found for all. -/
lemma mapM_eq_map {α β : Type} {F : α → Option β} {G : α → β} {as : List α}
    (h : ∀ a ∈ as, F a = some (G a)) :
    as.mapM F = some (as.map G) :=
  mapM_of_forall₂ (r := Eq) (List.forall₂_eq_eq_eq ▸ rfl) fun _ a ha hab => hab ▸ h a ha

/-- The arguments that are read by offset are those that are read of what is between the
parentheses. -/
lemma sectionsAt?_of (close : Option Nat) (hi : i ≤ cs.length)
    (hcloses : closingAt? (chars (glyphs cs)) 1 i = some close)
    (hholds : Extent.Holds ⟨i, close.getD cs.length⟩ (glyphs cs) f) :
    (of cs).sectionsAt? i (close.getD cs.length) = some f.sections := by
  have hbetween : Between cs close (((of cs).skeleton.take i).foldl depthAfter 0) 0 i :=
    ⟨Int.le_refl 0, hcloses, (Int.add_zero _).symm⟩
  have hlabel : ∀ label ∈ sectionLabels,
      (do
        let depth ← (of cs).depths[i]?
        match ← (of cs).sectionAt? label depth false i (close.getD cs.length) with
        | some e => ((of cs).termAt? e).map fun t => some (some label, t)
        | none => some none) =
      some ((f.section? label false 0).map fun value => (some label, value.term)) := by
    intro label hmem
    obtain ⟨e, he, hrel⟩ :=
      sectionAt?_of false (isKeyword_sectionLabels label hmem) hbetween hholds
    rw [depths_of hi, Option.bind_eq_bind, Option.bind_some, he, Option.bind_eq_bind,
      Option.bind_some]
    generalize f.section? label false 0 = found at hrel
    cases hrel with
    | none => rfl
    | some hvalue =>
      simp only [termAt?_of hvalue]
      rfl
  rw [sectionsAt?, mapM_eq_map hlabel, Option.bind_eq_bind, Option.bind_some, List.reduceOption,
    List.filterMap_map]
  rfl

/-- The line after the last character. -/
lemma lineOf_length (h : Extent.Holds ⟨i, cs.length⟩ (glyphs cs) (g :: f)) :
    (of cs).lineOf cs.length = lineAfterAll g f := by
  have hlast := getElem?_last h
  have hpos : cs.length = cs.length - 1 + 1 := by
    have := lt_length_of_getElem? (Extent.Holds.cons_iff.1 h).1
    omega
  rw [hpos, lineOf_of, foldl_take_succ lineAfter 1 hlast, ← lineOf_of,
    ← (known_of_getElem? hlast).1]
  rfl

/-- Where a package is constructed, the parenthesis is closed by the bracket that closes its
arguments. -/
lemma exists_parenthesis_of_package (h : Extent.Holds ⟨i, cs.length⟩ (glyphs cs) f)
    (hpackage : f.afterPackage? = some body) :
    ∃ start, cs.length - body.length = start + 1 ∧
      Extent.Holds ⟨start + 1, cs.length⟩ (glyphs cs) body ∧
      closingAt? (chars (glyphs cs)) 0 start = closingAt? (chars (glyphs cs)) 1 (start + 1) ∧
      closingAt? (chars (glyphs cs)) 1 (start + 1) =
        some ((closingFrom? 1 body.chars).map (start + 1 + ·)) := by
  obtain ⟨o, ho, hsuffix⟩ := exists_of_afterPackage? hpackage
  have opens : isOpener o.skeleton = true := by
    rw [ho]
    rfl
  obtain ⟨hopen, hbody⟩ := Extent.Holds.cons_iff.1 (h.suffix hsuffix)
  generalize cs.length - (o :: body).length = start at hopen hbody
  have hlength := hbody.stop_eq
  refine ⟨start, by omega, hbody, ?_, ?_⟩
  · rw [closingAt?, length_chars, length_glyphs, if_pos (by omega), getElem?_chars hopen,
      Option.bind_eq_bind, Option.bind_some, isCloser_of_isOpener opens, levelAfter_opener _ opens]
    rfl
  · rw [← length_glyphs cs] at hbody
    rw [Source.closingAt?_eq, drop_chars hbody]

/-- The search by offset finds the constructed package. -/
theorem callAt?_of (h : Extent.Holds ⟨i, cs.length⟩ (glyphs cs) f) :
    (of cs).callAt? joined i = some (f.package? joined) := by
  induction f generalizing i joined with
  | nil =>
    rw [callAt?, length_skeleton_of, if_neg (by rw [h.lt_iff]; simp)]
    rfl
  | cons g f ih =>
    obtain ⟨hg, hf⟩ := Extent.Holds.cons_iff.1 h
    have hlt := h.lt_iff.2 (List.cons_ne_nil g f)
    rw [callAt?, length_skeleton_of, if_pos hlt, getElem?_skeleton_of hg, fragment?_of h, package?]
    simp only [Option.bind_eq_bind, Option.bind_some]
    cases hpackage : if joined then none else afterPackage? (g :: f) with
    | none => exact ih hf
    | some body =>
      have hfound : afterPackage? (g :: f) = some body := by
        split at hpackage
        · simp at hpackage
        · exact hpackage
      obtain ⟨p, hstart, hbody, hone, hcloses⟩ := exists_parenthesis_of_package h hfound
      have hlength := hbody.stop_eq
      simp only [skeleton_of, hstart, Nat.add_sub_cancel, hone, hcloses, Option.bind_some]
      cases hclosing : closingFrom? 1 body.chars with
      | none =>
        rw [hclosing, Option.map_none] at hcloses
        have hsections := sectionsAt?_of none (by omega) hcloses hbody
        rw [Option.getD_none] at hsections
        simp only [Option.map_none, Option.getD_none, hsections, Option.bind_some,
          (known_of_getElem? hg).1, lineOf_length h]
      | some k =>
        have hk : k < body.length := by
          have := lt_length_of_closingFrom? hclosing
          rwa [length_chars] at this
        have htake := hbody.take k
        rw [List.length_take_of_le (Nat.le_of_lt hk)] at htake
        have hend : (glyphs cs)[p + 1 + k]? = some body[k] := by
          rw [hbody.getElem?_add hk, List.getElem?_eq_getElem hk]
        rw [hclosing, Option.map_some] at hcloses
        have hsections := sectionsAt?_of (some (p + 1 + k)) (by omega) hcloses htake
        rw [Option.getD_some] at hsections
        simp only [Option.map_some, Option.getD_some, hsections, Option.bind_some,
          (known_of_getElem? hg).1, ← (known_of_getElem? hend).1, List.getElem?_eq_getElem hk]

end Views

/-! ### The manifest -/

/-- Read a manifest by its sections, by offset. -/
def manifestAt? (cs : List Char) : Option Manifest := do
  let v ← viewsAt? cs
  let constants ← v.constantsAt? true 0
  let call ← v.callAt? false 0
  some ⟨constants, call, v.clean⟩

/-- On every text the reader by offset comes to an end and looks up nothing outside the text, and it
reads what the reader of sections reads. -/
theorem manifestAt?_eq (cs : List Char) : manifestAt? cs = some (Manifest.ofSections cs) := by
  have hall : Extent.Holds ⟨0, cs.length⟩ (glyphs cs) (glyphs cs) := by
    have := Extent.Holds.refl (glyphs cs)
    rwa [Views.length_glyphs] at this
  rw [manifestAt?, viewsAt?_eq, Option.bind_eq_bind, Option.bind_some, Views.constantsAt?_of hall,
    Option.bind_eq_bind, Option.bind_some, Views.callAt?_of hall]
  rfl

end SwiftDependencies.Source
