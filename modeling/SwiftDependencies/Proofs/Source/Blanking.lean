import Mathlib.Tactic.Common
import SwiftDependencies.Proofs.Source.Views

/-!
# Building the views by offset

Comments and literals are looked for from offset to offset, and then the views are blanked in place,
one character after the other.  As in `Source.Offsets` every look-up and every write is checked, and
so is that the search goes on: a comment or a literal that took no character would be looked for
again and again.

The search ends each comment and each literal where its lexeme ends (`coverAt?_eq`), and blanking
puts in place of each lexeme what the view shows of it (`Blanks.blankEach?_eq`).  So the views are
those of the text (`viewsAt?_eq`).
-/

namespace SwiftDependencies.Source

variable {cs : List Char} {i : Nat}

/-! ### The end of a comment -/

/-- Whether a text goes on at an offset with some characters. -/
def goesOnWith (cs part : List Char) (i : Nat) : Bool :=
  part.isPrefixOf (cs.drop i)

/-- The offset of the next line feed, or the end. -/
def feedAt (cs : List Char) (i : Nat) : Nat :=
  i + ((cs.drop i).takeWhile (· != '\n')).length

/-- The offset after the block comment of which `depth` openings are not closed. -/
def blockStop (cs : List Char) (depth i : Nat) : Nat :=
  if i < cs.length then
    if goesOnWith cs ['/', '*'] i then blockStop cs (depth + 1) (i + 2)
    else if goesOnWith cs ['*', '/'] i then
      if depth ≤ 1 then i + 2 else blockStop cs (depth - 1) (i + 2)
    else blockStop cs depth (i + 1)
  else cs.length
termination_by cs.length - i

/-- A text that has characters left at an offset. -/
lemma lt_length_of_drop {c : Char} {rest : List Char} (h : cs.drop i = c :: rest) :
    i < cs.length := by
  by_contra hi
  rw [List.drop_of_length_le (by omega)] at h
  simp at h

/-- The character at an offset is the first one behind it. -/
lemma getElem?_of_drop {c : Char} {rest : List Char} (h : cs.drop i = c :: rest) :
    cs[i]? = some c := by
  rw [← List.head?_drop, h, List.head?_cons]

/-- What follows a part that begins at an offset begins at the offset behind it. -/
lemma drop_add {a rest : List Char} (h : cs.drop i = a ++ rest) :
    cs.drop (i + a.length) = rest := by
  rw [← List.drop_drop, h, List.drop_left]

/-- What follows the character at an offset begins at the next offset. -/
lemma drop_succ {c : Char} {rest : List Char} (h : cs.drop i = c :: rest) :
    cs.drop (i + 1) = rest :=
  drop_add (a := [c]) h

/-- Whether a text goes on with two characters is seen at those two. -/
lemma goesOnWith_pair {a b c : Char} {l : List Char} (h : cs.drop i = c :: l) :
    goesOnWith cs [a, b] i = (c == a && l.head? == some b) := by
  rw [goesOnWith, h, Bool.eq_iff_iff]
  cases l with
  | nil => simp [List.isPrefixOf]
  | cons d l =>
    simp only [List.isPrefixOf, Bool.and_true, Bool.and_eq_true, beq_iff_eq, List.head?_cons,
      Option.some.injEq]
    rw [eq_comm, eq_comm (a := b)]

/-- A text is as long as an offset and what follows it. -/
lemma length_of_drop {l : List Char} (h : cs.drop i = l) (hi : i ≤ cs.length) :
    cs.length = i + l.length := by
  have := congrArg List.length h
  rw [List.length_drop] at this
  omega

/-- A block comment stops where the scan of its text ends. -/
lemma blockStop_eq {depth : Nat} {l : List Char} (hi : i ≤ cs.length) (h : cs.drop i = l) :
    blockStop cs depth i = i + (blockComment depth l).text.length := by
  fun_induction blockComment depth l generalizing i with
  | case1 depth l ih =>
    have hlt := lt_length_of_drop h
    have hlength := length_of_drop h hi
    have hrest : cs.drop (i + 2) = l := drop_add (a := ['/', '*']) h
    rw [List.length_cons, List.length_cons] at hlength
    rw [blockStop, if_pos hlt, if_pos (by simp [goesOnWith, h]), ih (by omega) hrest,
      Taken.text_prepend, List.length_append]
    simp only [List.length_cons, List.length_nil]
    omega
  | case2 depth l hdepth =>
    have hlt := lt_length_of_drop h
    rw [blockStop, if_pos hlt, if_neg (by simp [goesOnWith, h]), if_pos (by simp [goesOnWith, h]),
      if_pos hdepth]
    rfl
  | case3 depth l hdepth ih =>
    have hlt := lt_length_of_drop h
    have hlength := length_of_drop h hi
    have hrest : cs.drop (i + 2) = l := drop_add (a := ['*', '/']) h
    rw [List.length_cons, List.length_cons] at hlength
    rw [blockStop, if_pos hlt, if_neg (by simp [goesOnWith, h]), if_pos (by simp [goesOnWith, h]),
      if_neg hdepth, ih (by omega) hrest, Taken.text_prepend, List.length_append]
    simp only [List.length_cons, List.length_nil]
    omega
  | case4 depth c l hopen hclose ih =>
    have hlt := lt_length_of_drop h
    have hnot : ∀ a b : Char, (∀ more, c = a → l = b :: more → False) →
        goesOnWith cs [a, b] i = false := by
      intro a b hne
      rw [goesOnWith_pair h, Bool.and_eq_false_iff, beq_eq_false_iff_ne,
        beq_eq_false_iff_ne, ← not_and_or]
      rintro ⟨hc, hhead⟩
      obtain ⟨more, hl⟩ := List.head?_eq_some_iff.1 hhead
      exact hne more hc hl
    rw [blockStop, if_pos hlt, hnot '/' '*' hopen, hnot '*' '/' hclose]
    simp only [Bool.false_eq_true, if_false]
    rw [ih (by omega) (drop_succ h), Taken.text_prepend, List.length_append, List.length_singleton,
      Nat.add_assoc]
  | case5 depth =>
    have hle : cs.length ≤ i := List.drop_eq_nil_iff.1 h
    rw [blockStop, if_neg (by omega)]
    simp only [List.length_nil]
    omega

/-! ### The end of a literal -/

/-- The offset after a row of number signs, of which it is known that something follows. -/
def signsAt? (cs : List Char) (i : Nat) : Option Nat :=
  match _h : cs[i]? with
  | none => none
  | some c => if c == '#' then signsAt? cs (i + 1) else some i
termination_by cs.length - i
decreasing_by
  have := (List.getElem?_eq_some_iff.1 _h).1
  omega

/-- Whether a literal starts at an offset. -/
def startsLiteralAt? (cs : List Char) (i : Nat) : Option Bool :=
  if i < cs.length then do
    let c ← cs[i]?
    if c == '#' then startsLiteralAt? cs (i + 1) else some (c == '"')
  else some false
termination_by cs.length - i

/-- The offset after the rest of a literal in which some frames are open. -/
def literalRestAt? (cs : List Char) (frames : List Frame) (i : Nat) : Option Nat :=
  if i < cs.length then do
    let c ← cs[i]?
    match step frames c (cs.drop (i + 1)) with
    | .more extra frames => literalRestAt? cs frames (i + 1 + extra)
    | .finish extra => some (i + 1 + extra)
    | .cut => some i
  else some cs.length
termination_by cs.length - i

/-- The offset after the literal that starts at an offset. -/
def literalAt? (cs : List Char) (i : Nat) : Option Nat := do
  let quote ← signsAt? cs i
  let o := opening (quote - i) (cs.drop quote)
  literalRestAt? cs [o.2] (quote + o.1.length)

/-- The number signs in front of a literal end where the scan of them ends. -/
lemma signsAt?_eq {l : List Char} (h : cs.drop i = l) (hl : startsLiteral l = true) :
    signsAt? cs i = some (i + (l.takeWhile (· == '#')).length) := by
  induction l generalizing i with
  | nil => simp [startsLiteral] at hl
  | cons c l ih =>
    have hc : cs[i]? = some c := getElem?_of_drop h
    rw [signsAt?]
    split
    · rename_i hnone
      rw [hc] at hnone
      exact absurd hnone (by simp)
    · rename_i d hsome
      obtain rfl : c = d := Option.some.inj (hc.symm.trans hsome)
      by_cases hsign : (c == '#') = true
      · rw [if_pos hsign, List.takeWhile_cons_of_pos (p := (· == '#')) hsign, ih (drop_succ h),
          List.length_cons]
        · congr 1
          omega
        · rwa [startsLiteral, List.dropWhile_cons_of_pos (p := (· == '#')) hsign] at hl
      · rw [if_neg hsign, List.takeWhile_cons_of_neg (p := (· == '#')) hsign]
        rfl

/-- Whether a literal starts at an offset is seen at what follows it. -/
lemma startsLiteralAt?_eq {l : List Char} (h : cs.drop i = l) :
    startsLiteralAt? cs i = some (startsLiteral l) := by
  induction l generalizing i with
  | nil =>
    rw [startsLiteralAt?, if_neg (by have := List.drop_eq_nil_iff.1 h; omega)]
    rfl
  | cons c l ih =>
    have hc : cs[i]? = some c := getElem?_of_drop h
    rw [startsLiteralAt?, if_pos (lt_length_of_drop h), hc, Option.bind_eq_bind, Option.bind_some,
      startsLiteral]
    by_cases hsign : (c == '#') = true
    · rw [if_pos hsign, List.dropWhile_cons_of_pos (p := (· == '#')) hsign]
      exact ih (drop_succ h)
    · rw [if_neg hsign, List.dropWhile_cons_of_neg (p := (· == '#')) hsign, List.head?_cons]
      rfl

/-- What closes a literal is there. -/
lemma le_length_of_step {frames : List Frame} {c : Char} {l : List Char} {extra : Nat}
    (h : step frames c l = .finish extra) : extra ≤ l.length := by
  obtain ⟨closing, _, _, -, hclosing, rfl⟩ := exists_of_step_eq_finish h
  have hle := hclosing.length_le
  rw [List.length_cons] at hle
  omega

/-- An escape at the very end makes the search go one offset beyond the end. -/
lemma literalRestAt?_eq {frames : List Frame} {l : List Char} (h : cs.drop i = l) :
    literalRestAt? cs frames i = some (min i cs.length + (literalRest frames l).text.length) := by
  fun_induction literalRest frames l generalizing i with
  | case1 frames =>
    have hle := List.drop_eq_nil_iff.1 h
    rw [literalRestAt?, if_neg (by omega), Nat.min_eq_right hle]
    rfl
  | case2 frames c l extra frames' hstep ih =>
    have hlt := lt_length_of_drop h
    have hc : cs[i]? = some c := getElem?_of_drop h
    have hrest : cs.drop (i + 1 + extra) = l.drop extra := by rw [← List.drop_drop, drop_succ h]
    have hlength := length_of_drop h (Nat.le_of_lt hlt)
    rw [literalRestAt?, if_pos hlt, hc, Option.bind_eq_bind, Option.bind_some, drop_succ h, hstep]
    dsimp only
    rw [ih hrest, Taken.text_prepend, List.length_append, List.length_cons, List.length_take]
    rw [List.length_cons] at hlength
    congr 1
    omega
  | case3 frames c l extra hstep =>
    have hlt := lt_length_of_drop h
    have hc : cs[i]? = some c := getElem?_of_drop h
    have hextra := le_length_of_step hstep
    rw [literalRestAt?, if_pos hlt, hc, Option.bind_eq_bind, Option.bind_some, drop_succ h, hstep]
    dsimp only
    rw [List.length_cons, List.length_take]
    congr 1
    omega
  | case4 frames c l hstep =>
    have hlt := lt_length_of_drop h
    have hc : cs[i]? = some c := getElem?_of_drop h
    rw [literalRestAt?, if_pos hlt, hc, Option.bind_eq_bind, Option.bind_some, drop_succ h, hstep]
    dsimp only
    rw [List.length_nil]
    congr 1
    omega

/-- A literal at an offset stops where the scan of its text ends. -/
lemma literalAt?_eq {l : List Char} (h : cs.drop i = l) (hl : startsLiteral l = true)
    (hi : i ≤ cs.length) :
    literalAt? cs i = some (i + (takeLiteral l).text.length) := by
  have hbody : cs.drop (i + (l.takeWhile (· == '#')).length) = l.dropWhile (· == '#') := by
    apply drop_add
    rw [h, List.takeWhile_append_dropWhile]
  have hlength := length_of_drop h hi
  have hsplit := congrArg List.length (List.takeWhile_append_dropWhile (p := (· == '#')) (l := l))
  rw [List.length_append] at hsplit
  rw [literalAt?, signsAt?_eq h hl, Option.bind_eq_bind, Option.bind_some,
    Nat.add_sub_cancel_left, hbody]
  dsimp only
  have hrest := fun n => congrArg (List.drop n) hbody
  simp only [List.drop_drop] at hrest
  rw [literalRestAt?_eq (hrest _), takeLiteral]
  simp only [Taken.text_prepend, List.length_append, List.length_take]
  congr 1
  omega

/-! ### Comments and literals -/

/-- A comment or a literal, and where it stands. -/
structure Cover where
  isComment : Bool
  extent : Extent
  deriving DecidableEq, Repr

/-- The comment or the literal that starts at an offset: whether it is a comment, and the offset
after it. -/
def coverAt? (cs : List Char) (i : Nat) : Option (Option (Bool × Nat)) :=
  if goesOnWith cs ['/', '/'] i then some (some (true, feedAt cs i))
  else if goesOnWith cs ['/', '*'] i then some (some (true, blockStop cs 0 i))
  else do
    if ← startsLiteralAt? cs i then
      let stop ← literalAt? cs i
      some (some (false, stop))
    else some none

/-- The comments and the literals from an offset on.  Each has to take something. -/
def coversAt? (cs : List Char) (i : Nat) : Option (List Cover) :=
  if i < cs.length then do
    match ← coverAt? cs i with
    | none => coversAt? cs (i + 1)
    | some (isComment, stop) =>
      if i < stop then
        let rest ← coversAt? cs stop
        some (⟨isComment, ⟨i, stop⟩⟩ :: rest)
      else none
  else some []
termination_by cs.length - i

/-- What a lexeme is as a comment or a literal, and how long it is. -/
def Lexeme.cover : Lexeme → Option (Bool × Nat)
  | .code _ => none
  | .comment text _ => some (true, text.length)
  | .literal text _ => some (false, text.length)

/-- The comments and the literals among lexemes that begin at an offset. -/
def coversFrom (offset : Nat) : List Lexeme → List Cover
  | [] => []
  | x :: xs =>
    let rest := coversFrom (offset + x.text.length) xs
    match x.cover with
    | none => rest
    | some (isComment, length) => ⟨isComment, ⟨offset, offset + length⟩⟩ :: rest

/-- A comment or a literal ends where its lexeme does. -/
lemma coverAt?_eq {c : Char} {l : List Char} (h : cs.drop i = c :: l) :
    coverAt? cs i = some ((first c l).1.cover.map fun x => (x.1, i + x.2)) := by
  have hi := lt_length_of_drop h
  rw [coverAt?, goesOnWith_pair h, goesOnWith_pair h, first]
  by_cases hline : (c == '/' && l.head? == some '/') = true
  · have hc : c = '/' := by simpa using (Bool.and_eq_true_iff.1 hline).1
    rw [if_pos hline, if_pos hline, feedAt, h, hc, List.takeWhile_cons_of_pos (by decide)]
    rfl
  · rw [if_neg hline, if_neg hline]
    by_cases hblock : (c == '/' && l.head? == some '*') = true
    · have hstart : cs.drop i = '/' :: '*' :: l.drop 1 := by
        obtain ⟨hc, hhead⟩ := Bool.and_eq_true_iff.1 hblock
        cases l with
        | nil => simp at hhead
        | cons d l => simp_all
      have hrest : cs.drop (i + 2) = l.drop 1 := drop_add (a := ['/', '*']) hstart
      have hlength := length_of_drop hstart (Nat.le_of_lt hi)
      rw [List.length_cons, List.length_cons] at hlength
      have hopen : blockStop cs 0 i = blockStop cs 1 (i + 2) := by
        rw [blockStop, if_pos hi, if_pos (by simp [goesOnWith, hstart])]
      have htake : (l.take 1).length = 1 := by
        have := (Bool.and_eq_true_iff.1 hblock).2
        cases l with
        | nil => simp at this
        | cons d l => rfl
      rw [if_pos hblock, if_pos hblock, hopen, blockStop_eq (by omega) hrest]
      simp only [Lexeme.cover, Option.map_some, List.length_cons, List.length_append, htake]
      congr 3
      omega
    · rw [if_neg hblock, if_neg hblock, startsLiteralAt?_eq h, Option.bind_eq_bind,
        Option.bind_some]
      by_cases hliteral : startsLiteral (c :: l) = true
      · rw [if_pos hliteral, if_pos hliteral, literalAt?_eq h hliteral (Nat.le_of_lt hi)]
        rfl
      · rw [if_neg hliteral, if_neg hliteral]
        rfl

/-- The comments and the literals are those among the lexemes. -/
lemma coversAt?_eq {l : List Char} (h : cs.drop i = l) :
    coversAt? cs i = some (coversFrom i (lexemes l)) := by
  fun_induction lexemes l generalizing i with
  | case1 =>
    have := List.drop_eq_nil_iff.1 h
    rw [coversAt?, if_neg (by omega)]
    rfl
  | case2 c l ih =>
    have hrest : cs.drop (i + (first c l).1.text.length) = (first c l).2 := by
      apply drop_add
      rw [h, text_first_append]
    have hpos := List.length_pos_iff.2 (text_first_ne_nil c l)
    have hnext := ih hrest
    rw [coversAt?, if_pos (lt_length_of_drop h), coverAt?_eq h, Option.bind_eq_bind,
      Option.bind_some, coversFrom]
    cases hx : (first c l).1 with
    | code d =>
      rw [hx] at hnext
      exact hnext
    | comment text closed =>
      rw [hx] at hnext hpos
      have hlt : i < i + text.length := Nat.lt_add_of_pos_right hpos
      simp only [Lexeme.cover, Option.map_some]
      rw [if_pos hlt, show i + text.length =
        i + (Lexeme.comment text closed).text.length from rfl, hnext]
      rfl
    | literal text closed =>
      rw [hx] at hnext hpos
      have hlt : i < i + text.length := Nat.lt_add_of_pos_right hpos
      simp only [Lexeme.cover, Option.map_some]
      rw [if_pos hlt, show i + text.length =
        i + (Lexeme.literal text closed).text.length from rfl, hnext]
      rfl

/-! ### Blanking in place -/

/-- Blank a view in an extent, but for the line feeds of the text. -/
def blankAt? (cs view : List Char) (i stop : Nat) : Option (List Char) :=
  if i < stop then do
    let c ← cs[i]?
    if c == '\n' then blankAt? cs view (i + 1) stop
    else if i < view.length then blankAt? cs (view.set i ' ') (i + 1) stop
    else none
  else some view
termination_by stop - i

/-- Blank a view in the hidden part of each comment or literal. -/
def blankEach? (hidden : Cover → Extent) (cs view : List Char) (covers : List Cover) :
    Option (List Char) :=
  covers.foldlM (fun view c => blankAt? cs view (hidden c).start (hidden c).stop) view

namespace Cover

/-- What the clean view hides: all of a comment, and nothing of a literal. -/
def hiddenInClean (c : Cover) : Extent :=
  if c.isComment then c.extent else ⟨c.extent.start, c.extent.start⟩

/-- What the skeleton hides: all of a comment, and of a literal what is between its first and its
last character. -/
def hiddenInSkeleton (c : Cover) : Extent :=
  if c.isComment then c.extent else ⟨c.extent.start + 1, c.extent.stop - 1⟩

end Cover

/-- The views of a text, built by offset. -/
def viewsAt? (cs : List Char) : Option Views := do
  let covers ← coversAt? cs 0
  let clean ← blankEach? Cover.hiddenInClean cs cs covers
  let skeleton ← blankEach? Cover.hiddenInSkeleton cs cs covers
  let literals := (covers.filter fun c => !c.isComment).map Cover.extent
  some ⟨clean, skeleton, depths skeleton, literals, lineStarts cs⟩

/-- Where view and text agree, blanking puts blanks in place of the characters. -/
lemma blankAt?_eq {a b hidden rest more : List Char} (hab : a.length = b.length) {stop : Nat}
    (hstop : stop = a.length + hidden.length) :
    blankAt? (a ++ (hidden ++ rest)) (b ++ (hidden ++ more)) a.length stop =
      some (b ++ (hidden.map blanked ++ more)) := by
  induction hidden generalizing a b with
  | nil =>
    rw [List.length_nil, Nat.add_zero] at hstop
    rw [blankAt?, if_neg (by omega)]
    rfl
  | cons c hidden ih =>
    rw [List.length_cons] at hstop
    have hnext : ∀ d, blankAt? (a ++ (c :: (hidden ++ rest))) (b ++ (d :: (hidden ++ more)))
        (a.length + 1) stop =
        some (b ++ (d :: (hidden.map blanked ++ more))) := by
      intro d
      have := ih (a := a ++ [c]) (b := b ++ [d]) (by simp [hab])
        (by rw [List.length_append, List.length_singleton]; omega)
      simpa using this
    have hget : (a ++ (c :: (hidden ++ rest)))[a.length]? = some c := by simp
    rw [blankAt?, if_pos (by omega), List.cons_append, List.cons_append, hget,
      Option.bind_eq_bind, Option.bind_some, List.map_cons, List.cons_append]
    by_cases hc : (c == '\n') = true
    · have hblanked : blanked c = c := by rw [blanked, if_pos hc, eq_comm]; simpa using hc
      rw [if_pos hc, hnext, hblanked]
    · have hset : (b ++ (c :: (hidden ++ more))).set a.length ' ' = b ++
          (' ' :: (hidden ++ more)) := by
        rw [hab, List.set_append_right _ _ (Nat.le_refl _), Nat.sub_self]
        rfl
      have hblanked : blanked c = ' ' := by rw [blanked, if_neg hc]
      rw [if_neg hc, if_pos (by simp [hab]), hset, hnext, hblanked]

/-- Where the hidden part of a lexeme is blanked, there is what the view shows of the lexeme,
whatever stands around it. -/
structure Blanks (hidden : Cover → Extent) (view : Lexeme → List Char) : Prop where
  code : ∀ c, view (.code c) = [c]
  length : ∀ x, (view x).length = x.text.length
  cover : ∀ x isComment length, x.cover = some (isComment, length) →
    ∀ a b rest more : List Char,
    a.length = b.length →
    blankAt? (a ++ (x.text ++ rest)) (b ++ (x.text ++ more))
      (hidden ⟨isComment, ⟨a.length, a.length + length⟩⟩).start
      (hidden ⟨isComment, ⟨a.length, a.length + length⟩⟩).stop =
        some (b ++ (view x ++ more))

/-- In the clean text the comments are hidden. -/
lemma blanks_clean : Blanks Cover.hiddenInClean Lexeme.clean where
  code _ := rfl
  length := Lexeme.length_clean
  cover := by
    intro x isComment length hx a b rest more hab
    cases x with
    | code c => simp [Lexeme.cover] at hx
    | comment text closed =>
      obtain ⟨rfl, rfl⟩ : true = isComment ∧ text.length = length := by
        simpa [Lexeme.cover] using hx
      exact blankAt?_eq hab rfl
    | literal text closed =>
      obtain ⟨rfl, rfl⟩ : false = isComment ∧ text.length = length := by
        simpa [Lexeme.cover] using hx
      rw [Cover.hiddenInClean, if_neg Bool.false_ne_true, blankAt?, if_neg (Nat.lt_irrefl _)]
      rfl

/-- In the skeleton the comments and the insides of literals are hidden. -/
lemma blanks_skeleton : Blanks Cover.hiddenInSkeleton Lexeme.skeleton where
  code _ := rfl
  length := Lexeme.length_skeleton
  cover := by
    intro x isComment length hx a b rest more hab
    cases x with
    | code c => simp [Lexeme.cover] at hx
    | comment text closed =>
      obtain ⟨rfl, rfl⟩ : true = isComment ∧ text.length = length := by
        simpa [Lexeme.cover] using hx
      exact blankAt?_eq hab rfl
    | literal text closed =>
      obtain ⟨rfl, rfl⟩ : false = isComment ∧ text.length = length := by
        simpa [Lexeme.cover] using hx
      rw [Cover.hiddenInSkeleton, if_neg Bool.false_ne_true]
      dsimp only [Lexeme.text, Lexeme.skeleton]
      rcases text with _ | ⟨c, _ | ⟨d, text⟩⟩
      · rw [blankAt?, if_neg (by simp only [List.length_nil]; omega)]
        rfl
      · rw [blankAt?, if_neg (by simp only [List.length_singleton]; omega)]
        rfl
      obtain ⟨inside, last, hlast⟩ : ∃ inside last, d :: text = inside ++ [last] :=
        ⟨_, _, (List.dropLast_concat_getLast (List.cons_ne_nil d text)).symm⟩
      have hblank : blankAt? (a ++ [c] ++ (inside ++ ([last] ++ rest)))
          (b ++ [c] ++ (inside ++ ([last] ++ more)))
          (a ++ [c]).length (a.length + (c :: (inside ++ [last])).length - 1) =
          some (b ++ [c] ++ (inside.map blanked ++ ([last] ++ more))) :=
        blankAt?_eq (by simp [hab]) (by simp; omega)
      have hshown : blankInside (c :: d :: text) = c :: (inside.map blanked ++ [last]) := by
        simp [blankInside, hlast]
      rw [hshown, hlast]
      simpa using hblank

/-- Blanking puts in place of each lexeme what the view shows of it. -/
lemma Blanks.blankEach?_eq {hidden : Cover → Extent} {view : Lexeme → List Char}
    (h : Blanks hidden view) (xs : List Lexeme) (a b : List Char) (hab : a.length = b.length) :
    blankEach? hidden (a ++ textOf xs) (b ++ textOf xs) (coversFrom a.length xs) =
      some (b ++ xs.flatMap view) := by
  induction xs generalizing a b with
  | nil => rfl
  | cons x xs ih =>
    have hnext := ih (a ++ x.text) (b ++ view x)
      (by rw [List.length_append, List.length_append, hab, h.length])
    simp only [List.length_append, List.append_assoc] at hnext
    rw [coversFrom, textOf_cons, List.flatMap_cons]
    cases hx : x.cover with
    | none =>
      obtain ⟨c, rfl⟩ : ∃ c, x = .code c := by
        cases x with
        | code c => exact ⟨c, rfl⟩
        | comment text closed => simp [Lexeme.cover] at hx
        | literal text closed => simp [Lexeme.cover] at hx
      rw [h.code] at hnext ⊢
      exact hnext
    | some cover =>
      obtain ⟨isComment, length⟩ := cover
      have hsame : a.length + length = a.length + x.text.length := by
        cases x <;> simp_all [Lexeme.cover, Lexeme.text]
      rw [blankEach?, List.foldlM_cons, h.cover x isComment length hx a b _ _ hab,
        Option.bind_eq_bind, Option.bind_some]
      exact hnext

/-- What is blanked of a text is its view. -/
lemma Blanks.blankEach?_text {hidden : Cover → Extent} {view : Lexeme → List Char}
    (h : Blanks hidden view) (cs : List Char) :
    blankEach? hidden cs cs (coversFrom 0 (lexemes cs)) = some ((lexemes cs).flatMap view) := by
  have htext : textOf (lexemes cs) = cs := text_lexemes cs
  have hall := h.blankEach?_eq (lexemes cs) [] [] rfl
  rwa [htext, List.nil_append, List.nil_append, List.length_nil] at hall

/-- The literals among what is covered are the literals of the text. -/
lemma map_extent_coversFrom (offset : Nat) (xs : List Lexeme) :
    ((coversFrom offset xs).filter fun c => !c.isComment).map Cover.extent =
      literalsFrom offset xs := by
  induction xs generalizing offset with
  | nil => rfl
  | cons x xs ih => cases x <;> simp [coversFrom, literalsFrom, Lexeme.cover, Lexeme.text, ih]

/-- Built by offset, the views of a text are its views. -/
theorem viewsAt?_eq (cs : List Char) : viewsAt? cs = some (Views.of cs) := by
  simp only [viewsAt?, coversAt?_eq (i := 0) (l := cs) rfl, blanks_clean.blankEach?_text,
    blanks_skeleton.blankEach?_text,
    map_extent_coversFrom, Option.bind_eq_bind, Option.bind_some]
  rfl

end SwiftDependencies.Source
