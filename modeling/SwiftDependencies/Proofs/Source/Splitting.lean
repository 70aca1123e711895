import Mathlib.Data.List.Infix
import Mathlib.Tactic.Common
import SwiftDependencies.Proofs.Source.Extents
import SwiftDependencies.Proofs.Source.Offsets
import SwiftDependencies.Proofs.Text.Margins

/-!
# Splitting at separators

The items of an extent are what stands between the separators at level zero, without margins and
without the blank ones.  Two things are shown of them.

Nothing is lost and nothing is doubled, whatever the brackets are.  The pieces in their order are
the characters of the extent without the separators at level zero (`flatten_piecesFrom_append`), and
a character that is not blank is in no margin.  The characters are numbered for this, so that a
place of the text is a member of one piece only.

A list that is written out is read back.  Texts that are balanced and have no separator outside
their brackets are the pieces of their join (`piecesFrom_intercalate`), and the items are the pieces
that are left without their margins (`map_cut_items`).
-/

namespace SwiftDependencies.Source

/-! ### Pieces -/

section Pieces

variable {α β : Type} {char : α → Char} {separator : Char → Bool} {level : Int}

/-- Whether a character separates at a level. -/
def isCut (separator : Char → Bool) (level : Int) (c : Char) : Bool :=
  !(isOpener c || isCloser c) && separator c && level == 0

/-- There is no cut at anything but the separator outside brackets. -/
lemma isCut_eq_false_iff {c d : Char} (opens : isOpener d = false) (closes : isCloser d = false) :
    isCut (· == d) level c = false ↔ ¬(c = d ∧ level = 0) := by
  by_cases h : c = d
  · subst h
    simp [isCut, opens, closes]
  · simp [isCut, h]

/-- Behind a cut another piece begins. -/
lemma piecesFrom_cons_of_cut {a : α} (l : List α) (h : isCut separator level (char a) = true) :
    piecesFrom char separator level (a :: l) = [] :: piecesFrom char separator level l :=
  if_pos h

/-- The first element is in some piece unless there is a cut at it. -/
lemma flatten_piecesFrom_cons (a : α) (l : List α) :
    (piecesFrom char separator level (a :: l)).flatten =
      (if isCut separator level (char a) then [] else [a]) ++
        (piecesFrom char separator (levelAfter level (char a)) l).flatten := by
  by_cases hcut : isCut separator level (char a) = true
  · have hbracket : (isOpener (char a) || isCloser (char a)) = false := by
      simp only [isCut, Bool.and_eq_true, Bool.not_eq_true'] at hcut
      exact hcut.1.1
    rw [if_pos hcut, piecesFrom_cons_of_cut l hcut, levelAfter_of_not hbracket]
    rfl
  · rw [if_neg hcut, piecesFrom_cons_of_not l (Bool.not_eq_true _ ▸ hcut)]
    obtain ⟨first, rest, heq⟩ := List.exists_cons_of_ne_nil
      (l := piecesFrom char separator (levelAfter level (char a)) l) (piecesFrom_ne_nil _ _)
    rw [heq]
    rfl

/-- The pieces of a sequence are those of its first part and those of the rest, from the level at
which the first part ends. -/
lemma flatten_piecesFrom_append (a l : List α) :
    (piecesFrom char separator level (a ++ l)).flatten =
      (piecesFrom char separator level a).flatten ++
        (piecesFrom char separator ((a.map char).foldl levelAfter level) l).flatten := by
  induction a generalizing level with
  | nil => rfl
  | cons x a ih =>
    rw [List.cons_append, flatten_piecesFrom_cons, flatten_piecesFrom_cons, ih, List.append_assoc]
    rfl

/-- The pieces in a row are part of the whole. -/
lemma flatten_piecesFrom_sublist (char : α → Char) (separator : Char → Bool) (level : Int)
    (l : List α) :
    (piecesFrom char separator level l).flatten.Sublist l := by
  induction l generalizing level with
  | nil => exact List.Sublist.refl _
  | cons a l ih =>
    rw [flatten_piecesFrom_cons]
    split
    · exact (ih _).cons a
    · exact (ih _).cons_cons a

/-- An element that occurs once is in a piece unless it separates. -/
lemma mem_flatten_piecesFrom {a l : List α} {x : α} (ha : x ∉ a) (hl : x ∉ l) :
    x ∈ (piecesFrom char separator level (a ++ x :: l)).flatten ↔
      isCut separator ((a.map char).foldl levelAfter level) (char x) = false := by
  have ha' : x ∉ (piecesFrom char separator level a).flatten :=
    fun h => ha ((flatten_piecesFrom_sublist char separator level a).subset h)
  have hl' (level : Int) : x ∉ (piecesFrom char separator level l).flatten :=
    fun h => hl ((flatten_piecesFrom_sublist char separator level l).subset h)
  rw [flatten_piecesFrom_append, flatten_piecesFrom_cons, List.mem_append, List.mem_append]
  cases isCut separator ((a.map char).foldl levelAfter level) (char x) with
  | true => simp [ha', hl', -List.mem_flatten]
  | false => simp

/-- To cut what a function gives is to cut by what it shows. -/
lemma piecesFrom_map (f : β → α) (l : List β) :
    piecesFrom char separator level (l.map f) =
      (piecesFrom (char ∘ f) separator level l).map (List.map f) := by
  induction l generalizing level with
  | nil => rfl
  | cons b l ih =>
    by_cases hcut : isCut separator level (char (f b)) = true
    · have hone : piecesFrom (char ∘ f) separator level (b :: l) =
          [] :: piecesFrom (char ∘ f) separator level l :=
        piecesFrom_cons_of_cut l hcut
      rw [List.map_cons, piecesFrom_cons_of_cut _ hcut, hone, ih]
      rfl
    · have hone : piecesFrom (char ∘ f) separator level (b :: l) =
          (piecesFrom (char ∘ f) separator (levelAfter level (char (f b)))
            l).modifyHead (b :: ·) :=
        piecesFrom_cons_of_not l (Bool.not_eq_true _ ▸ hcut)
      rw [List.map_cons, piecesFrom_cons_of_not _ (Bool.not_eq_true _ ▸ hcut), hone, ih]
      obtain ⟨first, rest, heq⟩ := List.exists_cons_of_ne_nil
        (l := piecesFrom (char ∘ f) separator (levelAfter level (char (f b))) l)
          (piecesFrom_ne_nil _ _)
      rw [heq]
      rfl

/-- Balanced texts without separators outside their brackets are the pieces of their join. -/
lemma piecesFrom_intercalate {c : Char} (opens : isOpener c = false) (closes : isCloser c = false)
    {texts : List (List Char)} (hne : texts ≠ []) (h : ∀ x ∈ texts, Balanced (· ≠ c) x) :
    piecesFrom id (· == c) 0 ([c].intercalate texts) = texts := by
  induction texts with
  | nil => exact absurd rfl hne
  | cons x texts ih =>
    have hx (rest : List Char) : piecesFrom id (· == c) 0 (x ++ rest) =
        (piecesFrom id (· == c) 0 rest).modifyHead (x ++ ·) :=
      piecesFrom_append (h x List.mem_cons_self) (by decide) (fun _ d hd => by simpa using hd)
        (List.map_id x) rest
    cases texts with
    | nil =>
      have := hx []
      rw [List.append_nil] at this
      rw [List.intercalate_singleton, this]
      simp [piecesFrom]
    | cons y texts =>
      rw [List.intercalate_cons_cons, List.append_assoc, List.singleton_append, hx,
        piecesFrom_cons_of_separator _ opens closes (by simp), ih (List.cons_ne_nil y texts)
          fun z hz => h z (List.mem_cons_of_mem x hz)]
      simp

end Pieces

namespace Extent

variable {α β : Type} {cs : List Char} {e p : Extent} {c : Char} {k : Nat}

/-! ### Numbered characters -/

/-- What an extent cuts out of what a function gives is given by what it cuts out. -/
lemma map_cut (f : α → β) (e : Extent) (l : List α) : (e.cut l).map f = e.cut (l.map f) := by
  rw [cut, cut, List.map_take, List.map_drop]

/-- An extent is what stands before a place in it, the place, and what stands behind it. -/
lemma cut_eq_append {l : List α} (hk : k ∈ e) (hlt : k < l.length) :
    e.cut l = (⟨e.start, k⟩ : Extent).cut l ++
      l[k] :: (⟨k + 1, e.stop⟩ : Extent).cut l := by
  obtain ⟨hle, hstop⟩ := mem_iff.1 hk
  have hsize : e.stop - e.start = (k - e.start) + (e.stop - (k + 1) + 1) := by omega
  have hplace : e.start + (k - e.start) = k := by omega
  rw [cut, cut, cut, hsize, List.take_add, List.drop_drop, hplace, List.drop_eq_getElem_cons hlt,
    List.take_succ_cons]

/-- In a numbered text the number of a character is its offset. -/
lemma getElem?_zipIdx_eq_some_iff {x : Char × Nat} :
    cs.zipIdx[k]? = some x ↔ x.2 = k ∧ cs[k]? = some x.1 := by
  rw [List.getElem?_zipIdx, Option.map_eq_some_iff]
  constructor
  · rintro ⟨c, hc, rfl⟩
    exact ⟨Nat.zero_add k, hc⟩
  · rintro ⟨hk, hc⟩
    exact ⟨x.1, hc, Prod.ext rfl ((Nat.zero_add k).trans hk.symm)⟩

/-- The numbered characters of an extent are those of its places. -/
lemma mem_cut_zipIdx : (c, k) ∈ e.cut cs.zipIdx ↔ k ∈ e ∧ cs[k]? = some c := by
  rw [mem_iff, cut, List.mem_iff_getElem?]
  simp only [List.getElem?_take, List.getElem?_drop]
  constructor
  · rintro ⟨n, hn⟩
    split at hn
    · obtain ⟨rfl, hc⟩ := getElem?_zipIdx_eq_some_iff.1 hn
      exact ⟨by omega, hc⟩
    · simp at hn
  · rintro ⟨⟨hle, hlt⟩, hc⟩
    refine ⟨k - e.start, ?_⟩
    rw [if_pos (by omega), show e.start + (k - e.start) = k by omega]
    exact getElem?_zipIdx_eq_some_iff.2 ⟨rfl, hc⟩

/-- The numbers of a numbered text rise. -/
lemma pairwise_zipIdx (cs : List Char) : cs.zipIdx.Pairwise fun x y => x.2 < y.2 := by
  have h := List.pairwise_lt_range' (s := 0) (n := cs.length)
  rwa [← List.zipIdx_map_snd 0 cs, List.pairwise_map] at h

/-- An extent cuts out the part that it holds. -/
lemma Holds.cut_eq {whole part : List α} (h : p.Holds whole part) : p.cut whole = part := by
  obtain ⟨rest, hrest⟩ := h.here
  rw [cut, ← hrest, h.stop, Nat.add_sub_cancel_left, List.take_left]

/-- What an extent holds of the numbered characters is what stands at its places. -/
lemma Holds.mem_iff {part : List (Char × Nat)} (h : p.Holds cs.zipIdx part) :
    (c, k) ∈ part ↔ k ∈ p ∧ cs[k]? = some c := by
  rw [← h.cut_eq, mem_cut_zipIdx]

/-- In a part of a numbered text the numbers go up from the start of its extent. -/
lemma Holds.getElem_eq {part : List (Char × Nat)} (h : p.Holds cs.zipIdx part) {n : Nat}
    (hn : n < part.length) :
    part[n].2 = p.start + n ∧ cs[p.start + n]? = some part[n].1 := by
  have hget := h.getElem?_add hn
  rw [List.getElem?_eq_getElem hn] at hget
  exact getElem?_zipIdx_eq_some_iff.1 hget

/-- Every offset of an extent is the number of a character in the part that it holds. -/
lemma Holds.exists_mem {part : List (Char × Nat)} (h : p.Holds cs.zipIdx part) (hk : k ∈ p) :
    ∃ c, (c, k) ∈ part := by
  obtain ⟨hle, hlt⟩ := Extent.mem_iff.1 hk
  have hn : k - p.start < part.length := by
    have := h.stop
    omega
  have hnumber : part[k - p.start].2 = k := by
    have := (h.getElem_eq hn).1
    omega
  have hpair : (part[k - p.start].1, k) = part[k - p.start] := Prod.ext rfl hnumber.symm
  exact ⟨part[k - p.start].1, hpair ▸ List.getElem_mem hn⟩

/-! ### Items -/

variable {separator : Char → Bool}

/-- The numbered characters of an extent in pieces. -/
def numberedPieces (cs : List Char) (separator : Char → Bool) (e : Extent) :
    List (List (Char × Nat)) :=
  piecesFrom (·.1) separator 0 (e.cut cs.zipIdx)

/-- A piece without its blank margins. -/
def solid (piece : List (Char × Nat)) : List (Char × Nat) :=
  Text.dropMargins (fun x => Text.isBlank x.1) piece

/-- The solid part of a piece is a stretch of it. -/
lemma infix_solid (piece : List (Char × Nat)) : solid piece <:+: piece := by
  obtain ⟨a, b, -, -, h⟩ := Text.exists_margins (fun x : Char × Nat => Text.isBlank x.1) piece
  exact ⟨a, b, h.symm⟩

/-- A part of a numbered text has an extent unless it is empty. -/
lemma exists_ofNumbered?_iff {part : List (Char × Nat)} :
    (∃ p, ofNumbered? part = some p) ↔ part ≠ [] := by
  cases part <;> simp [ofNumbered?]

/-- A row of numbered characters is what its extent holds. -/
lemma holds_of_ofNumbered? {part : List (Char × Nat)} (hpart : part <:+: cs.zipIdx)
    (h : ofNumbered? part = some p) : p.Holds cs.zipIdx part := by
  cases part with
  | nil => simp [ofNumbered?] at h
  | cons x xs =>
    obtain rfl := Option.some.inj h
    obtain ⟨a, b, hsplit⟩ := hpart
    have hget : cs.zipIdx[a.length]? = some x := by
      rw [← hsplit]
      simp
    refine ⟨Nat.add_assoc .., b, ?_⟩
    rw [← hsplit, (getElem?_zipIdx_eq_some_iff.1 hget).1, List.append_assoc, List.drop_left]

/-- The solid part of a numbered piece is a stretch of the numbered text. -/
lemma infix_of_mem_numberedPieces {piece : List (Char × Nat)}
    (h : piece ∈ numberedPieces cs separator e) :
    solid piece <:+: cs.zipIdx :=
  (infix_solid piece).trans <| (infix_of_mem_piecesFrom h).trans <|
    (List.take_prefix _ _).isInfix.trans (List.drop_suffix _ _).isInfix

/-- An item holds a piece without its margins. -/
lemma exists_piece (h : p ∈ e.items cs separator) :
    ∃ piece ∈ numberedPieces cs separator e, ofNumbered? (solid piece) = some p ∧
      p.Holds cs.zipIdx (solid piece) := by
  obtain ⟨piece, hpiece, hp⟩ := List.mem_filterMap.1 h
  exact ⟨piece, hpiece, hp, holds_of_ofNumbered? (infix_of_mem_numberedPieces hpiece) hp⟩

/-- The extent of a numbered part is not empty. -/
lemma lt_of_ofNumbered? {part : List (Char × Nat)} (h : ofNumbered? part = some p) :
    p.start < p.stop := by
  cases part with
  | nil => simp [ofNumbered?] at h
  | cons x xs =>
    obtain rfl := Option.some.inj h
    show x.2 < x.2 + xs.length + 1
    omega

/-- An extent that is not empty has its start in it. -/
lemma start_mem (h : p.start < p.stop) : p.start ∈ p :=
  mem_iff.2 ⟨Nat.le_refl _, h⟩

/-- An extent that is not empty has the offset before its stop in it. -/
lemma last_mem (h : p.start < p.stop) : p.stop - 1 ∈ p :=
  mem_iff.2 ⟨by omega, by omega⟩

/-- The places of an item are places of the extent. -/
lemma mem_of_mem_items (h : p ∈ e.items cs separator) (hk : k ∈ p) : k ∈ e := by
  obtain ⟨piece, hpiece, -, hholds⟩ := exists_piece h
  obtain ⟨c, hc⟩ := hholds.exists_mem hk
  have hpiece : piece <:+: e.cut cs.zipIdx := infix_of_mem_piecesFrom hpiece
  exact (mem_cut_zipIdx.1 (hpiece.subset ((infix_solid piece).subset hc))).1

/-- The items of an extent are within it, and none is empty. -/
lemma bounds_of_mem_items (h : p ∈ e.items cs separator) :
    e.start ≤ p.start ∧ p.start < p.stop ∧ p.stop ≤ e.stop := by
  obtain ⟨piece, -, hp, -⟩ := exists_piece h
  have hlt := lt_of_ofNumbered? hp
  have hfirst := mem_iff.1 (mem_of_mem_items h (start_mem hlt))
  have hlast := mem_iff.1 (mem_of_mem_items h (last_mem hlt))
  omega

/-- An item begins and ends with a character that is not blank. -/
lemma ends_of_mem_items (h : p ∈ e.items cs separator) :
    (∃ c, cs[p.start]? = some c ∧ Text.isBlank c = false) ∧
      ∃ c, cs[p.stop - 1]? = some c ∧ Text.isBlank c = false := by
  obtain ⟨piece, -, hp, hholds⟩ := exists_piece h
  have hpos := List.length_pos_iff.2 (exists_ofNumbered?_iff.1 ⟨p, hp⟩)
  have hstop := hholds.stop
  have hhead : ∀ x ∈ (solid piece).head?, Text.isBlank x.1 = false :=
    Text.not_of_mem_head?_dropMargins
  have hlast : ∀ x ∈ (solid piece).getLast?, Text.isBlank x.1 = false :=
    Text.not_of_mem_getLast?_dropMargins
  constructor
  · refine ⟨_, (hholds.getElem_eq hpos).2, hhead _ ?_⟩
    rw [List.head?_eq_getElem?]
    exact List.getElem?_eq_getElem hpos
  · have hend : (solid piece).length - 1 < (solid piece).length := by omega
    have hoffset : p.stop - 1 = p.start + ((solid piece).length - 1) := by omega
    refine ⟨_, hoffset ▸ (hholds.getElem_eq hend).2, hlast _ ?_⟩
    rw [List.getLast?_eq_getElem?]
    exact List.getElem?_eq_getElem hend

/-- An item ends before the next one begins. -/
lemma pairwise_items (cs : List Char) (separator : Char → Bool) (e : Extent) :
    (e.items cs separator).Pairwise fun p q => p.stop ≤ q.start := by
  have hcut : (e.cut cs.zipIdx).Pairwise fun x y => x.2 < y.2 :=
    (pairwise_zipIdx cs).sublist ((List.take_sublist _ _).trans (List.drop_sublist _ _))
  have hpieces :=
    (List.pairwise_flatten.1 (hcut.sublist (flatten_piecesFrom_sublist (·.1) separator 0 _))).2
  refine List.pairwise_filterMap.2 (hpieces.imp_of_mem ?_)
  intro piece piece' hpiece hpiece' hlt p hp q hq
  have hholds := holds_of_ofNumbered? (infix_of_mem_numberedPieces hpiece) hp
  have hholds' := holds_of_ofNumbered? (infix_of_mem_numberedPieces hpiece') hq
  have hpos := lt_of_ofNumbered? hp
  obtain ⟨c, hc⟩ := hholds.exists_mem (last_mem hpos)
  obtain ⟨d, hd⟩ := hholds'.exists_mem (start_mem (lt_of_ofNumbered? hq))
  have := hlt _ ((infix_solid piece).subset hc) _ ((infix_solid piece').subset hd)
  dsimp only at this
  omega

/-- The level before an offset, counted from another. -/
def levelAt (cs : List Char) (start k : Nat) : Int :=
  ((⟨start, k⟩ : Extent).cut cs).foldl levelAfter 0

/-- A character that is not blank is in an item unless it separates. -/
lemma exists_mem_items_iff (hk : k ∈ e) (hc : cs[k]? = some c) (hb : Text.isBlank c = false) :
    (∃ p ∈ e.items cs separator, k ∈ p) ↔
      isCut separator (levelAt cs e.start k) c = false := by
  obtain ⟨hlt, rfl⟩ := List.getElem?_eq_some_iff.1 hc
  have hsplit := cut_eq_append (l := cs.zipIdx) hk (by simpa using hlt)
  have hbefore : (cs[k], k) ∉ (⟨e.start, k⟩ : Extent).cut cs.zipIdx :=
    fun h => Nat.lt_irrefl k (mem_iff.1 (mem_cut_zipIdx.1 h).1).2
  have hafter : (cs[k], k) ∉ (⟨k + 1, e.stop⟩ : Extent).cut cs.zipIdx :=
    fun h => Nat.not_succ_le_self k (mem_iff.1 (mem_cut_zipIdx.1 h).1).1
  have hmem : (cs[k], k) ∈ (numberedPieces cs separator e).flatten ↔
      isCut separator (levelAt cs e.start k) cs[k] = false := by
    rw [numberedPieces, hsplit, List.getElem_zipIdx, Nat.zero_add,
      mem_flatten_piecesFrom hbefore hafter, map_cut, List.zipIdx_map_fst, levelAt]
  rw [← hmem, List.mem_flatten]
  constructor
  · rintro ⟨p, hp, hkp⟩
    obtain ⟨piece, hpiece, -, hholds⟩ := exists_piece hp
    exact ⟨piece, hpiece, (infix_solid piece).subset (hholds.mem_iff.2 ⟨hkp, hc⟩)⟩
  · rintro ⟨piece, hpiece, hmem⟩
    have hsolid : (cs[k], k) ∈ solid piece := Text.mem_dropMargins hmem hb
    obtain ⟨p, hp⟩ := exists_ofNumbered?_iff.2 (List.ne_nil_of_mem hsolid)
    have hholds := holds_of_ofNumbered? (infix_of_mem_numberedPieces hpiece) hp
    exact ⟨p, List.mem_filterMap.2 ⟨piece, hpiece, hp⟩, (hholds.mem_iff.1 hsolid).1⟩

/-! ### Joins -/

/-- The extent of a piece reads as the piece without its margins, and there is one if something is
left of it. -/
lemma map_cut_ofNumbered? {piece : List (Char × Nat)} (hpart : solid piece <:+: cs.zipIdx) :
    (ofNumbered? (solid piece)).map (·.cut cs) =
      Option.guard (fun t => !t.isEmpty) (Text.dropMargins Text.isBlank (piece.map (·.1))) := by
  have hsolid : Text.dropMargins Text.isBlank (piece.map (·.1)) = (solid piece).map (·.1) :=
    Text.dropMargins_map (·.1) piece
  rw [hsolid]
  rcases eq_or_ne (solid piece) [] with hnil | hne
  · rw [hnil]
    rfl
  · obtain ⟨p, hp⟩ := exists_ofNumbered?_iff.2 hne
    have hcut : p.cut cs = (solid piece).map (·.1) := by
      rw [← (holds_of_ofNumbered? hpart hp).cut_eq, map_cut, List.zipIdx_map_fst]
    rw [hp, Option.map_some, hcut, Option.guard, if_pos (by simpa using hne)]

/-- The items read as the pieces without their margins, as far as something is left of them. -/
lemma map_cut_items (cs : List Char) (separator : Char → Bool) (e : Extent) :
    (e.items cs separator).map (·.cut cs) =
      ((piecesFrom id separator 0 (e.cut cs)).map (Text.dropMargins Text.isBlank)).filter
        (!·.isEmpty) := by
  have hpieces : piecesFrom id separator 0 (e.cut cs) =
      (numberedPieces cs separator e).map (List.map (·.1)) := by
    rw [numberedPieces, ← List.zipIdx_map_fst 0 cs, ← map_cut, piecesFrom_map,
      List.zipIdx_map_fst]
    rfl
  rw [hpieces, List.map_map, ← List.filterMap_eq_filter, List.filterMap_map, items,
    List.map_filterMap]
  exact List.filterMap_congr fun piece hpiece =>
    map_cut_ofNumbered? (infix_of_mem_numberedPieces hpiece)

/-- Of balanced texts without separators outside their brackets, joined by separators, the items are
what is not blank, without margins. -/
lemma map_cut_items_intercalate {d : Char} (opens : isOpener d = false)
    (closes : isCloser d = false) {texts : List (List Char)}
    (h : ∀ x ∈ texts, Balanced (· ≠ d) x) (hcut : e.cut cs = [d].intercalate texts) :
    (e.items cs (· == d)).map (·.cut cs) =
      (texts.map (Text.dropMargins Text.isBlank)).filter (!·.isEmpty) := by
  rw [map_cut_items, hcut]
  cases texts with
  | nil => rfl
  | cons x texts => rw [piecesFrom_intercalate opens closes (List.cons_ne_nil x texts) h]

/-- A text as it is written, with blanks around it. -/
def Surrounds (written text : List Char) : Prop :=
  ∃ a b, (∀ c ∈ a, Text.isBlank c = true) ∧ (∀ c ∈ b, Text.isBlank c = true) ∧
    written = a ++ text ++ b

/-- Blanks around a text are margins. -/
lemma Surrounds.dropMargins_eq {written text : List Char} (h : Surrounds written text) :
    Text.dropMargins Text.isBlank written = Text.dropMargins Text.isBlank text := by
  obtain ⟨a, b, ha, hb, rfl⟩ := h
  rw [Text.dropMargins_append_right hb, Text.dropMargins_append_left ha]

/-- Texts that are written with blanks around them are what is left without the margins. -/
lemma map_dropMargins_written {texts written : List (List Char)}
    (h : List.Forall₂ Surrounds written texts) :
    written.map (Text.dropMargins Text.isBlank) = texts.map (Text.dropMargins Text.isBlank) := by
  induction h with
  | nil => rfl
  | cons hx _ ih => rw [List.map_cons, List.map_cons, hx.dropMargins_eq, ih]

/-- Blanks are no brackets and do not separate. -/
lemma balanced_of_blank {d : Char} (hd : Text.isBlank d = false) {a : List Char}
    (ha : ∀ c ∈ a, Text.isBlank c = true) : Balanced (· ≠ d) a := by
  refine .of_forall fun c hc =>
    ⟨isOpener_of_isBlank (ha c hc), isCloser_of_isBlank (ha c hc), ?_⟩
  rintro rfl
  simp [ha c hc] at hd

/-- Blanks around a text keep it balanced. -/
lemma Surrounds.balanced {d : Char} (hd : Text.isBlank d = false) {written text : List Char}
    (h : Surrounds written text) (htext : Balanced (· ≠ d) text) :
    Balanced (· ≠ d) written := by
  obtain ⟨a, b, ha, hb, rfl⟩ := h
  exact ((balanced_of_blank hd ha).append htext).append (balanced_of_blank hd hb)

/-- The items of a list that is written out are the texts of the list, whatever blanks stand around
them and however many separators follow the last. -/
lemma map_cut_items_of_written {d : Char} (opens : isOpener d = false) (closes : isCloser d = false)
    (hd : Text.isBlank d = false) {texts written trailing : List (List Char)}
    (htexts : ∀ x ∈ texts, Balanced (· ≠ d) x ∧ ∃ c ∈ x, Text.isBlank c = false)
    (hwritten : List.Forall₂ Surrounds written texts)
    (htrailing : ∀ x ∈ trailing, ∀ c ∈ x, Text.isBlank c = true)
    (hcut : e.cut cs = [d].intercalate (written ++ trailing)) :
    (e.items cs (· == d)).map (·.cut cs) = texts.map (Text.dropMargins Text.isBlank) := by
  have hbalanced : ∀ x ∈ written ++ trailing, Balanced (· ≠ d) x := by
    intro x hx
    rcases List.mem_append.1 hx with hx | hx
    · obtain ⟨i, hi, rfl⟩ := List.getElem_of_mem hx
      have hlength : i < texts.length := hwritten.length_eq ▸ hi
      exact (hwritten.get hi hlength).balanced hd (htexts _ (List.getElem_mem hlength)).1
    · exact balanced_of_blank hd (htrailing x hx)
  have hkept : ∀ t ∈ texts.map (Text.dropMargins Text.isBlank), (!t.isEmpty) = true := by
    intro t ht
    obtain ⟨x, hx, rfl⟩ := List.mem_map.1 ht
    obtain ⟨c, hc, hb⟩ := (htexts x hx).2
    have := List.ne_nil_of_mem (Text.mem_dropMargins hc hb)
    simpa using this
  have hdropped : ∀ t ∈ trailing.map (Text.dropMargins Text.isBlank),
      ¬(!t.isEmpty) = true := by
    intro t ht
    obtain ⟨x, hx, rfl⟩ := List.mem_map.1 ht
    rw [Text.dropMargins_eq_nil_iff.2 (htrailing x hx)]
    simp
  rw [map_cut_items_intercalate opens closes hbalanced hcut, List.map_append,
    map_dropMargins_written hwritten, List.filter_append, List.filter_eq_self.2 hkept,
    List.filter_eq_nil_iff.2 hdropped, List.append_nil]

/-! ### Splitting -/

/-- Nothing is lost and nothing is doubled. Whatever the brackets, the items of an extent stand in
it one after the other, not empty, and begin and end with a character that is not blank; a character
that is not blank is in exactly one of them, but for a separator at level zero, which is in none.
And of texts that are balanced, not blank and without separators outside their brackets, joined by
separators, with any blanks around them and with separators after the last or without, the items are
these texts without their margins. -/
theorem items_lossless (cs : List Char) (e : Extent) {d : Char} (opens : isOpener d = false)
    (closes : isCloser d = false) (hd : Text.isBlank d = false) :
    (∀ p ∈ e.items cs (· == d),
      (e.start ≤ p.start ∧ p.start < p.stop ∧ p.stop ≤ e.stop) ∧
      (∃ c, cs[p.start]? = some c ∧ Text.isBlank c = false) ∧
      ∃ c, cs[p.stop - 1]? = some c ∧ Text.isBlank c = false) ∧
    ((e.items cs (· == d)).Pairwise fun p q => p.stop ≤ q.start) ∧
    (∀ k ∈ e, ∀ c, cs[k]? = some c → Text.isBlank c = false →
      ¬(c = d ∧ levelAt cs e.start k = 0) →
      ∃! p, p ∈ e.items cs (· == d) ∧ k ∈ p) ∧
    (∀ k ∈ e, cs[k]? = some d → levelAt cs e.start k = 0 →
      ∀ p ∈ e.items cs (· == d), k ∉ p) ∧
    (∀ texts written trailing : List (List Char),
      (∀ x ∈ texts, Balanced (· ≠ d) x ∧ ∃ c ∈ x, Text.isBlank c = false) →
      List.Forall₂ Surrounds written texts →
      (∀ x ∈ trailing, ∀ c ∈ x, Text.isBlank c = true) →
      e.cut cs = [d].intercalate (written ++ trailing) →
      (e.items cs (· == d)).map (·.cut cs) = texts.map (Text.dropMargins Text.isBlank)) := by
  refine ⟨fun p hp => ⟨bounds_of_mem_items hp, ends_of_mem_items hp⟩, pairwise_items cs _ e,
    ?one, ?none, ?joined⟩
  case one =>
    intro k hk c hc hb hnot
    obtain ⟨p, hp, hkp⟩ :=
      (exists_mem_items_iff hk hc hb).2 ((isCut_eq_false_iff opens closes).2 hnot)
    exact ⟨p, ⟨hp, hkp⟩, fun q hq => eq_of_mem (pairwise_items cs _ e) hq.1 hp hq.2 hkp⟩
  case none =>
    intro k hk hc hlevel p hp hkp
    have hcut := (exists_mem_items_iff hk hc hd).1 ⟨p, hp, hkp⟩
    exact (isCut_eq_false_iff opens closes).1 hcut ⟨rfl, hlevel⟩
  case joined =>
    intro texts written trailing htexts hwritten htrailing hcut
    exact map_cut_items_of_written opens closes hd htexts hwritten htrailing hcut

/-- A comma behind a stray closing bracket does not separate. The list has an item with a comma in
its brackets, blanks around its items and a trailing comma. -/
theorem items_lossless_stray :
    (isOpener ',' = false ∧ isCloser ',' = false ∧ Text.isBlank ',' = false) ∧
    (levelAt ")a, b".toList 0 2 = -1 ∧
      ∃! p, p ∈ (⟨0, 5⟩ : Extent).items ")a, b".toList (· == ',') ∧ 2 ∈ p) ∧
    ((⟨0, 16⟩ : Extent).items " a(b, c) ,[d] , ".toList (· == ',')).map
      (·.cut " a(b, c) ,[d] , ".toList) =
      ["a(b, c)".toList, "[d]".toList] := by
  refine ⟨⟨rfl, rfl, rfl⟩, ⟨rfl, ?_⟩, ?_⟩
  · have h := items_lossless ")a, b".toList ⟨0, 5⟩ (d := ',') rfl rfl rfl
    exact h.2.2.1 2 (mem_iff.2 ⟨by decide, by decide⟩) ',' rfl rfl (by decide)
  · have h := items_lossless " a(b, c) ,[d] , ".toList ⟨0, 16⟩ (d := ',') rfl rfl rfl
    have hblanks : ∀ c ∈ [' '], Text.isBlank c = true := by simp [Text.isBlank_space]
    have hinner : Balanced (fun _ => True) "b, c".toList :=
      .of_forall (by simp [isOpener, isCloser])
    have hcall : Balanced (· ≠ ',') ('a' :: '(' :: ("b, c".toList ++ [')'])) :=
      .plain rfl rfl (by decide) (.group rfl rfl hinner .nil)
    have harray : Balanced (· ≠ ',') ('[' :: (['d'] ++ ']' :: [' '])) :=
      .group rfl rfl (.plain rfl rfl trivial .nil) (.plain rfl rfl (by decide) .nil)
    refine h.2.2.2.2 ["a(b, c)".toList, "[d] ".toList] [" a(b, c) ".toList, "[d] ".toList]
      [[' ']] ?_ ?_ ?_ rfl
    · intro x hx
      rcases List.mem_pair.1 hx with rfl | rfl
      · exact ⟨hcall, 'a', List.mem_cons_self, rfl⟩
      · exact ⟨harray, '[', List.mem_cons_self, rfl⟩
    · exact .cons ⟨[' '], [' '], hblanks, hblanks, rfl⟩
        (.cons ⟨[], [], by simp, by simp, rfl⟩ .nil)
    · intro x hx
      obtain rfl := List.mem_singleton.1 hx
      exact hblanks

end Extent

end SwiftDependencies.Source
