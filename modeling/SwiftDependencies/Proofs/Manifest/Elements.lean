import Mathlib.Tactic.Common
import SwiftDependencies.Proofs.Manifest.Transparency

/-!
# Dependencies behind constants

An element of a list of dependencies may be the name of a constant, the value of which may again be
a list with names in it.  Unfolded, an element is a tree: its leaves are declarations, and below a
name stands the tree of the value that is bound to it first.  A name that is already being unfolded
on the way from the root is not unfolded again, so that constants that refer to themselves do no
harm; one that is bound to nothing has nothing below it.

`UnfoldsTo` is this tree as a relation, with the names on the way from the root.  Every element has
exactly one tree, whatever the constants, and `Manifest.reached` lists the declarations of its
leaves (`reached_eq_declarations`). There the names on the way are not kept: constants are put aside
once they have been unfolded.  The two come to the same because the constants that are left answer
for all names that are not on the way (`LeftBy`).
-/

namespace SwiftDependencies

open Source (Span)

/-- What an element of a list of dependencies consists of. -/
inductive ElementTree where
  | nothing
  | declaration (d : Dependency)
  | parts (trees : List ElementTree)
  /-- A name, and what its value consists of. -/
  | constant (name : String) (value : ElementTree)

namespace ElementTree

/-- The declarations at the leaves, from left to right, each with the outermost name above it. -/
def declarations (outermost : Option String) : ElementTree → List Manifest.Reached
  | .nothing => []
  | .declaration d => [⟨d, outermost⟩]
  | .parts trees => trees.attach.flatMap fun ⟨tree, _⟩ => tree.declarations outermost
  | .constant name value => value.declarations (outermost.or (some name))

/-- Nothing declares nothing. -/
@[simp] lemma declarations_nothing (outermost : Option String) :
    nothing.declarations outermost = [] := by
  rw [declarations]

/-- A declaration declares itself, through the outermost constant on the way. -/
@[simp] lemma declarations_declaration (outermost : Option String) (d : Dependency) :
    (declaration d).declarations outermost = [⟨d, outermost⟩] := by
  rw [declarations]

/-- An element with parts declares what they declare, in order. -/
@[simp] lemma declarations_parts (outermost : Option String) (trees : List ElementTree) :
    (parts trees).declarations outermost = trees.flatMap fun tree =>
      tree.declarations outermost := by
  rw [declarations]
  simp

/-- A constant declares what its value does. Its own name only counts if it is the outermost one. -/
@[simp] lemma declarations_constant (outermost : Option String) (name : String)
    (value : ElementTree) :
    (constant name value).declarations outermost =
      value.declarations (outermost.or (some name)) := by
  rw [declarations]

/-- With another name above it, a tree has the same declarations, but for this name. -/
lemma map_declarations (outermost : Option String) (name : String) (tree : ElementTree) :
    (tree.declarations outermost).map (fun r => { r with constant := some name }) =
      tree.declarations (some name) := by
  induction outermost, tree using declarations.induct with
  | case1 => simp
  | case2 => simp
  | case3 outermost trees ih =>
    rw [declarations_parts, declarations_parts, List.map_flatMap]
    exact List.flatMap_congr fun tree htree => ih tree htree
  | case4 outermost inner value ih =>
    rw [declarations_constant, declarations_constant, Option.some_or]
    exact ih

end ElementTree

namespace Manifest

variable {m : Manifest} {path : List String} {name callee : String} {t : Term} {span : Span}

/-- The tree of an element, below the names on the way from the root. -/
inductive UnfoldsTo (m : Manifest) : List String → Term → ElementTree → Prop where
  | text {path : List String} (value : String) (span : Span) :
    UnfoldsTo m path (.string value span) (.declaration (Dependency.bare value))
  | constant {path : List String} {name : String} {span : Span} {value : Term} {tree : ElementTree}
    (first : name ∉ path) (bound : m.constants.find? name = some value)
    (below : UnfoldsTo m (name :: path) value tree) :
    UnfoldsTo m path (.reference name span) (.constant name tree)
  | unbound {path : List String} {name : String} {span : Span}
    (unbound : m.constants.find? name = none) :
    UnfoldsTo m path (.reference name span) .nothing
  | circle {path : List String} {name : String} {span : Span} (again : name ∈ path) :
    UnfoldsTo m path (.reference name span) .nothing
  | array {path : List String} {items : List Term} {span : Span} {trees : List ElementTree}
    (each : items.length = trees.length)
      (parts : ∀ p ∈ items.zip trees, UnfoldsTo m path p.1 p.2) :
    UnfoldsTo m path (.array items span) (.parts trees)
  | declaration {path : List String} {callee : String}
    {arguments : List (Option String × Term)} {span : Span}
    {d : Dependency} (declared : m.declared? callee arguments = some (some d)) :
    UnfoldsTo m path (.call callee arguments span) (.declaration d)
  | nameless {path : List String} {callee : String}
    {arguments : List (Option String × Term)} {span : Span}
    (declared : m.declared? callee arguments = some none) :
    UnfoldsTo m path (.call callee arguments span) .nothing
  | helper {path : List String} {callee : String}
    {arguments : List (Option String × Term)} {span : Span}
    {trees : List ElementTree} (declared : m.declared? callee arguments = none)
    (each : (arguments.filter fun a => a.2.isArray).length = trees.length)
    (parts : ∀ p ∈ (arguments.filter fun a => a.2.isArray).zip trees,
      UnfoldsTo m path p.1.2 p.2) :
    UnfoldsTo m path (.call callee arguments span) (.parts trees)
  | unknown {path : List String} (text : String) (span : Span) :
    UnfoldsTo m path (.unknown text span) .nothing

/-! ### Every element has one tree -/

/-- If every element of a list is related to something, the list is related to a list. -/
lemma exists_zip {α β : Type} {r : α → β → Prop} {as : List α}
    (h : ∀ a ∈ as, ∃ b, r a b) :
    ∃ bs : List β, as.length = bs.length ∧ ∀ p ∈ as.zip bs, r p.1 p.2 := by
  induction as with
  | nil => exact ⟨[], rfl, by simp⟩
  | cons a as ih =>
    obtain ⟨b, hb⟩ := h a List.mem_cons_self
    obtain ⟨bs, hlength, hbs⟩ := ih fun a' ha' => h a' (List.mem_cons_of_mem _ ha')
    refine ⟨b :: bs, by simpa using hlength, ?_⟩
    intro p hp
    rw [List.zip_cons_cons] at hp
    rcases List.mem_cons.1 hp with rfl | hp
    · exact hb
    · exact hbs p hp

/-- Lists of the same length of which the parts agree agree as a whole. -/
lemma flatMap_eq_of_zip {α β γ : Type} {f : α → List γ} {g : β → List γ} {as : List α}
    {bs : List β} (hlength : as.length = bs.length) (h : ∀ p ∈ as.zip bs, f p.1 = g p.2) :
    as.flatMap f = bs.flatMap g := by
  induction as generalizing bs with
  | nil =>
    obtain rfl := List.length_eq_zero_iff.1 hlength.symm
    rfl
  | cons a as ih =>
    cases bs with
    | nil => simp at hlength
    | cons b bs =>
      rw [List.zip_cons_cons] at h
      rw [List.flatMap_cons, List.flatMap_cons, h (a, b) List.mem_cons_self,
        ih (Nat.succ.inj hlength) fun p hp => h p (List.mem_cons_of_mem _ hp)]

/-- What does not pass a test need not be looked at. -/
lemma flatMap_ite {α β : Type} (p : α → Bool) (f : α → List β) (as : List α) :
    (as.flatMap fun a => if p a then f a else []) = (as.filter p).flatMap f := by
  induction as with
  | nil => rfl
  | cons a as ih =>
    rw [List.flatMap_cons, ih, List.filter_cons]
    split
    · rw [List.flatMap_cons]
    · rfl

/-- Lists that belong to the same list by a relation with one answer are the same. -/
lemma eq_of_zip {α β : Type} {r : α → β → Prop} {as : List α} {bs cs : List β}
    (hbs : as.length = bs.length) (hcs : as.length = cs.length)
    (h : ∀ p ∈ as.zip bs, ∀ c, r p.1 c → c = p.2) (hr : ∀ p ∈ as.zip cs, r p.1 p.2) :
    cs = bs := by
  induction as generalizing bs cs with
  | nil =>
    rw [List.length_eq_zero_iff.1 hbs.symm, List.length_eq_zero_iff.1 hcs.symm]
  | cons a as ih =>
    cases bs with
    | nil => simp at hbs
    | cons b bs =>
      cases cs with
      | nil => simp at hcs
      | cons c cs =>
        rw [List.zip_cons_cons] at h hr
        rw [h (a, b) List.mem_cons_self c (hr (a, c) List.mem_cons_self),
          ih (Nat.succ.inj hbs) (Nat.succ.inj hcs) (fun p hp => h p (List.mem_cons_of_mem _ hp))
            fun p hp => hr p (List.mem_cons_of_mem _ hp)]

/-- An element has no two trees. -/
lemma UnfoldsTo.unique {tree other : ElementTree} (h : m.UnfoldsTo path t tree)
    (hother : m.UnfoldsTo path t other) : other = tree := by
  induction h generalizing other with
  | text => cases hother; rfl
  | constant first bound _ ih =>
    cases hother with
    | constant _ bound' below' =>
      obtain rfl := Option.some.inj (bound.symm.trans bound')
      rw [ih below']
    | unbound unbound => simp [bound] at unbound
    | circle again => exact absurd again first
  | unbound unbound =>
    cases hother with
    | constant _ bound _ => simp [bound] at unbound
    | unbound => rfl
    | circle => rfl
  | circle again =>
    cases hother with
    | constant first _ _ => exact absurd again first
    | unbound => rfl
    | circle => rfl
  | array each _ ih =>
    cases hother with
    | array each' parts' => rw [eq_of_zip each each' (fun p hp c hc => ih p hp hc) parts']
  | declaration declared =>
    cases hother with
    | declaration declared' => simp_all
    | nameless declared' => simp_all
    | helper declared' => simp_all
  | nameless declared =>
    cases hother with
    | declaration declared' => simp_all
    | nameless => rfl
    | helper declared' => simp_all
  | helper declared each _ ih =>
    cases hother with
    | declaration declared' => simp_all
    | nameless declared' => simp_all
    | helper _ each' parts' =>
      rw [eq_of_zip (r := fun a tree => m.UnfoldsTo _ a.2 tree) each each'
        (fun p hp c hc => ih p hp hc) parts']
  | unknown => cases hother; rfl

/-! ### What is declared -/

/-- The constants that are left when those on the way are put aside. -/
def LeftBy (cs rest : Constants) (path : List String) : Prop :=
  ∀ name, rest.find? name = if name ∈ path then none else cs.find? name

/-- If no constant is on the way, all are left. -/
lemma leftBy_nil (cs : Constants) : LeftBy cs cs [] := by
  intro name
  rfl

/-- One more constant on the way is put aside. -/
lemma LeftBy.without {cs rest : Constants} (h : LeftBy cs rest path) (name : String) :
    LeftBy cs (rest.without name) (name :: path) := by
  intro other
  rw [Constants.find?_without, h other]
  by_cases hname : other = name <;> simp [hname]

/-- Among the constants that are left, an element declares what is at the leaves of its tree. -/
lemma exists_unfoldsTo {rest : Constants} (hrest : LeftBy m.constants rest path) (t : Term) :
    ∃ tree, m.UnfoldsTo path t tree ∧ m.reached rest t = tree.declarations none := by
  induction rest, t using reached.induct m generalizing path with
  | case1 rest value span =>
    refine ⟨_, .text value span, ?_⟩
    rw [reached]
    simp
  | case2 rest name span hnone =>
    refine ⟨.nothing, ?_, ?_⟩
    · by_cases hpath : name ∈ path
      · exact .circle hpath
      · rw [hrest name, if_neg hpath] at hnone
        exact .unbound hnone
    · rw [reached_of_find?_eq_none hnone, ElementTree.declarations_nothing]
  | case3 rest name span value hsome _ ih =>
    obtain ⟨tree, htree, hreached⟩ := ih (hrest.without name)
    have hfirst : name ∉ path := by
      intro hpath
      rw [hrest name, if_pos hpath] at hsome
      simp at hsome
    have hbound : m.constants.find? name = some value := by
      rwa [hrest name, if_neg hfirst] at hsome
    refine ⟨.constant name tree, .constant hfirst hbound htree, ?_⟩
    rw [reached_of_find?_eq_some hsome, hreached, ElementTree.map_declarations,
      ElementTree.declarations_constant]
    rfl
  | case4 rest items span ih =>
    obtain ⟨trees, hlength, htrees⟩ := exists_zip fun item hitem => ih item hitem hrest
    refine ⟨.parts trees, .array hlength fun p hp => (htrees p hp).1, ?_⟩
    rw [reached_array, ElementTree.declarations_parts]
    exact flatMap_eq_of_zip hlength fun p hp => (htrees p hp).2
  | case5 rest callee arguments span d hd =>
    cases d with
    | none =>
      refine ⟨.nothing, .nameless hd, ?_⟩
      rw [reached_call, hd, ElementTree.declarations_nothing]
      rfl
    | some d =>
      refine ⟨.declaration d, .declaration hd, ?_⟩
      rw [reached_call, hd, ElementTree.declarations_declaration]
      rfl
  | case6 rest callee arguments span hd ih =>
    have hparts : ∀ a ∈ arguments.filter fun a => a.2.isArray,
        ∃ tree, m.UnfoldsTo path a.2 tree ∧ m.reached rest a.2 = tree.declarations none :=
      fun a ha => ih a (List.mem_filter.1 ha).1 hrest
    obtain ⟨trees, hlength, htrees⟩ := exists_zip hparts
    refine ⟨.parts trees, .helper hd hlength fun p hp => (htrees p hp).1, ?_⟩
    rw [reached_call, hd, ElementTree.declarations_parts]
    exact (flatMap_ite _ _ arguments).trans (flatMap_eq_of_zip hlength fun p hp => (htrees p hp).2)
  | case7 rest text span =>
    refine ⟨_, .unknown text span, ?_⟩
    rw [reached]
    simp

/-- Whatever the constants, an element of a list of dependencies has exactly one tree, and the
declarations that it is read as are those at the leaves of the tree, in their order and as often as
they are there, each with the outermost name that it was reached through. -/
theorem reached_eq_declarations (m : Manifest) (t : Term) :
    ∃ tree, m.UnfoldsTo [] t tree ∧ (∀ other, m.UnfoldsTo [] t other → other = tree) ∧
      m.reached m.constants t = tree.declarations none := by
  obtain ⟨tree, htree, hreached⟩ := exists_unfoldsTo (leftBy_nil m.constants) t
  exact ⟨tree, htree, fun other hother => htree.unique hother, hreached⟩

/-- Two lists that contain each other. -/
def circularManifest : Manifest where
  constants :=
    [⟨"ui", .array
        [.reference "kit" default, .string "Views" default, .reference "kit" default] default,
        none⟩,
      ⟨"kit", .array [.reference "ui" default, .string "Core" default] default, none⟩]
  call := none
  clean := []

example : circularManifest.reached circularManifest.constants (.reference "ui" default) =
    [⟨.bare "Core", some "ui"⟩, ⟨.bare "Views", some "ui"⟩,
      ⟨.bare "Core", some "ui"⟩] := by
  cbv

end Manifest

end SwiftDependencies
