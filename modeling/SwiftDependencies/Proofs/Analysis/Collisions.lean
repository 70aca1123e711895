import Mathlib.Data.List.Forall2
import Mathlib.Data.List.Induction
import Mathlib.Tactic.Common
import SwiftDependencies.Analysis.ProductMap

/-!
# Products of one name

Several packages may have products of one name, and so may a single package.  What an analysis knows
of such a product comes from two places: its members from the product map, and the package to blame
from the owners.  Each table is filled by a loop of its own over the products of the packages, and a
finding would name the wrong package if one of the loops kept the first product of the name and the
other one the last.

Both keep the last one.  The products are added one after the other, each replacing what was known
under its name, so after all of them every table has the value of the last occurrence
(`lookup_foldl`): the map its members (`members?_ofPackages`) and the owners its package
(`owner?_eq`).  What one more product does to the record of collisions is said by
`collidesAt_append_singleton`, and `FollowsLast` collects what this comes to for all packages.
-/

namespace SwiftDependencies

namespace ProductMap

variable {seen more : List (Product × String)} {o : Product × String} {n : String}

/-! ### Last occurrences -/

/-- This is the last occurrence of a product of a name. -/
def IsLast (seen : List (Product × String)) (n : String) (o : Product × String) : Prop :=
  ∃ before after, seen = before ++ o :: after ∧ o.1.name = n ∧
    ∀ later ∈ after, later.1.name ≠ n

/-- The last occurrence of a product of a name, if there is one. -/
def last? (seen : List (Product × String)) (n : String) : Option (Product × String) :=
  seen.reverse.find? fun o => o.1.name == n

/-- The search from the end finds the last occurrence. -/
lemma last?_eq_some_iff : last? seen n = some o ↔ IsLast seen n o := by
  rw [last?, List.find?_eq_some_iff_append, IsLast]
  constructor
  · rintro ⟨hname, after, before, hsplit, hafter⟩
    refine ⟨before.reverse, after.reverse, ?_, by simpa using hname, ?_⟩
    · rw [← List.reverse_inj, hsplit]
      simp
    · intro later hlater
      simpa using hafter later (List.mem_reverse.1 hlater)
  · rintro ⟨before, after, rfl, hname, hafter⟩
    refine ⟨by simpa using hname, after.reverse, before.reverse, by simp, ?_⟩
    intro later hlater
    simpa using hafter later (List.mem_reverse.1 hlater)

/-- There is no last occurrence of a name that does not occur. -/
lemma last?_eq_none_iff : last? seen n = none ↔ ∀ o ∈ seen, o.1.name ≠ n := by
  simp [last?]

/-- What occurs later counts. -/
lemma last?_append : last? (seen ++ more) n = (last? more n).or (last? seen n) := by
  rw [last?, List.reverse_append, List.find?_append]
  rfl

/-- One more product is the last occurrence of its own name, and of no other. -/
lemma last?_append_singleton :
    last? (seen ++ [o]) n = if o.1.name = n then some o else last? seen n := by
  rw [last?_append]
  by_cases hname : o.1.name = n <;> simp [last?, hname]

/-! ### Tables -/

/-- A table in which every product that is added puts a value under its name has the values of the
last occurrences. -/
lemma lookup_foldl {σ β : Type} {add : σ → Product × String → σ} {start : σ}
    (table : σ → List (String × β)) (value : Product × String → β)
    (hadd : ∀ s o, table (add s o) = assign o.1.name (value o) (table s))
    (hempty : table start = []) (seen : List (Product × String)) (n : String) :
    (table (seen.foldl add start)).lookup n = (last? seen n).map value := by
  induction seen using List.reverseRecOn with
  | nil => rw [List.foldl_nil, hempty]; rfl
  | append_singleton seen o ih =>
    rw [List.foldl_append, List.foldl_cons, List.foldl_nil, hadd, lookup_assign, ih,
      last?_append_singleton]
    by_cases hname : o.1.name = n
    · simp [hname]
    · simp [hname, beq_false_of_ne (Ne.symm hname)]

/-- The map has the members of the last product of a name. -/
lemma members?_ofPackages {packages : List ExternalPackage} :
    (ofPackages packages).members? n = (last? (occurrences packages) n).map fun o => o.1.targets :=
  lookup_foldl Collected.members (fun o => o.1.targets) (fun _ _ => rfl) rfl _ n

/-- While the members are collected, the owner of a product is the package of its last occurrence so
far. -/
lemma lookup_owners (seen : List (Product × String)) (n : String) :
    (seen.foldl Collected.add ⟨[], [], []⟩).owners.lookup n = (last? seen n).map fun o => o.2 :=
  lookup_foldl Collected.owners (fun o => o.2) (fun _ _ => rfl) rfl seen n

/-- The products of two rows of packages are those of the first and then those of the second. -/
lemma occurrences_append (packages others : List ExternalPackage) :
    occurrences (packages ++ others) = occurrences packages ++ occurrences others :=
  List.flatMap_append

/-- To go through the packages, and through the products of each, is to go through all
occurrences. -/
lemma owners_eq_foldl (packages : List ExternalPackage) :
    owners packages =
      (occurrences packages).foldl (fun owners o => assign o.1.name o.2 owners) [] := by
  simp only [owners, occurrences, List.foldl_flatMap, List.foldl_map]

/-- The owner of a product is the package of its last occurrence. -/
lemma owner?_eq (packages : List ExternalPackage) (n : String) :
    owner? packages n = (last? (occurrences packages) n).map fun o => o.2 := by
  rw [owner?, owners_eq_foldl]
  exact lookup_foldl id (fun o => o.2) (fun _ _ => rfl) rfl (occurrences packages) n

/-- A product has an owner exactly if some package has a product of its name. -/
lemma isSome_owner?_iff {packages : List ExternalPackage} :
    (owner? packages n).isSome = true ↔ ∃ e ∈ packages, ∃ q ∈ e.products, q.name = n := by
  rw [owner?_eq, Option.isSome_map, last?, List.find?_isSome]
  constructor
  · rintro ⟨o, ho, hname⟩
    obtain ⟨e, he, q, hq, rfl⟩ : ∃ e ∈ packages, ∃ q ∈ e.products, (q, e.name) = o := by
      simpa [occurrences] using ho
    exact ⟨e, he, q, hq, by simpa using hname⟩
  · rintro ⟨e, he, q, hq, rfl⟩
    exact ⟨(q, e.name),
      List.mem_reverse.2 (List.mem_flatMap.2 ⟨e, he, List.mem_map_of_mem hq⟩), by simp⟩

/-! ### Collisions -/

/-- A collision at a position: the product there has occurred before, last in a package of another
name. The event says that the owner from here on is kept and the one so far is dropped. -/
def CollidesAt (seen : List (Product × String)) (i : ℕ) (e : Event) : Prop :=
  ∃ before o after previous, seen = before ++ o :: after ∧ before.length = i ∧
    IsLast before o.1.name previous ∧ previous.2 ≠ o.2 ∧
    e = .productCollision o.1.name o.2 previous.2

/-- The event at the end of some occurrences, if the product there collides. -/
def collision? (seen : List (Product × String)) (o : Product × String) : Option Event :=
  (last? seen o.1.name).bind fun previous =>
    if previous.2 = o.2 then none else some (.productCollision o.1.name o.2 previous.2)

/-- There is a collision if the last occurrence so far is of a package of another name. -/
lemma collision?_eq_some_iff {e : Event} :
    collision? seen o = some e ↔
      ∃ previous, IsLast seen o.1.name previous ∧ previous.2 ≠ o.2 ∧
        e = .productCollision o.1.name o.2 previous.2 := by
  rw [collision?, Option.bind_eq_some_iff]
  refine exists_congr fun previous => ?_
  rw [last?_eq_some_iff]
  refine and_congr_right fun _ => ?_
  by_cases howner : previous.2 = o.2 <;> simp [howner, eq_comm]

/-- One more product records at most one more collision. -/
lemma events_append_singleton (seen : List (Product × String)) (o : Product × String) :
    ((seen ++ [o]).foldl Collected.add ⟨[], [], []⟩).events =
      (seen.foldl Collected.add ⟨[], [], []⟩).events ++ (collision? seen o).toList := by
  rw [List.foldl_append, List.foldl_cons, List.foldl_nil, Collected.add]
  simp only [lookup_owners, collision?]
  cases last? seen o.1.name with
  | none => rfl
  | some previous =>
    simp only [Option.map_some, Option.bind_some]
    split <;> rfl

/-- The collisions among some occurrences and one more are those among the former, and that of the
latter. -/
lemma collidesAt_append_singleton {i : ℕ} {e : Event} :
    CollidesAt (seen ++ [o]) i e ↔
      CollidesAt seen i e ∨ i = seen.length ∧ collision? seen o = some e := by
  rw [collision?_eq_some_iff]
  constructor
  · rintro ⟨before, p, after, previous, hsplit, rfl, hlast, hne, rfl⟩
    cases after using List.reverseRecOn with
    | nil =>
      obtain ⟨rfl, hp⟩ := List.append_inj' hsplit rfl
      obtain rfl := List.singleton_inj.1 hp
      exact .inr ⟨rfl, previous, hlast, hne, rfl⟩
    | append_singleton after q =>
      rw [← List.cons_append, ← List.append_assoc] at hsplit
      exact .inl ⟨before, p, after, previous, (List.append_inj' hsplit rfl).1, rfl,
        hlast, hne, rfl⟩
  · rintro (⟨before, p, after, previous, rfl, rfl, hlast, hne, rfl⟩ |
      ⟨rfl, previous, hlast, hne, rfl⟩)
    · exact ⟨before, p, after ++ [o], previous, by simp, rfl, hlast, hne, rfl⟩
    · exact ⟨seen, o, [], previous, rfl, rfl, hlast, hne, rfl⟩

/-- Collisions are at positions of products. -/
lemma CollidesAt.lt_length {i : ℕ} {e : Event} (h : CollidesAt seen i e) : i < seen.length := by
  obtain ⟨before, p, after, -, rfl, rfl, -⟩ := h
  simp

/-- The recorded events are the collisions, one for each position that has one, in the order of the
positions. -/
lemma exists_positions (seen : List (Product × String)) :
    ∃ positions : List ℕ, positions.Pairwise (· < ·) ∧
      (∀ i, i ∈ positions ↔ ∃ e, CollidesAt seen i e) ∧
      List.Forall₂ (CollidesAt seen)
        positions (seen.foldl Collected.add ⟨[], [], []⟩).events := by
  induction seen using List.reverseRecOn with
  | nil =>
    refine ⟨[], .nil, fun i => iff_of_false List.not_mem_nil ?_, .nil⟩
    rintro ⟨e, h⟩
    exact Nat.not_lt_zero i h.lt_length
  | append_singleton seen o ih =>
    obtain ⟨positions, hrising, hmem, hevents⟩ := ih
    have hlt : ∀ i ∈ positions, i < seen.length := by
      intro i hi
      obtain ⟨e, he⟩ := (hmem i).1 hi
      exact he.lt_length
    have hkept : List.Forall₂ (CollidesAt (seen ++ [o])) positions
        (seen.foldl Collected.add ⟨[], [], []⟩).events :=
      hevents.imp fun _ _ h => collidesAt_append_singleton.2 (.inl h)
    rw [events_append_singleton]
    cases hcollision : collision? seen o with
    | none =>
      refine ⟨positions, hrising, fun i => ?_, by simpa using hkept⟩
      simp only [hmem, collidesAt_append_singleton, hcollision, reduceCtorEq, and_false, or_false]
    | some e =>
      refine ⟨positions ++ [seen.length], ?_, fun i => ?_, ?_⟩
      · refine List.pairwise_append.2 ⟨hrising, List.pairwise_singleton _ _, ?_⟩
        intro i hi j hj
        obtain rfl := List.mem_singleton.1 hj
        exact hlt i hi
      · simp only [List.mem_append, List.mem_singleton, hmem, collidesAt_append_singleton,
          hcollision, Option.some.injEq, exists_or, exists_and_left, exists_eq', and_true]
      · exact List.rel_append hkept
          (.cons (collidesAt_append_singleton.2 (.inr ⟨rfl, hcollision⟩)) .nil)

/-! ### What is known of packages -/

/-- What the product map, the owners and the record of collisions say of packages: of products of
one name the last one counts, in the order of the packages and of the products in each. -/
structure FollowsLast (packages : List ExternalPackage) : Prop where
  /-- The map knows a product exactly if it has an owner. -/
  contains_iff : ∀ n, (ofPackages packages).contains n = true ↔
    (owner? packages n).isSome = true
  /-- These are the products that occur. -/
  contains_iff_occurs : ∀ n,
    (ofPackages packages).contains n = true ↔ ∃ o, IsLast (occurrences packages) n o
  /-- Members and owner both come from the last occurrence. -/
  of_isLast : ∀ n o, IsLast (occurrences packages) n o →
    (ofPackages packages).members? n = some o.1.targets ∧ owner? packages n = some o.2
  /-- The owners that are noted while the members are collected are the owners. -/
  owners_eq : ∀ n, (collect packages).owners.lookup n = owner? packages n
  /-- The map of some packages and further ones is that of the former, overridden by that of the
  latter. -/
  members?_append : ∀ before after, packages = before ++ after → ∀ n,
    (ofPackages packages).members? n =
      ((ofPackages after).members? n).or ((ofPackages before).members? n)
  /-- One event is recorded for each collision, in order. -/
  collisions_eq : ∃ positions : List ℕ, positions.Pairwise (· < ·) ∧
    (∀ i, i ∈ positions ↔ ∃ e, CollidesAt (occurrences packages) i e) ∧
    List.Forall₂ (CollidesAt (occurrences packages)) positions (collisions packages)

/-- The product map and the owners of products follow the last occurrence of each product, whatever
the packages. -/
theorem followsLast (packages : List ExternalPackage) : FollowsLast packages where
  contains_iff n := by
    rw [contains, members?_ofPackages, owner?_eq, Option.isSome_map, Option.isSome_map]
  contains_iff_occurs n := by
    rw [contains, members?_ofPackages, Option.isSome_map, Option.isSome_iff_exists]
    simp only [last?_eq_some_iff]
  of_isLast n o h := by
    rw [members?_ofPackages, owner?_eq, last?_eq_some_iff.2 h]
    exact ⟨rfl, rfl⟩
  owners_eq n := by
    rw [owner?_eq, collect, lookup_owners]
  members?_append := by
    rintro before after rfl n
    rw [members?_ofPackages, members?_ofPackages, members?_ofPackages, occurrences_append,
      last?_append, Option.map_or]
  collisions_eq := exists_positions (occurrences packages)

/-- A package that has a product twice takes it from another package once. -/
example : collisions [⟨"net", [⟨"Kit", .library, ["KitCore"], "net"⟩], default⟩,
    ⟨"fork", [⟨"Kit", .library, ["KitUI"], "fork"⟩, ⟨"Kit", .library, [], "fork"⟩],
      default⟩] =
      [.productCollision "Kit" "fork" "net"] := by
  decide

end ProductMap

end SwiftDependencies
