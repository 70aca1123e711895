import Mathlib.Tactic.Common
import SwiftDependencies.Proofs.Analysis.Collisions
import SwiftDependencies.Proofs.Analysis.Sources

/-!
# What the findings of an analysis name

An analysis makes two kinds of findings about the products that a target declares: an import that a
product provides, and a direct declaration that a product makes redundant.  Each finding names one
product, although several may contain the name.  This file says which, in terms of the declarations
of the target alone: there is one finding for each name that concerns some declaration, and it names
what the first such declaration refers to (`OnePerName`).

For imports this is the search for the first product that contains the module.  For redundant names
the analysis goes through the products and their members, and leaves out a name that it has met.
By `find?_redundancies` this, too, is a search for the first product, of those that make the name
redundant.  Whether one does depends on the declaration: a bare name that stands for a
product does not count against that product itself.
-/

namespace SwiftDependencies

/-- An element of a list has a property, and none before it does. -/
def IsFirstWith {α : Type} (P : α → Prop) (l : List α) (a : α) : Prop :=
  P a ∧ ∃ before after, l = before ++ a :: after ∧ ∀ b ∈ before, ¬P b

namespace AnalysisInput

variable {x : AnalysisInput} {n : String}

/-! ### Declarations that refer to products -/

/-- A name is that of an external product if no target of the package has it, and a product of an
external package has it or the product map does. -/
def IsExternalProduct (x : AnalysisInput) (n : String) : Prop :=
  (∀ t ∈ x.package.targets, t.name ≠ n) ∧
    ((∃ e ∈ x.externals, ∃ q ∈ e.products, q.name = n) ∨ x.productMap.contains n = true)

/-- A declaration refers to a product if it says so, or if its bare name is that of an external
one. -/
def RefersToProduct (x : AnalysisInput) (d : Dependency) : Prop :=
  d.isProduct = true ∨ x.IsExternalProduct d.name

/-- The package of the product that a declaration refers to: the one that it names, or the owner of
the product if it names none. -/
def packageOf (x : AnalysisInput) (d : Dependency) : String :=
  match d.kind, d.package with
  | .product, some package => if package = "" then x.ownerOf d.name else package
  | _, _ => x.ownerOf d.name

/-- The product that a declaration refers to, if it refers to one. -/
def referredProduct (x : AnalysisInput) (d : Dependency) : ProductUse :=
  ⟨d.name, x.packageOf d, !d.isProduct⟩

/-- The test whether a bare name stands for a product says what it is meant to say. -/
lemma isProductName_iff : x.isProductName n = true ↔ x.IsExternalProduct n := by
  rw [isProductName, Bool.and_eq_true, Bool.or_eq_true, ProductMap.isSome_owner?_iff,
    IsExternalProduct]
  simp

/-- A declaration that refers to a product declares that product. -/
lemma productUse?_of_refersToProduct {d : Dependency} (h : x.RefersToProduct d) :
    x.productUse? d = some (x.referredProduct d) := by
  obtain ⟨name, kind, package, line⟩ := d
  cases kind with
  | product =>
    cases package with
    | none => rfl
    | some package =>
      by_cases hempty : package = "" <;>
        simp [productUse?, referredProduct, packageOf, Dependency.isProduct, Option.filter, hempty]
  | target =>
    have hproduct : x.isProductName name = true := by
      rw [isProductName_iff]
      simpa [RefersToProduct, Dependency.isProduct] using h
    simp [productUse?, referredProduct, packageOf, Dependency.isProduct, hproduct]

/-- A declaration that does not refer to a product declares none. -/
lemma productUse?_of_not_refersToProduct {d : Dependency} (h : ¬x.RefersToProduct d) :
    x.productUse? d = none := by
  obtain ⟨hexplicit, hbare⟩ := not_or.1 h
  rw [← isProductName_iff] at hbare
  rw [productUse?, if_neg hexplicit, if_neg hbare]

/-- A declaration declares the product that it refers to, and no other. -/
lemma productUse?_eq_some_iff {d : Dependency} {p : ProductUse} :
    x.productUse? d = some p ↔ x.RefersToProduct d ∧ x.referredProduct d = p := by
  by_cases h : x.RefersToProduct d
  · rw [productUse?_of_refersToProduct h, Option.some.injEq, and_iff_right h]
  · rw [productUse?_of_not_refersToProduct h]
    simp [h]

/-- To search the declared products is to search the declarations that refer to products. -/
lemma exists_isFirstWith {P : Dependency → Prop} {test : ProductUse → Bool} {p : ProductUse}
    (hP : ∀ d, P d ↔ x.RefersToProduct d ∧ test (x.referredProduct d) = true)
    (h : x.productUses.find? test = some p) :
    ∃ d, IsFirstWith P x.target.dependencies d ∧ x.referredProduct d = p := by
  rw [productUses, List.find?_filterMap] at h
  obtain ⟨d, hfirst, hd⟩ := Option.bind_eq_some_iff.1 h
  obtain ⟨htest, before, after, hsplit, hbefore⟩ := List.find?_eq_some_iff_append.1 hfirst
  obtain ⟨hrefers, rfl⟩ := productUse?_eq_some_iff.1 hd
  rw [hd, Option.any_some] at htest
  refine ⟨d, ⟨(hP d).2 ⟨hrefers, htest⟩, before, after, hsplit, ?_⟩, rfl⟩
  intro e he hPe
  obtain ⟨hrefers, htest⟩ := (hP e).1 hPe
  have hnot := hbefore e he
  rw [productUse?_of_refersToProduct hrefers] at hnot
  simp [htest] at hnot

/-- Some declared product passes a test exactly if some declaration refers to one that does. -/
lemma exists_find?_productUses_iff {P : Dependency → Prop} {test : ProductUse → Bool}
    (hP : ∀ d, P d ↔ x.RefersToProduct d ∧ test (x.referredProduct d) = true) :
    (∃ p, x.productUses.find? test = some p) ↔ ∃ d ∈ x.target.dependencies, P d := by
  rw [← Option.isSome_iff_exists, List.find?_isSome]
  constructor
  · rintro ⟨p, hp, htest⟩
    obtain ⟨d, hd, hdp⟩ := mem_productUses.1 hp
    obtain ⟨hrefers, rfl⟩ := productUse?_eq_some_iff.1 hdp
    exact ⟨d, hd, (hP d).2 ⟨hrefers, htest⟩⟩
  · rintro ⟨d, hd, hPd⟩
    obtain ⟨hrefers, htest⟩ := (hP d).1 hPd
    exact ⟨_, mem_productUses.2 ⟨d, hd, productUse?_of_refersToProduct hrefers⟩, htest⟩

/-! ### Redundant declarations -/

/-- Whether a declared product makes direct declarations of a name redundant. -/
def supplants (x : AnalysisInput) (n : String) (p : ProductUse) : Bool :=
  (x.productMap.members p.name).contains n && x.separateCount p n != 0

/-- The redundancies that come from one product hold a name if the product makes it redundant. -/
lemma find?_memberRedundancies {p : ProductUse} :
    (((x.productMap.members p.name).filter fun m => x.separateCount p m != 0).map fun m =>
        (⟨m, p.name, p.package⟩ : Redundant)).find? (fun r => r.name == n) =
      if x.supplants n p then some ⟨n, p.name, p.package⟩ else none := by
  have hfirst : ∀ l : List String, l.find? (fun m => m == n) =
      if n ∈ l then some n else none := by
    intro l
    induction l with
    | nil => rfl
    | cons m l ih =>
      rw [List.find?_cons, ih]
      by_cases hm : m = n
      · simp [hm]
      · simp [Ne.symm hm, beq_false_of_ne hm]
  rw [List.find?_map]
  simp only [Function.comp_def, hfirst, List.mem_filter, supplants, Bool.and_eq_true,
    List.contains_iff_mem]
  split <;> rfl

/-- The first redundancy of a name is that of the first product that makes the name redundant. -/
lemma find?_redundancies :
    x.redundancies.find? (fun r => r.name == n) =
      (x.productUses.find? (x.supplants n)).map fun p => ⟨n, p.name, p.package⟩ := by
  rw [redundancies]
  induction x.productUses with
  | nil => rfl
  | cons p uses ih =>
    rw [List.flatMap_cons, List.find?_append, find?_memberRedundancies, ih, List.find?_cons]
    cases x.supplants n p <;> rfl

/-- A finding of redundancy names the first declared product that makes the name redundant. -/
lemma mem_redundant {r : Redundant} :
    r ∈ x.redundant ↔
      ∃ p, x.productUses.find? (x.supplants r.name) = some p ∧ r.product = p.name ∧
        r.package = p.package := by
  rw [redundant, mem_firstOfEach, find?_redundancies, Option.map_eq_some_iff]
  obtain ⟨name, product, package⟩ := r
  simp [eq_comm]

/-- There is a finding of redundancy for a name if some declared product makes it redundant. -/
lemma exists_mem_redundant_iff :
    (∃ r ∈ x.redundant, r.name = n) ↔
      ∃ p, x.productUses.find? (x.supplants n) = some p := by
  constructor
  · rintro ⟨r, hr, rfl⟩
    obtain ⟨p, hp, -⟩ := mem_redundant.1 hr
    exact ⟨p, hp⟩
  · rintro ⟨p, hp⟩
    exact ⟨⟨n, p.name, p.package⟩, mem_redundant.2 ⟨p, hp, rfl, rfl⟩, rfl⟩

/-- No name is redundant twice. -/
lemma nodup_firstOfEach {α : Type} {key : α → String} {seen : List String} {l : List α} :
    ((firstOfEach key seen l).map key).Nodup := by
  induction l generalizing seen with
  | nil => exact List.nodup_nil
  | cons a l ih =>
    rw [firstOfEach]
    split
    · exact ih
    · rw [List.map_cons, List.nodup_cons]
      refine ⟨?_, ih⟩
      rw [List.mem_map]
      rintro ⟨b, hb, hkey⟩
      exact (mem_firstOfEach.1 hb).1 (hkey ▸ List.mem_cons_self)

/-! ### One finding for each name -/

/-- A declaration provides an import that is neither ignored nor internal, if it refers to a product
that contains it. -/
def Satisfies (x : AnalysisInput) (n : String) (d : Dependency) : Prop :=
  x.Imports n ∧ isIgnored x.allowed n = false ∧ n ∉ x.internal ∧
    x.RefersToProduct d ∧ n ∈ x.productMap.members d.name

/-- A declaration makes a name redundant, if it refers to a product that contains the name and the
name is declared directly, by another declaration than this one. -/
def Supplants (x : AnalysisInput) (n : String) (d : Dependency) : Prop :=
  x.RefersToProduct d ∧ n ∈ x.productMap.members d.name ∧
    (if d.isProduct = false ∧ d.name = n then 1 else 0) < x.directCount n

/-- Findings that each have the name they are about and name a product and its package: there is one
for each name that concerns some declaration, and it names what the first such declaration refers
to. -/
structure OnePerName {α : Type} (x : AnalysisInput) (Concerns : String → Dependency → Prop)
    (name product package : α → String) (findings : List α) : Prop where
  nodup : (findings.map name).Nodup
  exists_iff : ∀ n, (∃ f ∈ findings, name f = n) ↔
    ∃ d ∈ x.target.dependencies, Concerns n d
  first : ∀ f ∈ findings, ∃ d, IsFirstWith (Concerns (name f)) x.target.dependencies d ∧
    product f = d.name ∧ package f = x.packageOf d

/-- Findings that come from a search for the first product, for each name that is searched for. -/
lemma onePerName_of_find? {α : Type} {name product package : α → String} {findings : List α}
    {Concerns : String → Dependency → Prop} (Searched : String → Prop)
    (test : String → ProductUse → Bool)
    (hconcerns : ∀ n d, Concerns n d ↔
      Searched n ∧ x.RefersToProduct d ∧ test n (x.referredProduct d) = true)
    (hnodup : (findings.map name).Nodup)
    (hexists : ∀ n, (∃ f ∈ findings, name f = n) ↔
      Searched n ∧ ∃ p, x.productUses.find? (test n) = some p)
    (hfirst : ∀ f ∈ findings, ∃ p, x.productUses.find? (test (name f)) = some p ∧
      product f = p.name ∧ package f = p.package) :
    x.OnePerName Concerns name product package findings := by
  have hsearched : ∀ {n}, Searched n → ∀ d, Concerns n d ↔
      x.RefersToProduct d ∧ test n (x.referredProduct d) = true := by
    intro n hn d
    rw [hconcerns]
    exact and_iff_right hn
  constructor
  case nodup => exact hnodup
  case exists_iff =>
    intro n
    rw [hexists]
    constructor
    · rintro ⟨hn, hp⟩
      exact (exists_find?_productUses_iff (hsearched hn)).1 hp
    · rintro ⟨d, hd, hconcern⟩
      have hn := ((hconcerns n d).1 hconcern).1
      exact ⟨hn, (exists_find?_productUses_iff (hsearched hn)).2 ⟨d, hd, hconcern⟩⟩
  case first =>
    intro f hf
    have hn := ((hexists (name f)).1 ⟨f, hf, rfl⟩).1
    obtain ⟨p, hp, hproduct, hpackage⟩ := hfirst f hf
    obtain ⟨d, hd, rfl⟩ := exists_isFirstWith (hsearched hn) hp
    exact ⟨d, hd, hproduct, hpackage⟩

/-- Each import that a declared product provides is found once, with the first such product. -/
lemma onePerName_satisfied :
    x.OnePerName x.Satisfies (·.module) (·.product) (·.package) x.satisfied := by
  apply onePerName_of_find? (fun n => n ∈ x.observed ∧ n ∉ x.internal)
    (fun n p => (x.productMap.members p.name).contains n)
  · intro n d
    simp only [Satisfies, mem_observed, referredProduct, List.contains_iff_mem, and_assoc]
  · refine List.pairwise_map.2 ((satisfied_rising x).imp ?_)
    intro s t hlt heq
    exact String.lt_irrefl _ (heq ▸ hlt)
  · intro n
    have hnames : (∃ s ∈ x.satisfied, s.module = n) ↔ n ∈ x.satisfiedNames := by
      simp [satisfiedNames]
    rw [hnames, mem_satisfiedNames, provides_iff, and_assoc]
    rfl
  · intro s hs
    obtain ⟨-, -, hprovider⟩ := mem_satisfied.1 hs
    exact hprovider

/-- A product makes a name redundant if it is declared directly, besides the declaration of the
product. -/
lemma supplants_iff {d : Dependency} :
    x.Supplants n d ↔ x.RefersToProduct d ∧ x.supplants n (x.referredProduct d) = true := by
  have hbare : (!d.isProduct && n == d.name) = true ↔ d.isProduct = false ∧ d.name = n := by
    rw [Bool.and_eq_true, Bool.not_eq_true', beq_iff_eq, eq_comm (a := n)]
  simp only [Supplants, supplants, separateCount, referredProduct, Bool.and_eq_true,
    List.contains_iff_mem, bne_iff_ne, hbare]
  refine and_congr_right fun _ => and_congr_right fun _ => ?_
  omega

/-- Each name that a declared product makes redundant is found once, with the first such product. -/
lemma onePerName_redundant :
    x.OnePerName x.Supplants (·.name) (·.product) (·.package) x.redundant := by
  apply onePerName_of_find? (fun _ => True) x.supplants
  · intro n d
    rw [supplants_iff, true_and]
  · exact nodup_firstOfEach
  · intro n
    rw [exists_mem_redundant_iff, true_and]
  · exact fun r hr => mem_redundant.1 hr

/-- The analysis of a target with sources finds the imports that declared products provide in the
order of their names, and both these and the redundant declarations once for each name, with the
first product in the order of the declarations. -/
theorem analyze_findings (x : AnalysisInput) (h : x.target.hasSources = true) :
    (x.analyze.satisfied.Pairwise fun s t => s.module < t.module) ∧
      x.OnePerName x.Satisfies (·.module) (·.product) (·.package) x.analyze.satisfied ∧
      x.OnePerName x.Supplants (·.name) (·.product) (·.package) x.analyze.redundant := by
  rw [analyze_of_hasSources h]
  exact ⟨satisfied_rising x, onePerName_satisfied, onePerName_redundant⟩

/-! ### Products that overlap

A product that is declared by its bare name contains a target of that name.  This does not make the
bare name redundant, but a later product that contains the name as well does. -/

/-- A package with two products, of which the second contains what the first contains. -/
def overlappingProducts : ExternalPackage :=
  ⟨"net", [⟨"Kit", .library, ["Kit", "KitCore", "KitCore"], "net"⟩,
    ⟨"All", .library, ["Kit", "KitCore", "KitUI"], "net"⟩], default⟩

/-- A target that declares the first product by its bare name, a member of it, and the second
product, and imports members of both. -/
def overlappingInput : AnalysisInput :=
  ⟨⟨"App", .library, [.bare "Kit", .bare "KitCore", .ofProduct "All" none], none⟩,
    ⟨"Pkg", default, [], [], []⟩, [overlappingProducts], .ofPackages [overlappingProducts],
    [⟨default, [⟨"KitCore", 1, false⟩, ⟨"KitUI", 2, false⟩]⟩], ∅⟩

/-- In the example each redundant name is found once, under the first product that contains it. -/
lemma redundant_overlappingInput :
    overlappingInput.redundant = [⟨"KitCore", "Kit", "net"⟩, ⟨"Kit", "All", "net"⟩] := by
  decide +kernel

/-- The member is redundant because of the first product, and the name of that because of the
second. -/
theorem analyze_findings_overlapping :
    overlappingInput.target.hasSources = true ∧
      (overlappingInput.analyze.satisfied.Pairwise fun s t => s.module < t.module) ∧
      overlappingInput.OnePerName overlappingInput.Satisfies (·.module) (·.product) (·.package)
        overlappingInput.analyze.satisfied ∧
      overlappingInput.OnePerName overlappingInput.Supplants (·.name) (·.product) (·.package)
        overlappingInput.analyze.redundant ∧
      overlappingInput.analyze.redundant =
        [⟨"KitCore", "Kit", "net"⟩, ⟨"Kit", "All", "net"⟩] := by
  obtain ⟨hrising, hsatisfied, hredundant⟩ := analyze_findings overlappingInput rfl
  exact ⟨rfl, hrising, hsatisfied, hredundant, redundant_overlappingInput⟩

end AnalysisInput

end SwiftDependencies
