import Mathlib.Tactic.Common
import SwiftDependencies.Analysis.Classification

/-!
# What belongs to the categories of an analysis

Every set that an analysis computes is described here by the imports and the declarations that it
comes from.  The declarations of a target are of three kinds: explicit products, bare names that
stand for a product, and all other bare names.  `mem_productNames` and `mem_directNames` say that
this is decided by the name alone, so that the by-name rule has to be opened only once.

`mem_missing`, `mem_unused` and `mem_correct` are what later modules reason with; the order of
declarations matters only for `provider?` and for which product a redundancy is attributed to.
-/

namespace SwiftDependencies

namespace AnalysisInput

variable {x : AnalysisInput} {n : String}

/-- Some source file of the target imports a module. -/
def Imports (x : AnalysisInput) (n : String) : Prop :=
  ∃ f ∈ x.files, ∃ i ∈ f.imports, i.module = n

/-- Some product that the target declares contains a module. -/
def Provides (x : AnalysisInput) (n : String) : Prop :=
  ∃ p ∈ x.productUses, n ∈ x.productMap.members p.name

/-! ### Imports -/

/-- The observed modules are the imported ones that are not ignored. -/
lemma mem_observed : n ∈ x.observed ↔ x.Imports n ∧ isIgnored x.allowed n = false := by
  simp [observed, Imports]

/-- The internal modules are the other targets of the package, as far as they can be imported. -/
lemma mem_internalModules {t : Target} {p : Package} :
    n ∈ internalModules t p ↔
      n ≠ t.name ∧ ∃ sibling ∈ p.targets, sibling.name = n ∧
        sibling.kind.isImportable = true := by
  simp only [internalModules, NameSet.mem_ofList, List.mem_map, List.mem_filter, Bool.and_eq_true,
    bne_iff_ne]
  constructor
  · rintro ⟨sibling, ⟨hsibling, hname, hkind⟩, rfl⟩
    exact ⟨hname, sibling, hsibling, rfl, hkind⟩
  · rintro ⟨hname, sibling, hsibling, rfl, hkind⟩
    exact ⟨sibling, ⟨hsibling, hname, hkind⟩, rfl⟩

/-! ### Declarations -/

/-- The declared names are the names of the declarations. -/
lemma mem_dependencyNames {t : Target} :
    n ∈ t.dependencyNames ↔ ∃ d ∈ t.dependencies, d.name = n := by
  simp [Target.dependencyNames]

/-- The product that a declaration stands for has the declared name. -/
lemma name_of_productUse? {d : Dependency} {p : ProductUse} (h : x.productUse? d = some p) :
    p.name = d.name := by
  unfold productUse? at h
  split at h
  · cases h; rfl
  · split at h
    · cases h; rfl
    · cases h

/-- A declaration stands for a product if it says so, or if its name is that of a product. -/
lemma isSome_productUse? {d : Dependency} :
    (x.productUse? d).isSome = (d.isProduct || x.isProductName d.name) := by
  unfold productUse?
  split
  · simp_all
  · split <;> simp_all

/-- A declaration stands for a product by its bare name exactly if that is the name of a product. -/
lemma byName_of_productUse? {d : Dependency} {p : ProductUse} (h : x.productUse? d = some p) :
    p.byName = !d.isProduct := by
  unfold productUse? at h
  split at h
  · cases h; simp_all
  · split at h
    · cases h; simp_all
    · cases h

/-- The declared products are those that the declarations stand for. -/
lemma mem_productUses {p : ProductUse} :
    p ∈ x.productUses ↔ ∃ d ∈ x.target.dependencies, x.productUse? d = some p := by
  simp [productUses]

/-- A name is that of a declared product if it is declared, explicitly or as the name of a
product. -/
lemma exists_productUse_iff :
    (∃ p ∈ x.productUses, p.name = n) ↔
      ∃ d ∈ x.target.dependencies, d.name = n ∧
        (d.isProduct = true ∨ x.isProductName n = true) := by
  constructor
  · rintro ⟨p, hp, rfl⟩
    obtain ⟨d, hd, hdp⟩ := mem_productUses.1 hp
    have hname := name_of_productUse? hdp
    have hsome : (x.productUse? d).isSome = true := by rw [hdp]; rfl
    rw [isSome_productUse?, Bool.or_eq_true] at hsome
    exact ⟨d, hd, hname.symm, hname ▸ hsome⟩
  · rintro ⟨d, hd, rfl, h⟩
    have hsome : (x.productUse? d).isSome = true := by
      rw [isSome_productUse?, Bool.or_eq_true]
      exact h
    obtain ⟨p, hp⟩ := Option.isSome_iff_exists.1 hsome
    exact ⟨p, mem_productUses.2 ⟨d, hd, hp⟩, name_of_productUse? hp⟩

/-- A declared name is that of a product if a declaration says so, or if the bare name stands for
one. -/
lemma mem_productNames :
    n ∈ x.productNames ↔
      ∃ d ∈ x.target.dependencies, d.name = n ∧
        (d.isProduct = true ∨ x.isProductName n = true) := by
  rw [← exists_productUse_iff]
  simp [productNames]

/-- A name stands for a product by itself if it is declared bare and is the name of a product. -/
lemma exists_byName_iff :
    (∃ p ∈ x.productUses, p.byName = true ∧ p.name = n) ↔
      x.isProductName n = true ∧ ∃ d ∈ x.target.dependencies, d.isProduct = false ∧
        d.name = n := by
  constructor
  · rintro ⟨p, hp, hby, rfl⟩
    obtain ⟨d, hd, hdp⟩ := mem_productUses.1 hp
    have hname := name_of_productUse? hdp
    have hbare : d.isProduct = false := by simpa [byName_of_productUse? hdp] using hby
    have hsome : (x.productUse? d).isSome = true := by rw [hdp]; rfl
    rw [isSome_productUse?, hbare, Bool.false_or, ← hname] at hsome
    exact ⟨hsome, d, hd, hbare, hname.symm⟩
  · rintro ⟨hprod, d, hd, hbare, rfl⟩
    have hsome : (x.productUse? d).isSome = true := by rw [isSome_productUse?, hprod, Bool.or_true]
    obtain ⟨p, hp⟩ := Option.isSome_iff_exists.1 hsome
    refine ⟨p, mem_productUses.2 ⟨d, hd, hp⟩, ?_, name_of_productUse? hp⟩
    rw [byName_of_productUse? hp, hbare]
    rfl

/-- The direct names are the bare ones that are not names of products. -/
lemma mem_directNames :
    n ∈ x.directNames ↔
      (∃ d ∈ x.target.dependencies, d.isProduct = false ∧ d.name = n) ∧
        x.isProductName n = false := by
  have hby : (x.productUses.any fun p => p.byName && p.name == n) = true ↔
      ∃ p ∈ x.productUses, p.byName = true ∧ p.name = n := by
    simp [List.any_eq_true]
  have hbare : n ∈ NameSet.ofList
      ((x.target.dependencies.filter fun d => !d.isProduct).map (·.name)) ↔
      ∃ d ∈ x.target.dependencies, d.isProduct = false ∧ d.name = n := by
    simp [and_assoc]
  rw [directNames, NameSet.mem_filter, hbare, Bool.not_eq_true', ← Bool.not_eq_true, hby,
    exists_byName_iff]
  constructor
  · rintro ⟨hd, hn⟩
    exact ⟨hd, by by_contra h; exact hn ⟨by simpa using h, hd⟩⟩
  · rintro ⟨hd, hn⟩
    exact ⟨hd, fun h => by simp [hn] at h⟩

/-- Every declared name is a direct name or that of a product. -/
lemma mem_dependencyNames_iff :
    n ∈ x.target.dependencyNames ↔ n ∈ x.directNames ∨ n ∈ x.productNames := by
  rw [mem_dependencyNames, mem_directNames, mem_productNames]
  constructor
  · rintro ⟨d, hd, hn⟩
    cases hp : x.isProductName n with
    | true => exact .inr ⟨d, hd, hn, .inr rfl⟩
    | false =>
      cases hk : d.isProduct with
      | true => exact .inr ⟨d, hd, hn, .inl hk⟩
      | false => exact .inl ⟨⟨d, hd, hk, hn⟩, rfl⟩
  · rintro (⟨⟨d, hd, -, hn⟩, -⟩ | ⟨d, hd, hn, -⟩)
    · exact ⟨d, hd, hn⟩
    · exact ⟨d, hd, hn⟩

/-! ### Findings -/

/-- A module has a provider exactly if a declared product contains it. -/
lemma provides_iff : x.Provides n ↔ ∃ p, x.provider? n = some p := by
  have h : (x.provider? n).isSome = true ↔ x.Provides n := by
    simp [provider?, Provides, List.find?_isSome]
  rw [← h, Option.isSome_iff_exists]

/-- An import is provided if it is observed and not internal, by the first declared product that
contains it. -/
lemma mem_satisfied {s : Satisfied} :
    s ∈ x.satisfied ↔
      s.module ∈ x.observed ∧ s.module ∉ x.internal ∧
        ∃ p, x.provider? s.module = some p ∧ s.product = p.name ∧ s.package = p.package := by
  simp only [satisfied, List.mem_filterMap, Option.map_eq_some_iff, ← NameSet.mem_def,
    NameSet.mem_diff]
  constructor
  · rintro ⟨m, hm, p, hp, rfl⟩
    exact ⟨hm.1, hm.2, p, hp, rfl, rfl⟩
  · rintro ⟨ho, hi, p, hp, hn, hk⟩
    exact ⟨s.module, ⟨ho, hi⟩, p, hp, by rw [← hn, ← hk]⟩

/-- An import is satisfied if it is not internal and a declared product contains it. -/
lemma mem_satisfiedNames :
    n ∈ x.satisfiedNames ↔ n ∈ x.observed ∧ n ∉ x.internal ∧ x.Provides n := by
  simp only [satisfiedNames, NameSet.mem_ofList, List.mem_map, mem_satisfied, provides_iff]
  constructor
  · rintro ⟨s, ⟨ho, hi, p, hp, -⟩, rfl⟩
    exact ⟨ho, hi, p, hp⟩
  · rintro ⟨ho, hi, p, hp⟩
    exact ⟨⟨n, p.name, p.package⟩, ⟨ho, hi, p, hp, rfl, rfl⟩, rfl⟩

/-- A product is used if it provides an import. -/
lemma mem_usedProducts : n ∈ x.usedProducts ↔ ∃ s ∈ x.satisfied, s.product = n := by
  simp [usedProducts]

/-- An element is kept if its key has not been seen and no element before it has that key. -/
lemma mem_firstOfEach {α : Type} {key : α → String} {seen : List String} {l : List α}
    {a : α} :
    a ∈ firstOfEach key seen l ↔
      key a ∉ seen ∧ l.find? (fun b => key b == key a) = some a := by
  induction l generalizing seen with
  | nil => simp [firstOfEach]
  | cons b l ih =>
    rw [firstOfEach, List.find?_cons]
    by_cases hb : key b ∈ seen
    · rw [if_pos (by simpa using hb), ih]
      refine and_congr_right fun hnew => ?_
      have hne : (key b == key a) = false := beq_false_of_ne fun heq => hnew (heq ▸ hb)
      rw [hne]
    · rw [if_neg (by simpa using hb), List.mem_cons, ih]
      by_cases heq : key b = key a
      · have hnew : key a ∉ seen := heq ▸ hb
        simp [heq, hnew, eq_comm]
      · have hab : a ≠ b := fun hab => heq (hab ▸ rfl)
        have hkey : key a ≠ key b := fun hab => heq hab.symm
        have hne : (key b == key a) = false := beq_false_of_ne heq
        simp [hab, hkey, hne]

/-- Keeping the first element of each key loses no key but those already seen. -/
lemma exists_mem_firstOfEach {α : Type} {key : α → String} {seen : List String} {l : List α} :
    (∃ a ∈ firstOfEach key seen l, key a = n) ↔ n ∉ seen ∧ ∃ a ∈ l, key a = n := by
  constructor
  · rintro ⟨a, ha, rfl⟩
    obtain ⟨hnew, hfirst⟩ := mem_firstOfEach.1 ha
    exact ⟨hnew, a, List.mem_of_find?_eq_some hfirst, rfl⟩
  · rintro ⟨hnew, a, ha, rfl⟩
    have hsome : (l.find? fun b => key b == key a).isSome = true := by
      rw [List.find?_isSome]
      exact ⟨a, ha, by simp⟩
    obtain ⟨b, hb⟩ := Option.isSome_iff_exists.1 hsome
    have hkey : key b = key a := by simpa using List.find?_some hb
    exact ⟨b, mem_firstOfEach.2 ⟨hkey ▸ hnew, hkey ▸ hb⟩, hkey⟩

/-- A name is redundant if a declared product contains it and it is also declared apart from that
product. -/
lemma mem_redundantNames :
    n ∈ x.redundantNames ↔
      ∃ p ∈ x.productUses, n ∈ x.productMap.members p.name ∧ x.separateCount p n ≠ 0 := by
  have hlist : n ∈ x.redundantNames ↔ ∃ r ∈ x.redundant, r.name = n := by
    simp [redundantNames]
  rw [hlist, redundant, exists_mem_firstOfEach]
  simp only [List.not_mem_nil, not_false_eq_true, true_and, redundancies, List.mem_flatMap,
    List.mem_map, List.mem_filter, bne_iff_ne]
  constructor
  · rintro ⟨r, ⟨p, hp, m, ⟨hm, hc⟩, rfl⟩, rfl⟩
    exact ⟨p, hp, hm, hc⟩
  · rintro ⟨p, hp, hm, hc⟩
    exact ⟨⟨n, p.name, p.package⟩, ⟨p, hp, n, ⟨hm, hc⟩, rfl⟩, rfl⟩

/-- A redundant name is declared. -/
lemma mem_dependencyNames_of_mem_redundantNames (h : n ∈ x.redundantNames) :
    ∃ d ∈ x.target.dependencies, d.isProduct = false ∧ d.name = n := by
  obtain ⟨p, -, -, hc⟩ := mem_redundantNames.1 h
  have hpos : 0 < x.directCount n := by
    unfold separateCount at hc
    omega
  simpa [directCount, List.countP_pos_iff] using hpos

/-! ### Categories -/

/-- An import is missing if it is neither internal nor declared nor contained in a declared
product. -/
lemma mem_missing :
    n ∈ x.missing ↔
      n ∈ x.observed ∧ n ∉ x.internal ∧ n ∉ x.target.dependencyNames ∧
      ¬x.Provides n := by
  simp only [missing, NameSet.mem_diff, mem_satisfiedNames, mem_dependencyNames_iff]
  constructor
  · rintro ⟨⟨⟨⟨ho, hs⟩, hd⟩, hp⟩, hi⟩
    exact ⟨ho, hi, not_or.2 ⟨hd, hp⟩, fun h => hs ⟨ho, hi, h⟩⟩
  · rintro ⟨ho, hi, hd, hs⟩
    exact ⟨⟨⟨⟨ho, fun h => hs h.2.2⟩, fun h => hd (.inl h)⟩, fun h => hd (.inr h)⟩,
      hi⟩

/-- A declaration is unused if it is neither ignored nor observed, and is neither redundant nor a
product that provides something. -/
lemma mem_unused :
    n ∈ x.unused ↔
      isIgnored x.allowed n = false ∧ n ∉ x.observed ∧
        (n ∈ x.directNames ∧ n ∉ x.redundantNames ∨
          n ∈ x.productNames ∧ n ∉ x.satisfiedNames ∧ n ∉ x.usedProducts) := by
  simp only [unused, NameSet.mem_union, NameSet.mem_filter, NameSet.mem_diff, Bool.not_eq_true']
  constructor
  · rintro (⟨⟨⟨hd, hr⟩, ho⟩, hn⟩ | ⟨⟨⟨⟨hp, ho⟩, hs⟩, hu⟩, hn⟩)
    · exact ⟨hn, ho, .inl ⟨hd, hr⟩⟩
    · exact ⟨hn, ho, .inr ⟨hp, hs, hu⟩⟩
  · rintro ⟨hn, ho, ⟨hd, hr⟩ | ⟨hp, hs, hu⟩⟩
    · exact .inl ⟨⟨⟨hd, hr⟩, ho⟩, hn⟩
    · exact .inr ⟨⟨⟨⟨hp, ho⟩, hs⟩, hu⟩, hn⟩

/-- What is not imported is not provided either, so a declaration is unused if it is not imported
and neither redundant nor a product in use. -/
lemma mem_unused_iff :
    n ∈ x.unused ↔
      isIgnored x.allowed n = false ∧ ¬x.Imports n ∧
        (n ∈ x.directNames ∧ n ∉ x.redundantNames ∨ n ∈ x.productNames ∧
          n ∉ x.usedProducts) := by
  rw [mem_unused, mem_observed, mem_satisfiedNames, mem_observed]
  constructor
  · rintro ⟨hn, ho, h⟩
    exact ⟨hn, fun hi => ho ⟨hi, hn⟩, h.imp id fun ⟨hp, _, hu⟩ => ⟨hp, hu⟩⟩
  · rintro ⟨hn, hi, h⟩
    exact ⟨hn, fun ho => hi ho.1,
      h.imp id fun ⟨hp, hu⟩ => ⟨hp, fun hs => hi hs.1.1, hu⟩⟩

/-- A declaration is correct if it is imported by its name and is not redundant, where the name of a
product always counts. -/
lemma mem_correct :
    n ∈ x.correct ↔
      n ∈ x.observed ∧ (n ∈ x.directNames ∧ n ∉ x.redundantNames ∨
        n ∈ x.productNames) := by
  simp only [correct, NameSet.mem_union, NameSet.mem_inter, NameSet.mem_diff]
  constructor
  · rintro (⟨h, ho⟩ | ⟨hp, ho⟩)
    · exact ⟨ho, .inl h⟩
    · exact ⟨ho, .inr hp⟩
  · rintro ⟨ho, h | hp⟩
    · exact .inl ⟨h, ho⟩
    · exact .inr ⟨hp, ho⟩

/-- The analysis of a target with sources holds the categories. -/
lemma analyze_of_hasSources (h : x.target.hasSources = true) :
    x.analyze = ⟨x.target, x.missing, x.unused, x.correct, x.satisfied, x.redundant,
      x.files⟩ := by
  rw [analyze, if_pos h]

/-- The analysis of a target without sources holds nothing. -/
lemma analyze_of_not_hasSources (h : x.target.hasSources = false) :
    x.analyze = Analysis.trivial x.target := by
  rw [analyze, if_neg (by simp [h])]

end AnalysisInput

end SwiftDependencies
