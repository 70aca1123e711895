import Mathlib.Data.List.Dedup
import Mathlib.Tactic.Common
import SwiftDependencies.Proofs.Analysis.Membership
import SwiftDependencies.Proofs.Sorted

/-!
# The analysis of more sources

What the source files contribute to an analysis is the set of modules that they import.  What a
target declares, what its products contain and which product provides a module do not depend on
them, so the analysis of two lists of files together can be put together from those of each:
`analyze_append`.

The one category in which products are counted as used, the unused declarations, is the least
obvious. A product is used because of an import that it is the first to provide; since which product
that is does not depend on the files, the products in use are simply those in use with some of the
files.
-/

namespace SwiftDependencies

namespace AnalysisInput

variable {x : AnalysisInput} {F G : List SourceFile} {n : String}

/-- The same analysis with other source files. -/
def withFiles (x : AnalysisInput) (files : List SourceFile) : AnalysisInput :=
  { x with files := files }

/-! What is ignored and what is declared do not depend on the files. -/

@[simp] lemma allowed_withFiles : (x.withFiles F).allowed = x.allowed := rfl

@[simp] lemma directNames_withFiles : (x.withFiles F).directNames = x.directNames := rfl

@[simp] lemma productNames_withFiles : (x.withFiles F).productNames = x.productNames := rfl

@[simp] lemma redundantNames_withFiles : (x.withFiles F).redundantNames = x.redundantNames := rfl

/-! ### Observed modules -/

/-- Two rows of files import what either of them imports. -/
lemma imports_append :
    (x.withFiles (F ++ G)).Imports n ↔
      (x.withFiles F).Imports n ∨ (x.withFiles G).Imports n := by
  simp [Imports, withFiles, or_and_right, exists_or]

/-- With two rows of files the observed modules are those of either row. -/
lemma mem_observed_append :
    n ∈ (x.withFiles (F ++ G)).observed ↔
      n ∈ (x.withFiles F).observed ∨ n ∈ (x.withFiles G).observed := by
  simp only [mem_observed, imports_append, or_and_right]
  rfl

/-! ### Findings -/

/-- No two findings are about the same import, and they are in the order of the imports. -/
lemma satisfied_rising (x : AnalysisInput) :
    x.satisfied.Pairwise fun s t => s.module < t.module := by
  refine List.Pairwise.filterMap _ (fun m n hmn s hs t ht => ?_) (x.observed \ x.internal).sorted
  obtain ⟨p, -, rfl⟩ := Option.map_eq_some_iff.1 hs
  obtain ⟨q, -, rfl⟩ := Option.map_eq_some_iff.1 ht
  exact hmn

/-- There is one finding about an import. -/
lemma eq_of_mem_satisfied {s t : Satisfied} (hs : s ∈ x.satisfied) (ht : t ∈ x.satisfied)
    (h : s.module = t.module) : s = t := by
  obtain ⟨-, -, p, hp, hsp, hsk⟩ := mem_satisfied.1 hs
  obtain ⟨-, -, q, hq, htq, htk⟩ := mem_satisfied.1 ht
  obtain rfl : p = q := Option.some.inj (hp.symm.trans (h ▸ hq))
  obtain ⟨m, i, k⟩ := s
  obtain ⟨m', i', k'⟩ := t
  simp_all

/-- With two rows of files the provided imports are those of either row. -/
lemma mem_satisfied_append {s : Satisfied} :
    s ∈ (x.withFiles (F ++ G)).satisfied ↔
      s ∈ (x.withFiles F).satisfied ∨ s ∈ (x.withFiles G).satisfied := by
  simp only [mem_satisfied, mem_observed_append, or_and_right]
  rfl

/-- With two rows of files the used products are those of either row. -/
lemma mem_usedProducts_append :
    n ∈ (x.withFiles (F ++ G)).usedProducts ↔
      n ∈ (x.withFiles F).usedProducts ∨ n ∈ (x.withFiles G).usedProducts := by
  simp only [mem_usedProducts, mem_satisfied_append, or_and_right, exists_or]

/-- A list of findings in the order of the imports, one about each, is determined by its members. -/
lemma satisfied_eq_sortedBy {l : List Satisfied} (hl : l.Nodup)
    (h : ∀ s, s ∈ x.satisfied ↔ s ∈ l) :
    x.satisfied = sortedBy (·.module) l := by
  have hrising := satisfied_rising x
  have hnodup : x.satisfied.Nodup := hrising.imp fun hst => by
    rintro rfl
    exact String.lt_irrefl _ hst
  have hperm : x.satisfied.Perm l := (List.perm_ext_iff_of_nodup hnodup hl).2 h
  rw [← sortedBy_eq_of_perm hperm fun s hs t ht => eq_of_mem_satisfied hs ht,
    sortedBy_eq_self (hrising.imp Std.le_of_lt)]

/-! ### Putting analyses together -/

end AnalysisInput

namespace Analysis

/-- One analysis is what two others, of the same declarations, amount to together. -/
structure Combines (a b c : Analysis) : Prop where
  missing : c.missing = a.missing ∪ b.missing
  correct : c.correct = a.correct ∪ b.correct
  unused : c.unused = a.unused ∩ b.unused
  redundant_left : c.redundant = a.redundant
  redundant_right : c.redundant = b.redundant
  /-- Each finding once, in the order of the imports. -/
  satisfied : c.satisfied = sortedBy (·.module) (a.satisfied ++ b.satisfied).dedup

/-- Two analyses that differ at most in the source files that they name. -/
structure SameCategories (a b : Analysis) : Prop where
  missing : a.missing = b.missing
  unused : a.unused = b.unused
  correct : a.correct = b.correct
  satisfied : a.satisfied = b.satisfied
  redundant : a.redundant = b.redundant

/-- With more sources more may be missing and correct, and less unused. -/
structure Grows (a b : Analysis) : Prop where
  missing : ∀ n ∈ a.missing, n ∈ b.missing
  correct : ∀ n ∈ a.correct, n ∈ b.correct
  unused : ∀ n ∈ b.unused, n ∈ a.unused

/-- What an analysis is combined with can only let it grow. -/
lemma Combines.grows {a b c : Analysis} (h : Combines a b c) : Grows a c where
  missing n hn := by
    rw [h.missing, NameSet.mem_union]
    exact .inl hn
  correct n hn := by
    rw [h.correct, NameSet.mem_union]
    exact .inl hn
  unused n hn := by
    rw [h.unused, NameSet.mem_inter] at hn
    exact hn.1

end Analysis

namespace AnalysisInput

variable {x : AnalysisInput} {F G : List SourceFile} {n : String}

/-- A declaration is unused with all files if it is unused with some and with the others. -/
lemma mem_unused_append :
    n ∈ (x.withFiles (F ++ G)).unused ↔
      n ∈ (x.withFiles F).unused ∧ n ∈ (x.withFiles G).unused := by
  simp only [mem_unused_iff, imports_append, mem_usedProducts_append, allowed_withFiles,
    directNames_withFiles, productNames_withFiles, redundantNames_withFiles]
  constructor
  · rintro ⟨hn, hi, h⟩
    rw [not_or] at hi
    exact ⟨⟨hn, hi.1, h.imp id fun ⟨hp, hu⟩ => ⟨hp, fun hF => hu (.inl hF)⟩⟩,
      ⟨hn, hi.2, h.imp id fun ⟨hp, hu⟩ => ⟨hp, fun hG => hu (.inr hG)⟩⟩⟩
  · rintro ⟨⟨hn, hF, h⟩, -, hG, h'⟩
    refine ⟨hn, not_or.2 ⟨hF, hG⟩, ?_⟩
    rcases h with hd | ⟨hp, huF⟩
    · exact .inl hd
    · exact h'.imp id fun ⟨_, huG⟩ => ⟨hp, not_or.2 ⟨huF, huG⟩⟩

/-- The analysis of files together is put together from the analyses of some and of the others. -/
lemma analyze_combines (x : AnalysisInput) (F G : List SourceFile) :
    (x.withFiles F).analyze.Combines (x.withFiles G).analyze (x.withFiles (F ++ G)).analyze := by
  cases h : x.target.hasSources with
  | false =>
    have htrivial := fun H => analyze_of_not_hasSources (x := x.withFiles H) h
    simp only [htrivial]
    exact ⟨rfl, rfl, rfl, rfl, rfl, by simp [Analysis.trivial, sortedBy]⟩
  | true =>
    have hanalyze := fun H => analyze_of_hasSources (x := x.withFiles H) h
    simp only [hanalyze]
    constructor
    case missing =>
      refine NameSet.ext fun n => ?_
      simp only [NameSet.mem_union, mem_missing, mem_observed_append, or_and_right]
      rfl
    case correct =>
      refine NameSet.ext fun n => ?_
      simp only [NameSet.mem_union, mem_correct, mem_observed_append, or_and_right]
      rfl
    case unused => exact NameSet.ext fun n => mem_unused_append.trans NameSet.mem_inter.symm
    case redundant_left => rfl
    case redundant_right => rfl
    case satisfied =>
      refine satisfied_eq_sortedBy (List.nodup_dedup _) fun s => ?_
      rw [List.mem_dedup, List.mem_append, mem_satisfied_append]

/-- The categories depend only on the observed modules. -/
lemma sameCategories_of_observed (h : (x.withFiles F).observed = (x.withFiles G).observed) :
    (x.withFiles F).analyze.SameCategories (x.withFiles G).analyze := by
  cases hs : x.target.hasSources with
  | false =>
    have htrivial := fun H => analyze_of_not_hasSources (x := x.withFiles H) hs
    rw [htrivial, htrivial]
    exact ⟨rfl, rfl, rfl, rfl, rfl⟩
  | true =>
    have hsatisfied : (x.withFiles F).satisfied = (x.withFiles G).satisfied := by
      rw [satisfied, h]
      rfl
    have hnames : (x.withFiles F).satisfiedNames = (x.withFiles G).satisfiedNames := by
      rw [satisfiedNames, hsatisfied, satisfiedNames]
    have hused : (x.withFiles F).usedProducts = (x.withFiles G).usedProducts := by
      rw [usedProducts, hsatisfied, usedProducts]
    have hanalyze := fun H => analyze_of_hasSources (x := x.withFiles H) hs
    rw [hanalyze, hanalyze]
    constructor
    case missing =>
      refine NameSet.ext fun n => ?_
      rw [mem_missing, mem_missing, h]
      rfl
    case unused =>
      refine NameSet.ext fun n => ?_
      rw [mem_unused, mem_unused, h, hnames, hused]
      rfl
    case correct =>
      refine NameSet.ext fun n => ?_
      rw [mem_correct, mem_correct, h]
      rfl
    case satisfied => exact hsatisfied
    case redundant => rfl

/-- So they depend only on which modules are imported. -/
lemma sameCategories_of_imports (h : ∀ n, (x.withFiles F).Imports n ↔
    (x.withFiles G).Imports n) :
    (x.withFiles F).analyze.SameCategories (x.withFiles G).analyze := by
  refine sameCategories_of_observed (NameSet.ext fun n => ?_)
  rw [mem_observed, mem_observed, h]
  rfl

/-- The analysis of some files and others together has the imports that are missing or correct with
either, the declarations that are unused with both, the redundant ones of each, and the findings of
both in the order of the imports. It depends only on which modules are imported, hence not on the
order of files and imports, and more files can only add to what is missing and correct and take from
what is unused. -/
theorem analyze_append (x : AnalysisInput) (F G : List SourceFile) :
    (x.withFiles F).analyze.Combines (x.withFiles G).analyze (x.withFiles (F ++ G)).analyze ∧
      (∀ H, (∀ n, (x.withFiles H).Imports n ↔ (x.withFiles (F ++ G)).Imports n) →
        (x.withFiles H).analyze.SameCategories (x.withFiles (F ++ G)).analyze) ∧
      (x.withFiles F).analyze.Grows (x.withFiles (F ++ G)).analyze :=
  ⟨analyze_combines x F G, fun _ h => sameCategories_of_imports h,
    (analyze_combines x F G).grows⟩

/-- Two files that import a member of the same product, and the same files the other way round, with
their imports in another order. -/
theorem analyze_append_two :
    let app : Target :=
      ⟨"App", .library, [.bare "Log", .ofProduct "Net" (some "net"), .bare "Stale"], none⟩
    let net : ExternalPackage :=
      ⟨"net", [⟨"Net", .library, ["Wire", "Sockets"], "net"⟩], default⟩
    let x : AnalysisInput :=
      ⟨app, ⟨"Pkg", default, [app], [], []⟩, [net], .ofPackages [net], [], ∅⟩
    let first : SourceFile :=
      ⟨.ofString "a.swift", [⟨"Wire", 1, false⟩, ⟨"Lost", 2, false⟩]⟩
    let second : SourceFile :=
      ⟨.ofString "b.swift", [⟨"Wire", 1, false⟩, ⟨"Log", 3, false⟩]⟩
    let turned : List SourceFile :=
      [⟨.ofString "b.swift", [⟨"Log", 3, false⟩, ⟨"Wire", 1, false⟩]⟩,
        ⟨.ofString "a.swift", [⟨"Lost", 2, false⟩, ⟨"Wire", 1, false⟩]⟩]
    (∀ n, (x.withFiles turned).Imports n ↔ (x.withFiles ([first] ++ [second])).Imports n) ∧
      (x.withFiles turned).analyze.SameCategories (x.withFiles ([first] ++ [second])).analyze ∧
      (x.withFiles [first]).analyze.Combines (x.withFiles [second]).analyze
        (x.withFiles ([first] ++ [second])).analyze := by
  intro app net x first second turned
  have himports : ∀ n, (x.withFiles turned).Imports n ↔
      (x.withFiles ([first] ++ [second])).Imports n := by
    intro n
    simp only [Imports, withFiles, turned, first, second, List.mem_append, List.mem_cons,
      List.not_mem_nil, or_false, exists_eq_or_imp, exists_eq_left, or_assoc]
    tauto
  have happend := analyze_append x [first] [second]
  exact ⟨himports, happend.2.1 turned himports, happend.1⟩

end AnalysisInput

end SwiftDependencies
