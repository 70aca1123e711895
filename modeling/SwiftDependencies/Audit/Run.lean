import SwiftDependencies.Audit.Outcome
import SwiftDependencies.Checkouts

/-!
# Auditing a package

An audit reads the manifest at a path, selects targets, looks for the external packages, and
analyzes each target by itself. How many targets are worked on at once does not show in the report;
only a negative number of workers is refused.
-/

namespace SwiftDependencies

/-- How audits are done. -/
structure Auditor where
  reader : Reader
  /-- The modules that are never reported. -/
  allowed : NameSet
  /-- The greatest number of targets that are worked on at once. -/
  workers : Int
  /-- How many levels above a package its checkouts may lie. -/
  depth : Int

namespace Auditor

/-- The depth to which checkouts are looked for unless something else is asked. -/
def defaultDepth : Int := 5

/-- The number of workers on a machine with a number of processors, which may be unknown. -/
def defaultWorkers (processors : Option Int) : Int :=
  min ((processors.filter (· ≠ 0)).getD 1) 8

/-- The number of workers that was asked for. None or zero leaves it to the machine. -/
def workersOr (asked : Option Int) (processors : Option Int) : Int :=
  (asked.filter (· ≠ 0)).getD (defaultWorkers processors)

/-- The external packages of a package, looked for from the beginning. -/
def externals (x : Auditor) (fs : FileSystem) (p : Package) :
    Except DiskFault (List ExternalPackage) :=
  ((Resolver.mk x.reader x.depth).resolve fs [] p).1

/-- The report on the package at a path. -/
def run (x : Auditor) (fs : FileSystem) (path : Path) (target : Option String)
    (excludeTests : Bool) : Except Failure Report := do
  let package ← (x.reader.readAt fs path).1.mapError .audit
  let targets ← (package.select target excludeTests).mapError .audit
  let externals ← (x.externals fs package).mapError .disk
  if x.workers < 0 then throw (.usage .negativeWorkers)
  let context : AuditContext := ⟨fs, package, externals, x.allowed⟩
  (collectOutcomes package (targets.map fun t => (t, context.outcome t))).1

end Auditor

end SwiftDependencies
