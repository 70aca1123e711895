import SwiftDependencies.Main
import SwiftDependencies.Proofs.Analysis.Classification
import SwiftDependencies.Proofs.Analysis.Redundancy
import SwiftDependencies.Proofs.Manifest.Agreement
import SwiftDependencies.Proofs.Manifest.RoundTrip
import SwiftDependencies.Proofs.Manifest.DefaultNames
import SwiftDependencies.Proofs.Analysis.Sources
import SwiftDependencies.Proofs.Source.Cleaning
import SwiftDependencies.Proofs.Analysis.Allowing
import SwiftDependencies.Proofs.Audit.Targets
import SwiftDependencies.Proofs.Checkouts.Cache
import SwiftDependencies.Proofs.Report.Issues
import SwiftDependencies.Proofs.FileTree.Rewriting
import SwiftDependencies.Proofs.Report.Facts
import SwiftDependencies.Proofs.Audit.Isolation
import SwiftDependencies.Proofs.Analysis.Mending
import SwiftDependencies.Proofs.Analysis.Findings
import SwiftDependencies.Proofs.Analysis.Declarations
import SwiftDependencies.Proofs.Analysis.Packages
import SwiftDependencies.Proofs.Report.Lines
import SwiftDependencies.Proofs.Manifest.Transparency
import SwiftDependencies.Proofs.Source.Hiding
import SwiftDependencies.Proofs.Manifest.Sectioning
import SwiftDependencies.Proofs.Manifest.Assignments
import SwiftDependencies.Proofs.Source.LineNumbers
import SwiftDependencies.Proofs.Source.Escaping
import SwiftDependencies.Proofs.Manifest.Elements
import SwiftDependencies.Proofs.Source.Offsets
import SwiftDependencies.Proofs.Source.Views
import SwiftDependencies.Proofs.Source.Blanking
import SwiftDependencies.Proofs.Manifest.OffsetTerms
import SwiftDependencies.Proofs.Manifest.OffsetSections
import SwiftDependencies.Proofs.Manifest.Naming
import SwiftDependencies.Proofs.Manifest.Robustness
import SwiftDependencies.Proofs.Import.Reading
import SwiftDependencies.Proofs.FileTree.Sources
import SwiftDependencies.Proofs.Analysis.Scanned
import SwiftDependencies.Proofs.Import.Comments
import SwiftDependencies.Proofs.Analysis.Collisions
import SwiftDependencies.Proofs.Checkouts.Matching
import SwiftDependencies.Proofs.Checkouts.Nearest
import SwiftDependencies.Proofs.Report.Order
import SwiftDependencies.Proofs.Source.Depths
import SwiftDependencies.Proofs.Source.Splitting
