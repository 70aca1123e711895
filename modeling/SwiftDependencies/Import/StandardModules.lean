import SwiftDependencies.NameSet

/-!
# Standard modules

The modules that come with the toolchain and the platforms. Every target may import them, so they
are neither missing nor unused.
-/

namespace SwiftDependencies

/-- The modules of the language and its core libraries. -/
def languageModules : List String :=
  ["Swift", "_Concurrency", "_StringProcessing", "Distributed", "Observation", "RegexBuilder",
    "Synchronization", "Foundation", "FoundationEssentials", "FoundationInternationalization",
    "FoundationNetworking", "FoundationXML", "Dispatch", "CoreFoundation", "ObjectiveC", "XCTest",
    "Testing"]

/-- The modules that manifests and plugins import. -/
def packageModules : List String :=
  ["PackageDescription", "PackagePlugin"]

/-- The modules of systems and of their C libraries. -/
def systemModules : List String :=
  ["Darwin", "Glibc", "Musl", "Android", "WASILibc", "WinSDK", "ucrt", "CRT", "os", "OSLog",
    "MachO", "libkern", "simd", "zlib", "SQLite3"]

/-- The frameworks of the platforms. -/
def frameworkModules : List String :=
  ["Accelerate", "AppIntents", "AppKit", "ARKit", "AuthenticationServices", "AVFoundation", "AVKit",
    "CloudKit", "Cocoa", "Combine", "Contacts", "CoreAudio", "CoreBluetooth", "CoreData",
    "CoreGraphics", "CoreImage", "CoreLocation", "CoreML", "CoreMedia", "CoreMotion",
    "CoreServices",
    "CoreText", "CoreVideo", "CryptoKit", "EventKit", "GameKit", "HealthKit", "Intents", "IOKit",
    "LocalAuthentication", "MapKit", "MessageUI", "Metal", "MetalKit", "NaturalLanguage", "Network",
    "Photos", "PhotosUI", "QuartzCore", "RealityKit", "SafariServices", "SceneKit", "Security",
    "Speech", "SpriteKit", "StoreKit", "SwiftData", "SwiftUI", "SystemConfiguration", "UIKit",
    "UniformTypeIdentifiers", "UserNotifications", "Vision", "WebKit", "WidgetKit"]

/-- The standard modules. -/
def standardModules : NameSet :=
  NameSet.ofList (languageModules ++ packageModules ++ systemModules ++ frameworkModules)

/-- Whether a module is never reported: it is standard or on the list of allowed ones. -/
def isIgnored (allowed : NameSet) (name : String) : Bool :=
  name ∈ standardModules || name ∈ allowed

/-- A name is looked up among the standard modules without putting them in order. -/
theorem isIgnored_eq (allowed : NameSet) (name : String) :
    isIgnored allowed name =
      (decide (name ∈ languageModules ++ packageModules ++ systemModules ++ frameworkModules) ||
        decide (name ∈ allowed)) := by
  simp only [isIgnored, standardModules, NameSet.mem_ofList]

/-- A longer list of allowed modules ignores more. -/
theorem isIgnored_mono {a b : NameSet} (h : ∀ n, n ∈ a → n ∈ b) {name : String}
    (hn : isIgnored a name = true) : isIgnored b name = true := by
  simp only [isIgnored, Bool.or_eq_true, decide_eq_true_eq] at *
  exact hn.imp_right (h name)

end SwiftDependencies
