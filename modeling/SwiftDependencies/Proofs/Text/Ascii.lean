import Mathlib.Tactic.Common
import SwiftDependencies.Manifest.Reader

/-!
# Files of ASCII characters

The bytes of an ASCII text other than carriage returns are read as this text, so a file system with
such files can be followed without decoding them byte by byte.
-/

namespace SwiftDependencies

namespace Text

/-- The bytes of ASCII characters. -/
def asciiBytes (text : List Char) : List UInt8 :=
  text.map fun c => .ofNat c.toNat

/-- The bytes of ASCII characters are read as these. -/
lemma decodeAt_asciiBytes {text : List Char} (h : ∀ c ∈ text, c.toNat < 0x80) (position : Nat) :
    decodeAt position (asciiBytes text) = .ok text := by
  induction text generalizing position with
  | nil => rw [asciiBytes, List.map_nil, decodeAt]
  | cons c text ih =>
    have hc := h c List.mem_cons_self
    have hbyte : (UInt8.ofNat c.toNat).toNat = c.toNat := by
      rw [UInt8.toNat_ofNat', Nat.mod_eq_of_lt (by omega)]
    have hlead : LeadByte.ofByte? (.ofNat c.toNat) = some ⟨0, 0x80, 0xbf, c.toNat⟩ := by
      have hlt : UInt8.ofNat c.toNat < 0x80 := by
        rw [UInt8.lt_iff_toNat_lt, hbyte]
        exact hc
      rw [LeadByte.ofByte?, if_pos hlt, hbyte]
    rw [asciiBytes, List.map_cons, decodeAt]
    simp only [hlead, continueChar]
    rw [← asciiBytes, ih fun d hd => h d (List.mem_cons_of_mem _ hd)]
    simp [Except.map]

/-- A text without carriage returns has normal line breaks. -/
lemma normalizeBreaks_of_not_mem {text : List Char} (h : '\r' ∉ text) :
    normalizeBreaks text = text := by
  fun_induction normalizeBreaks text with
  | case1 => rfl
  | case2 cs ih => simp at h
  | case3 c cs _ ih =>
    rw [List.mem_cons, not_or] at h
    rw [ih h.2, if_neg (by simpa using Ne.symm h.1)]

/-- A file of ASCII characters other than carriage returns has these for its text. -/
lemma readText_asciiBytes {text : List Char}
    (hascii : text.all (fun c => c.toNat < 0x80 && c != '\r') = true) :
    readText (asciiBytes text) = .ok text := by
  have h : ∀ c ∈ text, c.toNat < 0x80 ∧ c ≠ '\r' := by simpa using hascii
  rw [readText, decodeAt_asciiBytes fun c hc => (h c hc).1]
  exact congrArg Except.ok (normalizeBreaks_of_not_mem fun hr => (h _ hr).2 rfl)

end Text

/-- A manifest of ASCII characters is read by its sections as what they describe. -/
lemma Reader.readAt_asciiBytes {fs : FileSystem} {path : Path} (text : List Char) {p : Package}
    (hfile : fs.get? (manifestPath path) = some (.file (Text.asciiBytes text)))
    (hascii : text.all (fun c => c.toNat < 0x80 && c != '\r') = true)
    (h : bySections text (manifestPath path).parent = .ok p) :
    Reader.sections.readAt fs path = (.ok p, [.manifestRead p.name]) := by
  have hread : fs.read (manifestPath path) = .ok text := by
    rw [FileSystem.read, FileSystem.bytes, hfile]
    exact Text.readText_asciiBytes hascii
  simp [readAt, FileSystem.isFile, hfile, hread, FileTree.isFile, read, sections, h]

end SwiftDependencies
