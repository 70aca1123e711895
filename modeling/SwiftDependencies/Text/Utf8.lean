/-!
# Reading a file as text

The bytes of a file are UTF-8. A fault is reported by the position of the first byte that cannot be
read, the end of the faulty stretch, and the reason. The stretch contains the bytes of a character
that was begun correctly and not completed. The line breaks CR LF and CR are read as LF, and a byte
order mark is a character like any other.
-/

namespace SwiftDependencies.Text

/-- Why bytes are not text. -/
inductive Utf8Reason where
  /-- The byte starts no character. -/
  | invalidStart
  /-- The bytes so far start a character and the next one does not continue it. -/
  | invalidContinuation
  /-- The bytes end inside a character. -/
  | unexpectedEnd
  deriving DecidableEq, Repr

/-- The wording of a reason. -/
def Utf8Reason.message : Utf8Reason → String
  | .invalidStart => "invalid start byte"
  | .invalidContinuation => "invalid continuation byte"
  | .unexpectedEnd => "unexpected end of data"

/-- A stretch of bytes that is not text. -/
structure Utf8Fault where
  /-- The position of the first byte. -/
  position : Nat
  /-- The first byte. -/
  byte : UInt8
  /-- How many bytes the stretch has. -/
  length : Nat
  reason : Utf8Reason
  deriving DecidableEq, Repr

/-- A byte in two hexadecimal digits. -/
def hexByte (b : UInt8) : String :=
  String.ofList [Nat.digitChar (b.toNat / 16), Nat.digitChar (b.toNat % 16)]

/-- What is said of a fault. -/
def Utf8Fault.message (f : Utf8Fault) : String :=
  let stretch :=
    if f.length = 1 then s!"byte 0x{hexByte f.byte} in position {f.position}"
    else s!"bytes in position {f.position}-{f.position + f.length - 1}"
  s!"'utf-8' codec can't decode {stretch}: {f.reason.message}"

/-- What the first byte of a character says of it: how many bytes follow, which second bytes are
allowed, and the bits of the code point that it holds. -/
structure LeadByte where
  following : Nat
  secondMin : UInt8
  secondMax : UInt8
  bits : Nat

/-- The character that a byte starts. The bounds on the second byte exclude longer forms than
needed, surrogates, and code points above the last one. -/
def LeadByte.ofByte? (b : UInt8) : Option LeadByte :=
  if b < 0x80 then some ⟨0, 0x80, 0xbf, b.toNat⟩
  else if b < 0xc2 then none
  else if b < 0xe0 then some ⟨1, 0x80, 0xbf, b.toNat % 32⟩
  else if b < 0xf0 then
    some ⟨2, if b == 0xe0 then 0xa0 else 0x80, if b == 0xed then 0x9f else 0xbf, b.toNat % 16⟩
  else if b < 0xf5 then
    some ⟨3, if b == 0xf0 then 0x90 else 0x80, if b == 0xf4 then 0x8f else 0xbf, b.toNat % 8⟩
  else none

/-- Read `n` more bytes of a character that has `bits` so far, each within the bounds for it. On
failure, say how many were read and why. -/
def continueChar (lo hi : UInt8) (bits read : Nat) : Nat → List UInt8 →
    Except (Nat × Utf8Reason) (Nat × List UInt8)
  | 0, bs => .ok (bits, bs)
  | _ + 1, [] => .error (read, .unexpectedEnd)
  | n + 1, b :: bs =>
    if lo ≤ b && b ≤ hi then continueChar 0x80 0xbf (64 * bits + b.toNat % 64) (read + 1) n bs
    else .error (read, .invalidContinuation)

/-- What follows a character is no longer than what the character is read from. -/
theorem length_le_of_continueChar {lo hi : UInt8} {bits read n v : Nat} {bs rest : List UInt8}
    (h : continueChar lo hi bits read n bs = .ok (v, rest)) : rest.length ≤ bs.length := by
  fun_induction continueChar lo hi bits read n bs with
  | case1 => simp_all
  | case2 => simp_all
  | case3 lo hi bits read n b bs _ ih => exact Nat.le_succ_of_le (ih h)
  | case4 => simp_all

/-- The characters of bytes that begin at a position. -/
def decodeAt (position : Nat) (bytes : List UInt8) : Except Utf8Fault (List Char) :=
  match bytes with
  | [] => .ok []
  | b :: bs =>
    match LeadByte.ofByte? b with
    | none => .error ⟨position, b, 1, .invalidStart⟩
    | some lead =>
      match h : continueChar lead.secondMin lead.secondMax lead.bits 1 lead.following bs with
      | .error (read, reason) => .error ⟨position, b, read, reason⟩
      | .ok (code, rest) =>
        (decodeAt (position + (bs.length + 1 - rest.length)) rest).map (Char.ofNat code :: ·)
termination_by bytes.length
decreasing_by exact Nat.lt_succ_of_le (length_le_of_continueChar h)

/-- Read every line break as a line feed. -/
def normalizeBreaks : List Char → List Char
  | [] => []
  | '\r' :: '\n' :: cs => '\n' :: normalizeBreaks cs
  | c :: cs => (if c == '\r' then '\n' else c) :: normalizeBreaks cs

/-- The text of a file. -/
def readText (bytes : List UInt8) : Except Utf8Fault (List Char) :=
  (decodeAt 0 bytes).map normalizeBreaks

end SwiftDependencies.Text
