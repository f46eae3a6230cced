/-!
UTF-8: texts as bytes, and the two ways to read bytes as a text.

The front of a byte list either holds one well-formed sequence or is bad; a bad
front is the longest piece that begins a sequence, and one byte when there is no
such piece. The strict reader stops at the first bad front and says where and
why. The lossy reader puts a replacement character in its place and goes on.
-/

namespace EsmBundle

/-- File contents and what a process writes. -/
abbrev Bytes := List UInt8

namespace Utf8

/-! ### Writing -/

/-- The bytes of a text. -/
def encode (cs : List Char) : Bytes :=
  cs.flatMap String.utf8EncodeChar

/-! ### One sequence -/

/-- Why the front of a byte list is no character. -/
inductive Reason where
  | invalidStart
  | invalidContinuation
  | unexpectedEnd
deriving DecidableEq, Repr

/-- What the front of a byte list holds: a character and the number of its
bytes, or a bad piece and its length. -/
inductive Front where
  | scalar (c : Char) (width : Nat)
  | bad (width : Nat) (reason : Reason)
deriving DecidableEq, Repr

/-- What a first byte of several announces: the number of bytes that follow and
the bounds of the first of them. The bounds exclude overlong forms,
surrogates and code points past the last. -/
def lead? (b : UInt8) : Option (Nat × UInt8 × UInt8) :=
  if 0xC2 ≤ b && b ≤ 0xDF then some (1, 0x80, 0xBF)
  else if b = 0xE0 then some (2, 0xA0, 0xBF)
  else if b = 0xED then some (2, 0x80, 0x9F)
  else if 0xE1 ≤ b && b ≤ 0xEF then some (2, 0x80, 0xBF)
  else if b = 0xF0 then some (3, 0x90, 0xBF)
  else if 0xF1 ≤ b && b ≤ 0xF3 then some (3, 0x80, 0xBF)
  else if b = 0xF4 then some (3, 0x80, 0x8F)
  else none

/-- The bytes that continue a sequence of `count` more bytes, the first of them between `lo` and
`hi`. -/
def continuation : (count : Nat) → (lo hi : UInt8) → Bytes → Bytes
  | 0, _, _, _ => []
  | _, _, _, [] => []
  | count + 1, lo, hi, b :: rest =>
    if lo ≤ b && b ≤ hi then b :: continuation count 0x80 0xBF rest else []

/-- The code point of a sequence from the value bits of its first byte and its other bytes. -/
def codePoint (bits : Nat) (tail : Bytes) : Nat :=
  tail.foldl (fun n b => n * 64 + (b.toNat - 0x80)) bits

/-- What the byte `b` and the bytes after it hold in front. -/
def front (b : UInt8) (rest : Bytes) : Front :=
  if b < 0x80 then .scalar (Char.ofNat b.toNat) 1
  else
    match lead? b with
    | none => .bad 1 .invalidStart
    | some (count, lo, hi) =>
      let tail := continuation count lo hi rest
      if tail.length = count then
        .scalar (Char.ofNat (codePoint (b.toNat % Nat.pow 2 (6 - count)) tail)) (count + 1)
      else if tail.length = rest.length then .bad (tail.length + 1) .unexpectedEnd
      else .bad (tail.length + 1) .invalidContinuation

/-! ### Reading strictly -/

/-- The first bad piece of a byte list. -/
structure DecodeError where
  firstByte : UInt8
  position : Nat
  width : Nat
  reason : Reason
deriving DecidableEq, Repr

/-- The characters of `bytes`, the first `skip` of which belong to a sequence
already read; `seen` holds the characters before them, latest first. -/
def decodeFrom (seen : List Char) : (position skip : Nat) → Bytes → Except DecodeError (List Char)
  | _, _, [] => .ok seen.reverse
  | position, skip + 1, _ :: rest => decodeFrom seen (position + 1) skip rest
  | position, 0, b :: rest =>
    match front b rest with
    | .scalar c width => decodeFrom (c :: seen) (position + 1) (width - 1) rest
    | .bad width reason => .error ⟨b, position, width, reason⟩

/-- The characters of the bytes, if all of them are well formed. -/
def decode (bytes : Bytes) : Except DecodeError (List Char) :=
  decodeFrom [] 0 0 bytes

/-! ### Reading with replacement -/

/-- The characters of `bytes` with a replacement for every bad piece, the first `skip` bytes left
out; `seen` holds the characters before them, latest first. -/
def decodeLossyFrom (seen : List Char) : (skip : Nat) → Bytes → List Char
  | _, [] => seen.reverse
  | skip + 1, _ :: rest => decodeLossyFrom seen skip rest
  | 0, b :: rest =>
    match front b rest with
    | .scalar c width => decodeLossyFrom (c :: seen) (width - 1) rest
    | .bad width _ => decodeLossyFrom ('\uFFFD' :: seen) (width - 1) rest

/-- The characters of the bytes, with one replacement character for every bad piece. -/
def decodeLossy (bytes : Bytes) : List Char :=
  decodeLossyFrom [] 0 bytes

/-! ### Messages -/

/-- The wording of a reason. -/
def Reason.message : Reason → String
  | .invalidStart => "invalid start byte"
  | .invalidContinuation => "invalid continuation byte"
  | .unexpectedEnd => "unexpected end of data"

/-- The byte as two lowercase hexadecimal digits. -/
def hexByte (b : UInt8) : String :=
  String.ofList [Nat.digitChar (b.toNat / 16), Nat.digitChar (b.toNat % 16)]

/-- A single bad byte is named; of a longer piece the first and the last position are given. -/
def DecodeError.message (e : DecodeError) : String :=
  let place :=
    if e.width = 1 then
      "byte 0x" ++ hexByte e.firstByte ++ " in position " ++ toString e.position
    else
      "bytes in position " ++ toString e.position ++ "-" ++ toString (e.position + e.width - 1)
  "'utf-8' codec can't decode " ++ place ++ ": " ++ e.reason.message

end Utf8

end EsmBundle
