import Letterhead.Text.Basic
/-
# UTF-8

Files hold bytes, the rest of the library texts. Reading is strict: the first
sequence that is not well formed ends it, with the place and the reason.
-/
namespace Letterhead.Text.Utf8

abbrev Bytes := List UInt8

/-- Why a sequence is not well formed. -/
inductive Reason
  /-- No sequence begins with this byte. -/
  | startByte
  /-- A byte stands where the sequence goes on, and does not continue it. -/
  | continuation
  /-- The bytes end inside a sequence. -/
  | endOfData
deriving DecidableEq, Repr

/-- A sequence that is not well formed: its first byte and the offsets between
which it lies. -/
structure Fault where
  byte : UInt8
  start : Nat
  stop : Nat
  reason : Reason
deriving DecidableEq, Repr

def Reason.message : Reason → Text
  | .startByte => "invalid start byte".toList
  | .continuation => "invalid continuation byte".toList
  | .endOfData => "unexpected end of data".toList

/-- One byte is named by its value, several by their offsets. -/
def Fault.message (f : Fault) : Text :=
  let place :=
    if f.stop = f.start + 1 then
      "byte 0x".toList ++ ofNatPadded 16 2 f.byte.toNat ++ " in position ".toList ++ ofNat f.start
    else
      "bytes in position ".toList ++ ofNat f.start ++ ['-'] ++ ofNat (f.stop - 1)
  "'utf-8' codec can't decode ".toList ++ place ++ ": ".toList ++ f.reason.message

/-! ## Reading -/

/-- A sequence under way: where it began and with which byte, the value so far
and the ranges in which the bytes to come must lie. -/
structure Pending where
  start : Nat
  byte : UInt8
  value : Nat
  ranges : List (Nat × Nat)

def plain : Nat × Nat := (0x80, 0xBF)

/-- What a byte of 128 and above begins. The second byte is narrowed where a
shorter form, a surrogate or a value past the last code point could follow. -/
def begin? (start : Nat) (b : UInt8) : Option Pending :=
  let n := b.toNat
  let lead (value : Nat) (ranges : List (Nat × Nat)) : Option Pending :=
    some ⟨start, b, value, ranges⟩
  if n < 0xC2 then none
  else if n < 0xE0 then lead (n - 0xC0) [plain]
  else if n = 0xE0 then lead 0 [(0xA0, 0xBF), plain]
  else if n = 0xED then lead 0xD [(0x80, 0x9F), plain]
  else if n < 0xF0 then lead (n - 0xE0) [plain, plain]
  else if n = 0xF0 then lead 0 [(0x90, 0xBF), plain, plain]
  else if n < 0xF4 then lead (n - 0xF0) [plain, plain, plain]
  else if n = 0xF4 then lead 4 [(0x80, 0x8F), plain, plain]
  else none

/-- Reads on at an offset, inside a sequence or between two. -/
def decodeFrom (offset : Nat) : Option Pending → Bytes → Except Fault Text
  | none, [] => .ok []
  | some p, [] => .error ⟨p.byte, p.start, offset, .endOfData⟩
  | none, b :: bs =>
    if b < 0x80 then
      match decodeFrom (offset + 1) none bs with
      | .ok s => .ok (Char.ofNat b.toNat :: s)
      | .error f => .error f
    else match begin? offset b with
      | some p => decodeFrom (offset + 1) (some p) bs
      | none => .error ⟨b, offset, offset + 1, .startByte⟩
  | some p, b :: bs =>
    match p.ranges with
    | [] => .error ⟨p.byte, p.start, offset, .continuation⟩
    | r :: rs =>
      if r.1 ≤ b.toNat && b.toNat ≤ r.2 then
        let value := p.value * 64 + (b.toNat - 0x80)
        if rs.isEmpty then
          match decodeFrom (offset + 1) none bs with
          | .ok s => .ok (Char.ofNat value :: s)
          | .error f => .error f
        else decodeFrom (offset + 1) (some { p with value := value, ranges := rs }) bs
      else .error ⟨p.byte, p.start, offset, .continuation⟩

/-- The text that bytes encode. -/
def decode (bs : Bytes) : Except Fault Text := decodeFrom 0 none bs

/-! ## Writing -/

/-- A continuation byte with six bits of payload. -/
def continuation (n : Nat) : UInt8 := UInt8.ofNat (0x80 + n % 64)

/-- The one to four bytes of a character. -/
def encodeChar (c : Char) : Bytes :=
  let n := c.toNat
  if n < 0x80 then [UInt8.ofNat n]
  else if n < 0x800 then [UInt8.ofNat (0xC0 + n / 64), continuation n]
  else if n < 0x10000 then
    [UInt8.ofNat (0xE0 + n / 4096), continuation (n / 64), continuation n]
  else
    [UInt8.ofNat (0xF0 + n / 262144), continuation (n / 4096), continuation (n / 64),
      continuation n]

def encode (s : Text) : Bytes := s.flatMap encodeChar

def size (s : Text) : Nat := (encode s).length

end Letterhead.Text.Utf8
