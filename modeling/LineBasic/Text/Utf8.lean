/-
  LineBasic.Text.Utf8

  Strict decoding of UTF-8, which says where and why it stops.

  A sequence is refused at its first byte when no sequence starts with that byte; at the longest
  well-formed beginning when the next byte cannot continue it (surrogates, overlong forms and code
  points past U+10FFFF are refused by their second byte); and as a whole when the bytes run out.
-/
import LineBasic.Text.Quoted

namespace LineBasic.Text.Utf8

inductive Reason where
  | startByte
  | continuationByte
  | endOfData
  deriving Repr, DecidableEq

/-- The bytes `first` to `first + count - 1` do not decode; `byte` is the one at `first`. -/
structure Flaw where
  byte : UInt8
  first : Nat
  count : Nat
  reason : Reason
  deriving Repr, DecidableEq

def Reason.text : Reason → String
  | .startByte => "invalid start byte"
  | .continuationByte => "invalid continuation byte"
  | .endOfData => "unexpected end of data"

def Flaw.message (f : Flaw) : String :=
  let place :=
    if f.count = 1 then
      s!"byte 0x{String.ofList (hexDigits 2 f.byte.toNat)} in position {f.first}"
    else s!"bytes in position {f.first}-{f.first + f.count - 1}"
  s!"'utf-8' codec can't decode {place}: {f.reason.text}"

/-! ## Sequences -/

def isContinuation (b : UInt8) : Bool :=
  0x80 ≤ b && b ≤ 0xBF

/-- How many bytes follow a first byte, when one may start a sequence. -/
def followers? (b : UInt8) : Option Nat :=
  if b < 0x80 then some 0
  else if 0xC2 ≤ b ∧ b ≤ 0xDF then some 1
  else if 0xE0 ≤ b ∧ b ≤ 0xEF then some 2
  else if 0xF0 ≤ b ∧ b ≤ 0xF4 then some 3
  else none

/-- Whether `b` may be the second byte after the first byte `lead`. -/
def maySecond (lead b : UInt8) : Bool :=
  isContinuation b &&
    (lead != 0xE0 || 0xA0 ≤ b) && (lead != 0xED || b < 0xA0) &&
    (lead != 0xF0 || 0x90 ≤ b) && (lead != 0xF4 || b < 0x90)

/-- The bits that a first byte with `n` followers contributes. -/
def leadBits (n : Nat) (b : UInt8) : Nat :=
  match n with
  | 0 => b.toNat
  | 1 => b.toNat % 0x20
  | 2 => b.toNat % 0x10
  | _ => b.toNat % 0x08

/-- A sequence that is being read: its first byte and place, how many bytes were read, how many are
    missing, and the code point so far. -/
structure Open where
  lead : UInt8
  first : Nat
  read : Nat
  missing : Nat
  value : Nat

/-- Decodes the bytes from position `pos` on, after `done` (held backwards) and inside the sequence
    `within`, if any. -/
def decodeFrom (done : List Char) (within : Option Open) (pos : Nat) :
    List UInt8 → Except Flaw (List Char)
  | [] =>
    match within with
    | none => .ok done.reverse
    | some o => .error ⟨o.lead, o.first, o.read, .endOfData⟩
  | b :: rest =>
    match within with
    | none =>
      match followers? b with
      | none => .error ⟨b, pos, 1, .startByte⟩
      | some 0 => decodeFrom (Char.ofNat b.toNat :: done) none (pos + 1) rest
      | some n => decodeFrom done (some ⟨b, pos, 1, n, leadBits n b⟩) (pos + 1) rest
    | some o =>
      if (if o.read = 1 then maySecond o.lead b else isContinuation b) then
        let value := o.value * 0x40 + b.toNat % 0x40
        if o.missing = 1 then decodeFrom (Char.ofNat value :: done) none (pos + 1) rest
        else decodeFrom done (some { o with read := o.read + 1, missing := o.missing - 1, value })
          (pos + 1) rest
      else .error ⟨o.lead, o.first, o.read, .continuationByte⟩

/-- The characters of a byte sequence, or the first flaw in it. -/
def decode (bytes : List UInt8) : Except Flaw (List Char) :=
  decodeFrom [] none 0 bytes

end LineBasic.Text.Utf8
