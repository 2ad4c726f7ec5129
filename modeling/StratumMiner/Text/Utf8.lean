import StratumMiner.Bytes

/-!
# UTF-8 with replacement

Text from a pool is decoded without ever failing: each maximal part that could have begun a
character but does not is replaced by U+FFFD, and decoding goes on with the byte after it. A
decoder in the middle of a character knows the bits so far, how many further bytes it needs, and
the range of the next one; the narrow ranges after `E0`, `ED`, `F0` and `F4` keep out overlong
forms, surrogates and numbers past U+10FFFF.
-/

namespace StratumMiner.Utf8

/-- A character that has begun: the bits read, the bytes still to come, and the bounds of the
next one. -/
structure Partial where
  bits : Nat
  missing : Nat
  low : UInt8
  high : UInt8
  deriving Repr, DecidableEq

/-- What the first byte of a character says. -/
inductive Lead where
  | whole (char : Char)
  | begun (start : Partial)
  | invalid
  deriving Repr

/-- Classify the first byte of a character. -/
def lead (byte : UInt8) : Lead :=
  if byte < 0x80 then .whole (Char.ofNat byte.toNat)
  else if byte < 0xc2 then .invalid
  else if byte < 0xe0 then .begun ⟨byte.toNat - 0xc0, 1, 0x80, 0xbf⟩
  else if byte == 0xe0 then .begun ⟨0, 2, 0xa0, 0xbf⟩
  else if byte == 0xed then .begun ⟨0xd, 2, 0x80, 0x9f⟩
  else if byte < 0xf0 then .begun ⟨byte.toNat - 0xe0, 2, 0x80, 0xbf⟩
  else if byte == 0xf0 then .begun ⟨0, 3, 0x90, 0xbf⟩
  else if byte < 0xf4 then .begun ⟨byte.toNat - 0xf0, 3, 0x80, 0xbf⟩
  else if byte == 0xf4 then .begun ⟨4, 3, 0x80, 0x8f⟩
  else .invalid

/-- The character put in place of bytes that spell none. -/
def replacement : Char := '\uFFFD'

/-- Decode from the middle of a character, or from between characters, onto the reversed
characters read so far. -/
def decodeOnto (done : List Char) (pending : Option Partial) : Bytes → List Char
  | [] =>
      match pending with
      | none => done.reverse
      | some _ => (replacement :: done).reverse
  | byte :: rest =>
      match pending with
      | some begun =>
          if begun.low ≤ byte ∧ byte ≤ begun.high then
            let bits := begun.bits * 64 + (byte.toNat - 0x80)
            if begun.missing ≤ 1 then decodeOnto (Char.ofNat bits :: done) none rest
            else decodeOnto done (some ⟨bits, begun.missing - 1, 0x80, 0xbf⟩) rest
          else
            match lead byte with
            | .whole char => decodeOnto (char :: replacement :: done) none rest
            | .begun next => decodeOnto (replacement :: done) (some next) rest
            | .invalid => decodeOnto (replacement :: replacement :: done) none rest
      | none =>
          match lead byte with
          | .whole char => decodeOnto (char :: done) none rest
          | .begun next => decodeOnto done (some next) rest
          | .invalid => decodeOnto (replacement :: done) none rest

/-- The characters of a byte string, with replacements. -/
def decodeChars (bytes : Bytes) : List Char :=
  decodeOnto [] none bytes

/-- The text of a byte string, with replacements. -/
def decode (bytes : Bytes) : String :=
  String.ofList (decodeChars bytes)

/-- The bytes of a text. -/
def encode (text : String) : Bytes :=
  text.toList.flatMap String.utf8EncodeChar

end StratumMiner.Utf8
