import StratumMiner.Text.Utf8

/-!
# Lines from a byte stream

A pool writes one message to a line. A decoder buffers bytes until a newline arrives and takes
lines off the buffer one at a time. It looks for the newline only among the first `maxLength + 1`
bytes and remembers how far it has looked. When the line turns out longer than that, its bytes are
thrown away up to and including its newline, and decoding goes on behind it. At the end of the
stream an unterminated last line counts too.

`split` says the same of a whole stream at once: cut it at every newline, and keep the pieces that
are not too long.
-/

namespace StratumMiner

/-- The byte that ends a line. -/
def newline : UInt8 := 10

/-- The longest line accepted from a pool, in bytes. -/
def maxLineLength : Nat := 131072

namespace Line

/-- A line without one trailing carriage return. -/
def stripReturn (line : Bytes) : Bytes :=
  if line.getLast? = some 13 then line.dropLast else line

/-- The text of a line. -/
def text (line : Bytes) : String :=
  Utf8.decode (stripReturn line)

/-- The pieces of a byte string before, between and after its newlines. -/
def pieces : Bytes → List Bytes
  | [] => [[]]
  | byte :: rest =>
      if byte = newline then [] :: pieces rest
      else
        match pieces rest with
        | [] => [[byte]]
        | piece :: more => (byte :: piece) :: more

/-- The lines of a whole stream: pieces longer than `maxLength` are dropped, and so is what follows
the last newline if it is empty. -/
def split (maxLength : Nat) (stream : Bytes) : List String :=
  let all := pieces stream
  let terminated := all.dropLast
  let last := (all.getLast?.toList).filter fun piece => !piece.isEmpty
  ((terminated ++ last).filter fun piece => piece.length ≤ maxLength).map text

end Line

/-- A byte stream on its way to lines. -/
structure LineDecoder where
  maxLength : Nat
  buffer : Bytes
  /-- How many bytes of the buffer are known to hold no newline. -/
  scanned : Nat
  /-- Whether the buffer begins inside a line that is too long. -/
  discarding : Bool
  /-- How many lines have turned out too long. -/
  overlong : Nat
  deriving Repr, DecidableEq

namespace LineDecoder

/-- A decoder without any bytes. -/
def empty (maxLength : Nat) : LineDecoder :=
  { maxLength, buffer := [], scanned := 0, discarding := false, overlong := 0 }

/-- Bytes arrive. -/
def append (decoder : LineDecoder) (bytes : Bytes) : LineDecoder :=
  { decoder with buffer := decoder.buffer ++ bytes }

/-- A text and a newline are put at the end of the buffer. -/
def encode (decoder : LineDecoder) (text : String) : LineDecoder :=
  decoder.append (Utf8.encode text ++ [newline])

/-- The position of the first newline among the first `window` bytes, counted from `index`. -/
def newlineWithin (index : Nat) : (window : Nat) → Bytes → Option Nat
  | 0, _ => none
  | _, [] => none
  | window + 1, byte :: rest =>
      if byte = newline then some index else newlineWithin (index + 1) window rest

theorem newlineWithin_bounds {index window position : Nat} {bytes : Bytes}
    (found : newlineWithin index window bytes = some position) :
    index ≤ position ∧ position < index + bytes.length := by
  induction window generalizing index bytes with
  | zero => simp [newlineWithin] at found
  | succ window ih =>
      cases bytes with
      | nil => simp [newlineWithin] at found
      | cons byte rest =>
          simp only [newlineWithin] at found
          split at found
          · simp only [Option.some.injEq] at found
            simp only [List.length_cons]
            omega
          · have := ih found
            simp only [List.length_cons]
            omega

/-- The position of the newline that ends the line at the front of the buffer, if it is in the
window. -/
def newline? (decoder : LineDecoder) : Option Nat :=
  newlineWithin decoder.scanned (decoder.maxLength + 1 - decoder.scanned)
    (decoder.buffer.drop decoder.scanned)

theorem newline?_lt {decoder : LineDecoder} {position : Nat}
    (found : decoder.newline? = some position) : position < decoder.buffer.length := by
  have bounds := newlineWithin_bounds found
  rw [List.length_drop] at bounds
  omega

/-- Whether a byte string is longer than a length. No more bytes are looked at than that takes. -/
def isLonger (bytes : Bytes) (length : Nat) : Bool :=
  !(bytes.drop length).isEmpty

theorem isLonger_iff {bytes : Bytes} {length : Nat} :
    isLonger bytes length = true ↔ length < bytes.length := by
  simp [isLonger]

/-- Take the next line off the buffer, if a whole one is there. -/
def decode (decoder : LineDecoder) : Option String × LineDecoder :=
  match found : decoder.newline? with
  | some position =>
      if decoder.discarding then
        decode { decoder with
          buffer := decoder.buffer.drop (position + 1), discarding := false, scanned := 0 }
      else
        (some (Line.text (decoder.buffer.take position)),
          { decoder with buffer := decoder.buffer.drop (position + 1), scanned := 0 })
  | none =>
      if decoder.discarding then
        if isLonger decoder.buffer (decoder.maxLength + 1) then
          decode { decoder with
            buffer := decoder.buffer.drop (decoder.maxLength + 1), scanned := 0 }
        else (none, { decoder with buffer := [], scanned := 0 })
      else if isLonger decoder.buffer decoder.maxLength then
        decode { decoder with discarding := true, overlong := decoder.overlong + 1 }
      else (none, { decoder with scanned := decoder.buffer.length })
termination_by 2 * decoder.buffer.length + if decoder.discarding then 0 else 1
decreasing_by
  · have inside := newline?_lt found
    rename_i skipping
    simp only [List.length_drop, skipping]
    split <;> simp <;> omega
  · rename_i skipping long
    have long := isLonger_iff.1 long
    simp only [List.length_drop, skipping]
    simp
    omega
  · simp_all

/-- Take the next line off the buffer when no more bytes will come. -/
def decodeEnd (decoder : LineDecoder) : Option String × LineDecoder :=
  match decoder.decode with
  | (some line, decoder) => (some line, decoder)
  | (none, decoder) =>
      if decoder.discarding || decoder.buffer.isEmpty then
        (none, { decoder with buffer := [], scanned := 0, discarding := false })
      else
        (some (Line.text decoder.buffer), { decoder with buffer := [], scanned := 0 })

/-- Take lines off the buffer until there is none, at most `fuel` of them. -/
def drain (take : LineDecoder → Option String × LineDecoder) :
    (fuel : Nat) → LineDecoder → List String × LineDecoder
  | 0, decoder => ([], decoder)
  | fuel + 1, decoder =>
      match take decoder with
      | (none, decoder) => ([], decoder)
      | (some line, decoder) =>
          let (lines, decoder) := drain take fuel decoder
          (line :: lines, decoder)

/-- All whole lines in the buffer. Each takes at least its newline. -/
def decodeAll (decoder : LineDecoder) : List String × LineDecoder :=
  drain decode (decoder.buffer.length + 1) decoder

/-- All lines in the buffer when no more bytes will come. -/
def decodeRest (decoder : LineDecoder) : List String × LineDecoder :=
  drain decodeEnd (decoder.buffer.length + 1) decoder

end LineDecoder

end StratumMiner
