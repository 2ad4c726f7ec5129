import Mathlib
import StratumMiner.Text.Utf8

/-!
# Text through UTF-8 and back

The bytes of a text decode to that text, character by character.  Bytes below 128 stand for
themselves only, so a character that is missing from the text is missing from its bytes.
-/

namespace StratumMiner.Utf8

variable {done : List Char} {rest : Bytes} {char : Char}

/-! ## First bytes -/

theorem lead_whole {code : Nat} (ascii : code < 0x80) :
    lead (UInt8.ofNat code) = .whole (Char.ofNat code) := by
  have small : UInt8.ofNat code < 0x80 := by
    rw [UInt8.lt_iff_toNat_lt, UInt8.toNat_ofNat']
    simp only [UInt8.reduceToNat]
    omega
  have same : (UInt8.ofNat code).toNat = code := by
    rw [UInt8.toNat_ofNat']
    omega
  rw [lead, if_pos small, same]

theorem lead_two {top : Nat} (low : 2 ≤ top) (high : top < 32) :
    lead (UInt8.ofNat (top + 0xc0)) = .begun ⟨top, 1, 0x80, 0xbf⟩ := by
  interval_cases top <;> rfl

/-- The bounds of the second byte of three. -/
def boundsOfThree (top : Nat) : UInt8 × UInt8 :=
  if top = 0 then (0xa0, 0xbf) else if top = 0xd then (0x80, 0x9f) else (0x80, 0xbf)

theorem lead_three {top : Nat} (high : top < 16) :
    lead (UInt8.ofNat (top + 0xe0)) =
      .begun ⟨top, 2, (boundsOfThree top).1, (boundsOfThree top).2⟩ := by
  interval_cases top <;> rfl

/-- Six more bits are in the bounds if the character is not too short for three bytes and no
surrogate. -/
theorem boundsOfThree_holds {top bits : Nat} (short : bits < 64) (long : top = 0 → 32 ≤ bits)
    (scalar : top = 0xd → bits < 32) :
    (boundsOfThree top).1.toNat ≤ bits + 0x80 ∧ bits + 0x80 ≤ (boundsOfThree top).2.toNat := by
  unfold boundsOfThree
  split_ifs with first middle
  · have bound := long first
    constructor <;> simp only [UInt8.reduceToNat] <;> omega
  · have bound := scalar middle
    constructor <;> simp only [UInt8.reduceToNat] <;> omega
  · constructor <;> simp only [UInt8.reduceToNat] <;> omega

/-- The bounds of the second byte of four. -/
def boundsOfFour (top : Nat) : UInt8 × UInt8 :=
  if top = 0 then (0x90, 0xbf) else if top = 4 then (0x80, 0x8f) else (0x80, 0xbf)

theorem lead_four {top : Nat} (high : top < 5) :
    lead (UInt8.ofNat (top + 0xf0)) =
      .begun ⟨top, 3, (boundsOfFour top).1, (boundsOfFour top).2⟩ := by
  interval_cases top <;> rfl

/-- Six more bits are in the bounds if the character is not too short for four bytes and not past
the last character. -/
theorem boundsOfFour_holds {top bits : Nat} (short : bits < 64) (long : top = 0 → 16 ≤ bits)
    (scalar : top = 4 → bits < 16) :
    (boundsOfFour top).1.toNat ≤ bits + 0x80 ∧ bits + 0x80 ≤ (boundsOfFour top).2.toNat := by
  unfold boundsOfFour
  split_ifs with first last
  · have bound := long first
    constructor <;> simp only [UInt8.reduceToNat] <;> omega
  · have bound := scalar last
    constructor <;> simp only [UInt8.reduceToNat] <;> omega
  · constructor <;> simp only [UInt8.reduceToNat] <;> omega

/-! ## Further bytes -/

/-- Any six bits are in the bounds of a byte that is not the second. -/
theorem tail_holds {bits : Nat} (short : bits < 64) :
    (0x80 : UInt8).toNat ≤ bits + 0x80 ∧ bits + 0x80 ≤ (0xbf : UInt8).toNat := by
  constructor <;> simp only [UInt8.reduceToNat] <;> omega

theorem decodeOnto_inside {bits missing more : Nat} {low high : UInt8}
    (holds : low.toNat ≤ more + 0x80 ∧ more + 0x80 ≤ high.toNat) :
    decodeOnto done (some ⟨bits, missing, low, high⟩) (UInt8.ofNat (more + 0x80) :: rest) =
      if missing ≤ 1 then decodeOnto (Char.ofNat (bits * 64 + more) :: done) none rest
      else decodeOnto done (some ⟨bits * 64 + more, missing - 1, 0x80, 0xbf⟩) rest := by
  have bound := high.toNat_lt
  have same : (UInt8.ofNat (more + 0x80)).toNat = more + 0x80 := by
    rw [UInt8.toNat_ofNat']
    omega
  have inside : low ≤ UInt8.ofNat (more + 0x80) ∧ UInt8.ofNat (more + 0x80) ≤ high := by
    rw [UInt8.le_iff_toNat_le, UInt8.le_iff_toNat_le, same]
    exact holds
  rw [decodeOnto, if_pos inside, same, Nat.add_sub_cancel]

/-- A byte in the bounds adds six bits to a character that goes on. -/
theorem decodeOnto_more {bits missing more : Nat} {low high : UInt8}
    (holds : low.toNat ≤ more + 0x80 ∧ more + 0x80 ≤ high.toNat) :
    decodeOnto done (some ⟨bits, missing + 2, low, high⟩) (UInt8.ofNat (more + 0x80) :: rest) =
      decodeOnto done (some ⟨bits * 64 + more, missing + 1, 0x80, 0xbf⟩) rest := by
  rw [decodeOnto_inside holds, if_neg (by omega)]
  rfl

/-- The last six bits of a character. -/
theorem decodeOnto_last {bits more : Nat} (short : more < 64) :
    decodeOnto done (some ⟨bits, 1, 0x80, 0xbf⟩) (UInt8.ofNat (more + 0x80) :: rest) =
      decodeOnto (Char.ofNat (bits * 64 + more) :: done) none rest := by
  rw [decodeOnto_inside (tail_holds short), if_pos (le_refl 1)]

theorem decodeOnto_begun {byte : UInt8} {next : Partial} (begins : lead byte = .begun next) :
    decodeOnto done none (byte :: rest) = decodeOnto done (some next) rest := by
  rw [decodeOnto, begins]

/-! ## Characters and texts -/

/-- The bytes of a character decode to that character. -/
theorem decodeOnto_encodeChar (char : Char) :
    decodeOnto done none (String.utf8EncodeChar char ++ rest) =
      decodeOnto (char :: done) none rest := by
  have whole : Char.ofNat char.val.toNat = char := Char.ofNat_toNat char
  have valid : char.val.toNat < 0xd800 ∨ 0xdfff < char.val.toNat ∧ char.val.toNat < 0x110000 :=
    char.valid
  unfold String.utf8EncodeChar
  generalize char.val.toNat = code at whole valid ⊢
  dsimp only
  split_ifs with one two three
  · rw [List.singleton_append, decodeOnto, lead_whole (by omega), whole]
  · have joined : code / 64 % 32 * 64 + code % 64 = code := by omega
    simp only [List.cons_append, List.nil_append]
    rw [decodeOnto_begun (lead_two (by omega) (by omega)), decodeOnto_last (by omega), joined,
      whole]
  · have joined : (code / 4096 % 16 * 64 + code / 64 % 64) * 64 + code % 64 = code := by omega
    have bounds := @boundsOfThree_holds (code / 4096 % 16) (code / 64 % 64) (by omega) (by omega)
      (by omega)
    simp only [List.cons_append, List.nil_append]
    rw [decodeOnto_begun (lead_three (by omega)), decodeOnto_more bounds,
      decodeOnto_last (by omega), joined, whole]
  · have joined : ((code / 262144 % 8 * 64 + code / 4096 % 64) * 64 + code / 64 % 64) * 64 +
        code % 64 = code := by omega
    have bounds := @boundsOfFour_holds (code / 262144 % 8) (code / 4096 % 64) (by omega) (by omega)
      (by omega)
    simp only [List.cons_append, List.nil_append]
    rw [decodeOnto_begun (lead_four (by omega)), decodeOnto_more bounds,
      decodeOnto_more (tail_holds (by omega)), decodeOnto_last (by omega), joined, whole]

theorem decodeOnto_flatMap (chars : List Char) :
    decodeOnto done none (chars.flatMap String.utf8EncodeChar) = done.reverse ++ chars := by
  induction chars generalizing done with
  | nil => simp [decodeOnto]
  | cons char chars ih =>
      rw [List.flatMap_cons, decodeOnto_encodeChar, ih]
      simp

/-- The bytes of a text decode to that text. -/
theorem decode_encode (text : String) : decode (encode text) = text := by
  rw [decode, decodeChars, encode, decodeOnto_flatMap]
  simp

/-- A byte below 128 is in the bytes of a character only if it is the character. -/
theorem eq_of_mem_encodeChar {byte : UInt8} (ascii : byte.toNat < 0x80)
    (member : byte ∈ String.utf8EncodeChar char) : char.toNat = byte.toNat := by
  have code : char.toNat = char.val.toNat := rfl
  unfold String.utf8EncodeChar at member
  dsimp only at member
  split_ifs at member with one two three
  · rw [List.mem_singleton.mp member, UInt8.toNat_ofNat', code]
    omega
  all_goals
    -- All bytes of a longer character are at least 128.
    exfalso
    simp only [List.mem_cons, List.not_mem_nil, or_false] at member
    rcases member with rfl | rfl | rfl | rfl <;> rw [UInt8.toNat_ofNat'] at ascii <;> omega

/-- The bytes of a text without control characters have no byte of a control character. -/
theorem le_of_mem_encode {text : String} (visible : ∀ char ∈ text.toList, 32 ≤ char.toNat)
    {byte : UInt8} (member : byte ∈ encode text) : 32 ≤ byte.toNat := by
  obtain ⟨char, inside, its⟩ := List.mem_flatMap.mp member
  by_cases ascii : byte.toNat < 0x80
  · rw [← eq_of_mem_encodeChar ascii its]
    exact visible char inside
  · omega

end StratumMiner.Utf8
