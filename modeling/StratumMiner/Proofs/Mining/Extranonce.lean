import Mathlib
import StratumMiner.Mining.Extranonce
import StratumMiner.Proofs.Bytes
import StratumMiner.Proofs.Text.HexReading

/-!
# Counting with the second extranonce

The following value is one more, and zero comes after the largest that the bytes have room for.  The
bytes tell the value.  So as many values in a row as there are byte strings of the size go through
all of these, each once.  A word of 64 bits holds every value, also the largest of eight bytes, and
no step to the next one wraps it around.
-/

namespace StratumMiner.Extranonce2

@[simp] theorem size_next (counter : Extranonce2) : counter.next.size = counter.size := by
  unfold next
  split <;> rfl

/-- Counting wraps around at the number of values that the bytes have room for. -/
theorem value_next (counter : Extranonce2) :
    counter.next.value = (counter.value + 1) % 256 ^ counter.size := by
  have room : counter.value + 1 ≤ 256 ^ counter.size := counter.fits
  unfold next
  split
  · next fits => exact (Nat.mod_eq_of_lt fits).symm
  · next full =>
      have last : counter.value + 1 = 256 ^ counter.size :=
        Nat.le_antisymm room (Nat.not_lt.mp full)
      rw [last, Nat.mod_self]

theorem toNatLE_toBytes (counter : Extranonce2) :
    Bytes.toNatLE counter.toBytes = counter.value := by
  rw [toBytes, Bytes.toNatLE_ofNatLE]
  exact Nat.mod_eq_of_lt counter.fits

/-- Different values are written differently. -/
theorem toBytes_ne {counter other : Extranonce2} (different : counter.value ≠ other.value) :
    counter.toBytes ≠ other.toBytes := by
  intro same
  apply different
  rw [← toNatLE_toBytes counter, same, toNatLE_toBytes]

theorem length_toBytes (counter : Extranonce2) : counter.toBytes.length = counter.size :=
  Bytes.length_ofNatLE counter.size counter.value

/-! ## Making a counter -/

theorem make_eq_ok {value size : Nat} {counter : Extranonce2}
    (made : make value size = .ok counter) : counter.value = value ∧ counter.size = size := by
  unfold make at made
  split_ifs at made
  cases made
  exact ⟨rfl, rfl⟩

/-- Every counter can be made from its value and its size. -/
theorem make_value_size (counter : Extranonce2) :
    make counter.value counter.size = .ok counter := by
  rw [make, dif_pos counter.sizeValid, dif_pos counter.fits]

/-! ## Counting on -/

theorem size_iterate_next (counter : Extranonce2) (steps : Nat) :
    (next^[steps] counter).size = counter.size := by
  induction steps with
  | zero => rfl
  | succ steps ih => rw [Function.iterate_succ_apply', size_next, ih]

theorem value_iterate_next (counter : Extranonce2) (steps : Nat) :
    (next^[steps] counter).value = (counter.value + steps) % 256 ^ counter.size := by
  induction steps with
  | zero => exact (Nat.mod_eq_of_lt counter.fits).symm
  | succ steps ih =>
      rw [Function.iterate_succ_apply', value_next, size_iterate_next, ih, Nat.mod_add_mod,
        Nat.add_assoc]

/-- As many steps as there are byte strings of the size go through all of them, each once, whatever
the first of these steps is. -/
theorem bijOn_toBytes (counter : Extranonce2) (first : Nat) :
    Set.BijOn (fun steps => (next^[steps] counter).toBytes)
      (Set.Ico first (first + 256 ^ counter.size)) {bytes | bytes.length = counter.size} := by
  have window (steps : Nat) (inside : steps ∈ Set.Ico first (first + 256 ^ counter.size)) :
      counter.value + steps ∈ Finset.Ico (counter.value + first)
        (counter.value + first + 256 ^ counter.size) := by
    rw [Set.mem_Ico] at inside
    rw [Finset.mem_Ico]
    omega
  refine ⟨?_, ?_, ?_⟩
  · intro steps _
    exact (length_toBytes _).trans (size_iterate_next counter steps)
  · intro steps inside other otherInside same
    have values := congrArg Bytes.toNatLE same
    simp only [toNatLE_toBytes, value_iterate_next] at values
    exact Nat.add_left_cancel
      (Nat.mod_injOn_Ico _ _ (window steps inside) (window other otherInside) values)
  · intro bytes sized
    -- The number that the bytes spell is the rest of exactly one number of the window.
    have value : Bytes.toNatLE bytes ∈ Finset.range (256 ^ counter.size) :=
      Finset.mem_range.mpr (sized ▸ Bytes.toNatLE_lt bytes)
    rw [← Nat.image_Ico_mod (counter.value + first), Finset.mem_image] at value
    obtain ⟨number, inside, rest⟩ := value
    rw [Finset.mem_Ico] at inside
    refine ⟨number - counter.value, ?_, ?_⟩
    · rw [Set.mem_Ico]
      omega
    · have number_eq : counter.value + (number - counter.value) = number := by omega
      simp only [toBytes, value_iterate_next, size_iterate_next, number_eq, rest]
      rw [← sized]
      exact Bytes.ofNatLE_toNatLE bytes

/-! ## In words

A value is a word of 64 bits and a size is one of 8.  Each step is checked here for what it could
lose. -/

/-- The largest value that so many bytes have room for.  Below eight bytes it is one less than a
power of two, if neither the amount of the shift nor the shift itself wraps around, and there is
something to take one from. -/
def largestWord? (size : UInt8) : Option UInt64 :=
  let power : UInt64 := 1 <<< (size * 8).toUInt64
  if 8 ≤ size then some 0xffffffffffffffff
  else if size.toNat * 8 < UInt8.size ∧ (size * 8).toNat < 64 ∧ 1 ≤ power then some (power - 1)
  else none

/-- The following value, if one more than the value does not wrap around. -/
def nextWord? (size : UInt8) (value : UInt64) : Option UInt64 := do
  let largest ← largestWord? size
  if value = largest then some 0
  else if value.toNat + 1 < UInt64.size then some (value + 1)
  else none

/-- The value a number of steps later, if no step loses anything. -/
def countWords? (size : UInt8) (value : UInt64) : (steps : Nat) → Option UInt64
  | 0 => some value
  | steps + 1 => do nextWord? size (← countWords? size value steps)

section Words

variable {counter : Extranonce2} {size : UInt8} {value : UInt64}

theorem largestWord?_add_one : ∀ index : Fin 8,
    (largestWord? (.ofNat (index + 1))).map (fun largest => largest.toNat + 1) =
      some (256 ^ (index.val + 1)) := by
  decide

/-- The largest value is one less than the number of values, for each size that a counter has. -/
theorem largestWord?_eq (isSize : size.toNat = counter.size) :
    ∃ largest, largestWord? size = some largest ∧ largest.toNat + 1 = 256 ^ counter.size := by
  have valid := counter.sizeValid
  rw [← isSize] at valid ⊢
  have index : size.toNat - 1 + 1 = size.toNat := Nat.sub_add_cancel valid.1
  have known := largestWord?_add_one ⟨size.toNat - 1, by omega⟩
  rw [index, UInt8.ofNat_toNat] at known
  exact Option.map_eq_some_iff.mp known

/-- A step in words is a step of the counter. -/
theorem nextWord?_eq (isSize : size.toNat = counter.size) (isValue : value.toNat = counter.value) :
    ∃ following, nextWord? size value = some following ∧
      following.toNat = counter.next.value := by
  obtain ⟨largest, known, count⟩ := largestWord?_eq isSize
  have fits : value.toNat + 1 ≤ 256 ^ counter.size := isValue ▸ counter.fits
  rw [value_next, ← isValue]
  simp only [nextWord?, known, Option.bind_eq_bind, Option.bind_some]
  by_cases last : value = largest
  · refine ⟨0, if_pos last, ?_⟩
    rw [last, count, Nat.mod_self]
    rfl
  · have inside : value.toNat + 1 < 256 ^ counter.size := by
      have different : value.toNat ≠ largest.toNat := mt UInt64.toNat_inj.mp last
      omega
    have room : value.toNat + 1 < UInt64.size := by
      have small := largest.toNat_lt
      rw [← count] at inside
      exact Nat.lt_of_lt_of_le inside small
    refine ⟨value + 1, (if_neg last).trans (if_pos room), ?_⟩
    rw [UInt64.toNat_add, Nat.mod_eq_of_lt inside]
    exact Nat.mod_eq_of_lt room

/-- No number of steps loses anything. -/
theorem countWords?_eq (isSize : size.toNat = counter.size) (isValue : value.toNat = counter.value)
    (steps : Nat) :
    ∃ reached, countWords? size value steps = some reached ∧
      reached.toNat = (next^[steps] counter).value := by
  induction steps with
  | zero => exact ⟨value, rfl, isValue⟩
  | succ steps ih =>
      obtain ⟨reached, counted, isReached⟩ := ih
      have sameSize := isSize.trans (size_iterate_next counter steps).symm
      rw [Function.iterate_succ_apply', countWords?, counted]
      exact nextWord?_eq sameSize isReached

end Words

/-- A counter made from a value and a size comes, after any number of steps, to the value that is so
much more, up to a multiple of the number of values that the bytes have room for.  Counted in words
it is the same value, and nothing is lost on the way.  The counter reached could have been made
directly, and its bytes, as many as the size says, spell its value.  From any step on, as many steps
as there are values go through all byte strings of that size, each once, and no two of them are
written with the same digits. -/
theorem counts_through_all_values {value : UInt64} {size : UInt8} {counter : Extranonce2}
    (made : make value.toNat size.toNat = .ok counter) :
    (∀ steps,
      (next^[steps] counter).value = (value.toNat + steps) % 256 ^ size.toNat ∧
      (next^[steps] counter).size = size.toNat ∧
      (countWords? size value steps).map UInt64.toNat = some (next^[steps] counter).value ∧
      make (next^[steps] counter).value size.toNat = .ok (next^[steps] counter) ∧
      (next^[steps] counter).toBytes.length = size.toNat ∧
      Bytes.toNatLE (next^[steps] counter).toBytes = (next^[steps] counter).value) ∧
    ∀ first,
      Set.BijOn (fun steps => (next^[steps] counter).toBytes)
        (Set.Ico first (first + 256 ^ size.toNat)) {bytes | bytes.length = size.toNat} ∧
      Set.InjOn (fun steps => (next^[steps] counter).display)
        (Set.Ico first (first + 256 ^ size.toNat)) := by
  obtain ⟨isValue, isSize⟩ := make_eq_ok made
  constructor
  · intro steps
    have sized := size_iterate_next counter steps
    obtain ⟨reached, counted, isReached⟩ := countWords?_eq isSize.symm isValue.symm steps
    refine ⟨?_, sized.trans isSize, ?_, ?_, ?_, toNatLE_toBytes _⟩
    · rw [value_iterate_next, isValue, isSize]
    · rw [counted, Option.map_some, isReached]
    · rw [← isSize, ← sized]
      exact make_value_size _
    · rw [length_toBytes, sized, isSize]
  · intro first
    have through := counter.bijOn_toBytes first
    rw [isSize] at through
    constructor
    · exact through
    · exact HexReading.encode_injective.comp_injOn through.injOn

/-- The largest value of eight bytes. -/
def lastOfEight : Extranonce2 :=
  ⟨18446744073709551615, 8, by decide, by decide⟩

/-- Zero comes behind the largest value of a whole word, and then one. -/
theorem counts_through_all_values_largest :
    make (0xffffffffffffffff : UInt64).toNat (8 : UInt8).toNat = .ok lastOfEight ∧
      (next^[2] lastOfEight).value = 1 ∧
      (countWords? 8 0xffffffffffffffff 2).map UInt64.toNat = some 1 ∧
      lastOfEight.display ≠ (next^[2] lastOfEight).display := by
  have made : make (0xffffffffffffffff : UInt64).toNat (8 : UInt8).toNat = .ok lastOfEight := by
    decide
  obtain ⟨reached, through⟩ := counts_through_all_values made
  obtain ⟨value, -, counted, -⟩ := reached 2
  have one : (next^[2] lastOfEight).value = 1 := value
  refine ⟨made, one, one ▸ counted, ?_⟩
  intro same
  have steps : 0 = 2 := (through 0).2 (by decide) (by decide) same
  exact absurd steps (by decide)

end StratumMiner.Extranonce2
