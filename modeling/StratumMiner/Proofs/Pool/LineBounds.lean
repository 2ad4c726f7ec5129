import Mathlib
import StratumMiner.Pool.Fault
import StratumMiner.Proofs.Pool.Fragments

/-!
# The line decoder keeps to its buffer

Bytes can be taken and dropped from a list in any number, so the decoder's definition alone does
not tell whether it stays inside its buffer.  Here the rounds of its loop are written with checks: a
slice must begin before it ends and end inside the buffer, no more bytes may be dropped than there
are, and a length one above the cap stops at the largest that the machine counts to.  A round may
also report a fault.  In every state that feeding, writing and decoding lead to, all checks pass,
the loop ends, and the call comes to what the decoder gives, without a fault.
-/

namespace StratumMiner.LineDecoder

/-! ## Rounds with checks -/

/-- The bytes of a buffer between two places, if these are places of the buffer in order. -/
def slice? (buffer : Bytes) (start stop : Nat) : Option Bytes :=
  if start ≤ stop ∧ stop ≤ buffer.length then some ((buffer.take stop).drop start) else none

/-- The first bytes of a buffer and the others, if there are as many. -/
def splitAt? (buffer : Bytes) (count : Nat) : Option (Bytes × Bytes) :=
  if count ≤ buffer.length then some (buffer.splitAt count) else none

/-- What a round comes to. -/
inductive Round where
  /-- The loop goes round again. -/
  | again (decoder : LineDecoder)
  /-- The call is over. -/
  | done (result : Except PoolFault (Option String)) (decoder : LineDecoder)

/-- The end of the bytes that are searched for a newline; a machine that counts to `largest` cannot
look further. -/
def windowEnd (largest : Nat) (decoder : LineDecoder) : Nat :=
  min decoder.buffer.length (min (decoder.maxLength + 1) largest)

/-- One round of the loop, if it names no place outside of the buffer.  A place of the buffer is also
a number that the machine counts to, so no sum of places wraps around. -/
def round? (largest : Nat) (decoder : LineDecoder) : Option Round := do
  let window ← slice? decoder.buffer decoder.scanned (decoder.windowEnd largest)
  match decoder.discarding, window.findIdx? (· == newline) with
  | true, some offset =>
      let (_, rest) ← splitAt? decoder.buffer (decoder.scanned + offset + 1)
      return .again { decoder with buffer := rest, discarding := false, scanned := 0 }
  | true, none =>
      let (_, rest) ← splitAt? decoder.buffer (decoder.windowEnd largest)
      let after := { decoder with buffer := rest, scanned := 0 }
      return if rest.isEmpty then .done (.ok none) after else .again after
  | false, some offset =>
      let (ended, rest) ← splitAt? decoder.buffer (decoder.scanned + offset + 1)
      let line ← slice? ended 0 (decoder.scanned + offset)
      return .done (.ok (some (Line.text line))) { decoder with buffer := rest, scanned := 0 }
  | false, none =>
      if decoder.maxLength < decoder.buffer.length then
        return .again { decoder with discarding := true, overlong := decoder.overlong + 1 }
      else return .done (.ok none) { decoder with scanned := decoder.windowEnd largest }

/-- What a call comes to and the decoder behind it, if no round names a place outside of the buffer
and the loop ends within so many rounds. -/
def decode? (largest : Nat) : (rounds : Nat) → LineDecoder →
    Option (Except PoolFault (Option String) × LineDecoder)
  | 0, _ => none
  | rounds + 1, decoder =>
      match decoder.round? largest with
      | none => none
      | some (.again after) => decode? largest rounds after
      | some (.done result after) => some (result, after)

/-- The same for a call when no more bytes will come. -/
def decodeEnd? (largest rounds : Nat) (decoder : LineDecoder) :
    Option (Except PoolFault (Option String) × LineDecoder) :=
  match decoder.decode? largest rounds with
  | some (.ok none, after) =>
      if after.discarding || after.buffer.isEmpty then
        some (.ok none, { after with buffer := [], scanned := 0, discarding := false })
      else
        some (.ok (some (Line.text after.buffer)), { after with buffer := [], scanned := 0 })
  | other => other

/-! ## The checks pass -/

theorem newlineWithin_eq_findIdx? (index window : Nat) (bytes : Bytes) :
    newlineWithin index window bytes =
      ((bytes.take window).findIdx? (· == newline)).map (index + ·) := by
  fun_induction newlineWithin index window bytes with
  | case1 => simp
  | case2 => simp
  | case3 index window rest => simp [List.findIdx?_cons]
  | case4 index window byte rest inside ih =>
      simp [List.findIdx?_cons, inside, ih, Function.comp_def, Nat.add_right_comm, Nat.add_assoc]

variable {decoder : LineDecoder} {largest : Nat}

section Round

variable (wellFormed : decoder.WellFormed) (fits : decoder.buffer.length ≤ largest)

include fits in
/-- No buffer is so long that the largest number makes a difference. -/
theorem windowEnd_eq :
    decoder.windowEnd largest = min decoder.buffer.length (decoder.maxLength + 1) := by
  unfold windowEnd
  omega

include wellFormed fits in
theorem slice?_window :
    slice? decoder.buffer decoder.scanned (decoder.windowEnd largest) =
      some ((decoder.buffer.drop decoder.scanned).take
        (decoder.maxLength + 1 - decoder.scanned)) := by
  have inBuffer := wellFormed.inBuffer
  have inWindow := wellFormed.inWindow
  rw [windowEnd_eq fits, slice?, if_pos (by omega), Nat.min_comm, ← List.take_take,
    List.take_length, List.drop_take]

include wellFormed fits in
/-- A newline that is found ends the line in front of it, or the skipping. -/
theorem round?_of_found {position : Nat} (found : decoder.newline? = some position) :
    decoder.round? largest = some
      (if decoder.discarding then
        .again { decoder with
          buffer := decoder.buffer.drop (position + 1), discarding := false, scanned := 0 }
      else
        .done (.ok (some (Line.text (decoder.buffer.take position))))
          { decoder with buffer := decoder.buffer.drop (position + 1), scanned := 0 }) := by
  have inside : position + 1 ≤ decoder.buffer.length := newline?_lt found
  rw [newline?, newlineWithin_eq_findIdx?, Option.map_eq_some_iff] at found
  obtain ⟨offset, found, rfl⟩ := found
  have split : splitAt? decoder.buffer (decoder.scanned + offset + 1) =
      some (decoder.buffer.splitAt (decoder.scanned + offset + 1)) := if_pos inside
  have line : slice? (decoder.buffer.take (decoder.scanned + offset + 1)) 0
      (decoder.scanned + offset) = some (decoder.buffer.take (decoder.scanned + offset)) := by
    rw [slice?, if_pos (by simp; omega), List.take_take]
    simp
  cases skipping : decoder.discarding with
  | true => simp [round?, slice?_window wellFormed fits, found, skipping, split]
  | false => simp [round?, slice?_window wellFormed fits, found, skipping, split, line]

include wellFormed fits in
/-- Without a newline the window is thrown away while skipping; else skipping begins when the line
is too long. -/
theorem round?_of_missed (missed : decoder.newline? = none) :
    decoder.round? largest = some
      (if decoder.discarding then
        if isLonger decoder.buffer (decoder.maxLength + 1) then
          .again { decoder with
            buffer := decoder.buffer.drop (decoder.maxLength + 1), scanned := 0 }
        else .done (.ok none) { decoder with buffer := [], scanned := 0 }
      else if isLonger decoder.buffer decoder.maxLength then
        .again { decoder with discarding := true, overlong := decoder.overlong + 1 }
      else .done (.ok none) { decoder with scanned := decoder.buffer.length }) := by
  have slice := slice?_window wellFormed fits
  have stop := windowEnd_eq fits
  have split : splitAt? decoder.buffer (decoder.windowEnd largest) =
      some (decoder.buffer.splitAt (decoder.windowEnd largest)) := if_pos (by omega)
  rw [newline?, newlineWithin_eq_findIdx?, Option.map_eq_none_iff] at missed
  cases skipping : decoder.discarding with
  | true =>
      by_cases long : decoder.maxLength + 1 < decoder.buffer.length
      · rw [Nat.min_eq_right long.le] at stop
        rw [stop] at slice split
        simp [round?, slice, missed, skipping, split, isLonger_iff, long, stop]
      · rw [Nat.min_eq_left (Nat.not_lt.mp long)] at stop
        rw [stop] at slice split
        simp [round?, slice, missed, skipping, split, isLonger_iff, long, stop]
  | false =>
      by_cases long : decoder.maxLength < decoder.buffer.length
      · simp [round?, slice, missed, skipping, isLonger_iff, long]
      · rw [Nat.min_eq_left (Nat.le_succ_of_le (Nat.not_lt.mp long))] at stop
        rw [stop] at slice
        simp [round?, slice, missed, skipping, isLonger_iff, long, stop]

end Round

/-- What is left for the rounds to do.  A round that begins to skip takes no byte off the buffer, so
the length of the buffer alone does not tell. -/
def effort (decoder : LineDecoder) : Nat :=
  2 * decoder.buffer.length + if decoder.discarding then 0 else 1

section Call

variable {rounds : Nat} {after : LineDecoder} {result : Except PoolFault (Option String)}

/-- A round that ends the call. -/
theorem decode?_of_done (round : decoder.round? largest = some (.done result after))
    (enough : decoder.effort < rounds) :
    decoder.decode? largest rounds = some (result, after) := by
  cases rounds with
  | zero => exact absurd enough (Nat.not_lt_zero _)
  | succ rounds => rw [decode?, round]

/-- A round behind which less is left to do. -/
theorem decode?_of_again {middle : LineDecoder}
    (round : decoder.round? largest = some (.again middle)) (less : middle.effort < decoder.effort)
    (others : ∀ rounds, middle.effort < rounds →
      middle.decode? largest rounds = some (result, after))
    (enough : decoder.effort < rounds) :
    decoder.decode? largest rounds = some (result, after) := by
  cases rounds with
  | zero => exact absurd enough (Nat.not_lt_zero _)
  | succ rounds =>
      rw [decode?, round]
      exact others rounds (Nat.lt_of_lt_of_le less (Nat.le_of_lt_succ enough))

end Call

/-- All checks of a call pass, and its loop ends as soon as nothing is left to do. -/
theorem decode?_eq (wellFormed : decoder.WellFormed) (fits : decoder.buffer.length ≤ largest)
    {rounds : Nat} (enough : decoder.effort < rounds) :
    decoder.decode? largest rounds = some (.ok decoder.decode.1, decoder.decode.2) := by
  -- The induction is on the rounds of the decoder's own loop.  The first, third and fifth case go
  -- round again, and only the fifth keeps the bytes that have been searched.
  fun_induction decode decoder generalizing rounds with
  | case1 decoder position found skipping ih =>
      have inside := newline?_lt found
      have round := round?_of_found wellFormed fits found
      rw [if_pos skipping] at round
      apply decode?_of_again round
      · simp only [effort, skipping, if_true, List.length_drop]
        simp
        omega
      · intro rounds enough
        exact ih (wellFormed_of_scanned_eq_zero rfl) (by simp; omega) enough
      · exact enough
  | case2 decoder position found keeping =>
      have round := round?_of_found wellFormed fits found
      rw [if_neg keeping] at round
      exact decode?_of_done round enough
  | case3 decoder missed skipping long ih =>
      have round := round?_of_missed wellFormed fits missed
      rw [if_pos skipping, if_pos long] at round
      rw [isLonger_iff] at long
      apply decode?_of_again round
      · simp only [effort, skipping, if_true, List.length_drop]
        omega
      · intro rounds enough
        exact ih (wellFormed_of_scanned_eq_zero rfl) (by simp; omega) enough
      · exact enough
  | case4 decoder missed skipping notLong =>
      have round := round?_of_missed wellFormed fits missed
      rw [if_pos skipping, if_neg notLong] at round
      exact decode?_of_done round enough
  | case5 decoder missed keeping long ih =>
      have round := round?_of_missed wellFormed fits missed
      rw [if_neg keeping, if_pos long] at round
      apply decode?_of_again round
      · simp only [effort, if_neg keeping, if_true]
        omega
      · intro rounds enough
        exact ih ⟨wellFormed.inBuffer, wellFormed.inWindow, wellFormed.clear⟩ fits enough
      · exact enough
  | case6 decoder missed keeping notLong =>
      have round := round?_of_missed wellFormed fits missed
      rw [if_neg keeping, if_neg notLong] at round
      exact decode?_of_done round enough

/-- The same at the end of the stream, where the call adds nothing that could fail. -/
theorem decodeEnd?_eq (wellFormed : decoder.WellFormed) (fits : decoder.buffer.length ≤ largest)
    {rounds : Nat} (enough : decoder.effort < rounds) :
    decoder.decodeEnd? largest rounds = some (.ok decoder.decodeEnd.1, decoder.decodeEnd.2) := by
  rw [decodeEnd?, decode?_eq wellFormed fits enough, decodeEnd]
  rcases decoder.decode with ⟨line?, after⟩
  cases line? with
  | none =>
      simp only
      split <;> rfl
  | some line => rfl

/-! ## The states that calls lead to -/

/-- What happens to a decoder. -/
inductive Operation where
  /-- Bytes come in. -/
  | feed (bytes : Bytes)
  /-- A text is written to the buffer. -/
  | encode (text : String)
  /-- A line is asked for. -/
  | decode
  /-- A line is asked for, and no more bytes will come. -/
  | decodeEnd
  deriving Repr, DecidableEq

/-- The decoder behind an operation. -/
def operate (decoder : LineDecoder) : Operation → LineDecoder
  | .feed bytes => decoder.append bytes
  | .encode text => decoder.encode text
  | .decode => decoder.decode.2
  | .decodeEnd => decoder.decodeEnd.2

/-- Some operations on a new decoder lead to this state. -/
def Reached (maxLength : Nat) (decoder : LineDecoder) : Prop :=
  ∃ operations : List Operation, operations.foldl operate (empty maxLength) = decoder

theorem WellFormed.operate (wellFormed : decoder.WellFormed) (operation : Operation) :
    (decoder.operate operation).WellFormed := by
  cases operation with
  | feed bytes => exact wellFormed.append bytes
  | encode text => exact wellFormed.append _
  | decode =>
      have decoded := decode_decoded wellFormed
      rw [LineDecoder.operate]
      generalize decoder.decode = outcome at decoded
      cases decoded with
      | line afterWellFormed => exact afterWellFormed
      | resting afterWellFormed => exact afterWellFormed
  | decodeEnd =>
      have ended := decodeEnd_ended wellFormed
      rw [LineDecoder.operate]
      generalize decoder.decodeEnd = outcome at ended
      cases ended with
      | line afterWellFormed => exact afterWellFormed
      | finished afterWellFormed => exact afterWellFormed

theorem operate_maxLength (decoder : LineDecoder) (operation : Operation) :
    (decoder.operate operation).maxLength = decoder.maxLength := by
  cases operation with
  | feed bytes => rfl
  | encode text => rfl
  | decode => exact decoder.decode_maxLength
  | decodeEnd => exact decoder.decodeEnd_maxLength

theorem Reached.wellFormed {maxLength : Nat} (reached : Reached maxLength decoder) :
    decoder.WellFormed ∧ decoder.maxLength = maxLength := by
  obtain ⟨operations, rfl⟩ := reached
  induction operations using List.reverseRecOn with
  | nil => exact ⟨wellFormed_of_scanned_eq_zero rfl, rfl⟩
  | append_singleton operations operation ih =>
      rw [List.foldl_append]
      exact ⟨ih.1.operate operation, (operate_maxLength _ operation).trans ih.2⟩

/-- In every state that operations lead to, the bytes known to hold no newline lie in the buffer and
in the window, and on a machine that counts as far as the buffer is long, both calls end within a
bounded number of rounds, name no place outside of the buffer and report no fault.  A call without a
line leaves no more than the cap in the buffer, and nothing of a line that is skipped.  At the end
of the stream it leaves nothing, and skips no longer. -/
theorem calls_keep_to_buffer {maxLength : Nat} (reached : Reached maxLength decoder) :
    decoder.scanned ≤ min decoder.buffer.length (maxLength + 1) ∧
      (∀ largest rounds, decoder.buffer.length ≤ largest →
        2 * decoder.buffer.length + 2 ≤ rounds →
          decoder.decode? largest rounds = some (.ok decoder.decode.1, decoder.decode.2) ∧
          decoder.decodeEnd? largest rounds =
            some (.ok decoder.decodeEnd.1, decoder.decodeEnd.2)) ∧
      (decoder.decode.1 = none → decoder.decode.2.buffer.length ≤ maxLength ∧
        (decoder.decode.2.discarding = true → decoder.decode.2.buffer = [])) ∧
      (decoder.decodeEnd.1 = none →
        decoder.decodeEnd.2.buffer = [] ∧ decoder.decodeEnd.2.discarding = false) := by
  obtain ⟨wellFormed, rfl⟩ := reached.wellFormed
  refine ⟨?_, ?_, ?_, ?_⟩
  · exact Nat.le_min.mpr ⟨wellFormed.inBuffer, wellFormed.inWindow⟩
  · intro largest rounds fits enough
    have enough : decoder.effort < rounds := by
      unfold effort
      split <;> omega
    exact ⟨decode?_eq wellFormed fits enough, decodeEnd?_eq wellFormed fits enough⟩
  · intro noLine
    have decoded := decode_decoded wellFormed
    have same := decoder.decode_maxLength
    generalize decoder.decode = outcome at decoded noLine same ⊢
    cases decoded with
    | line => cases noLine
    | resting afterWellFormed remaining notLonger resting =>
        exact ⟨same ▸ resting.short, resting.skipped⟩
  · intro noLine
    have ended := decodeEnd_ended wellFormed
    generalize decoder.decodeEnd = outcome at ended noLine ⊢
    cases ended with
    | line => cases noLine
    | finished afterWellFormed remaining buffer keeping => exact ⟨buffer, keeping⟩

/-- The front of a line that is too long has been thrown away; its end and the beginning of the
next line are in the buffer. -/
def halfSkipped : LineDecoder :=
  { maxLength := 3, buffer := [102, 10, 103, 104], scanned := 0, discarding := true, overlong := 1 }

/-- Asked for a line, the decoder goes round twice and waits for the end of the next line, and at
the end of the stream that line is given. -/
theorem calls_keep_to_buffer_halfSkipped :
    Reached 3 halfSkipped ∧
      halfSkipped.decode? (2 ^ 64 - 1) 10 =
        some (.ok none, { halfSkipped with
          buffer := [103, 104], scanned := 2, discarding := false }) ∧
      halfSkipped.decodeEnd? (2 ^ 64 - 1) 10 =
        some (.ok (some "gh"), { halfSkipped with
          buffer := [], scanned := 0, discarding := false }) ∧
      halfSkipped.decode.2.buffer.length ≤ 3 := by
  have reached : Reached 3 halfSkipped :=
    ⟨[.feed [97, 98, 99, 100, 101], .decode, .encode "f", .feed [103, 104]], by decide +kernel⟩
  have fits : halfSkipped.buffer.length ≤ 2 ^ 64 - 1 := by decide
  have decoded : halfSkipped.decode = (none, { halfSkipped with
      buffer := [103, 104], scanned := 2, discarding := false }) := by decide +kernel
  have ended : halfSkipped.decodeEnd = (some "gh", { halfSkipped with
      buffer := [], scanned := 0, discarding := false }) := by decide +kernel
  obtain ⟨-, calls, rests, -⟩ := calls_keep_to_buffer reached
  obtain ⟨call, callEnd⟩ := calls (2 ^ 64 - 1) 10 fits (by decide)
  rw [decoded] at call
  rw [ended] at callEnd
  exact ⟨reached, call, callEnd, (rests (congrArg Prod.fst decoded)).1⟩

end StratumMiner.LineDecoder
