import Mathlib
import StratumMiner.Proofs.Pool.Line

/-!
# Decoding lines bit by bit

Bytes come in fragments and lines are asked for at any time, so a decoder may stop anywhere in a
line, long or not, and go on from there.  What it still owes is written as `remaining`: the lines of
its buffer with all bytes to come behind it, less the line that it is skipping.  Each call of
`decode` takes the line that it gives off the front of that list and leaves the rest alone.
-/

namespace StratumMiner

namespace LineDecoder

/-- What a decoder remembers of its buffer is true. -/
structure WellFormed (decoder : LineDecoder) : Prop where
  inBuffer : decoder.scanned ≤ decoder.buffer.length
  inWindow : decoder.scanned ≤ decoder.maxLength + 1
  clear : newline ∉ decoder.buffer.take decoder.scanned

/-- The lines that a decoder has still to give when `more` is all that comes in. -/
def remaining (decoder : LineDecoder) (more : Bytes) : List String :=
  if decoder.discarding then
    Line.split decoder.maxLength (Line.afterNewline (decoder.buffer ++ more))
  else Line.split decoder.maxLength (decoder.buffer ++ more)

/-- A decoder that cannot go on without more bytes. -/
structure Resting (decoder : LineDecoder) : Prop where
  noNewline : newline ∉ decoder.buffer
  short : decoder.buffer.length ≤ decoder.maxLength
  /-- Nothing of a line that is skipped is kept. -/
  skipped : decoder.discarding = true → decoder.buffer = []

/-! ## The next newline -/

theorem newlineWithin_eq_some {index window position : Nat} {bytes : Bytes}
    (found : newlineWithin index window bytes = some position) :
    ∃ line rest, bytes = line ++ newline :: rest ∧ newline ∉ line ∧ line.length < window ∧
      position = index + line.length := by
  fun_induction newlineWithin index window bytes with
  | case1 => cases found
  | case2 => cases found
  | case3 index window rest =>
      cases found
      exact ⟨[], rest, rfl, List.not_mem_nil, Nat.succ_pos window, rfl⟩
  | case4 index window byte rest inside ih =>
      obtain ⟨line, rest, rfl, clear, short, rfl⟩ := ih found
      refine ⟨byte :: line, rest, rfl, ?_, Nat.succ_lt_succ short, ?_⟩
      · simp [clear, Ne.symm inside]
      · simp only [List.length_cons]
        ring

theorem newlineWithin_eq_none {index window : Nat} {bytes : Bytes}
    (missed : newlineWithin index window bytes = none) : newline ∉ bytes.take window := by
  fun_induction newlineWithin index window bytes with
  | case1 => simp
  | case2 => simp
  | case3 => cases missed
  | case4 index window byte rest inside ih => simp [ih missed, Ne.symm inside]

/-- The first newline is found in a window that reaches behind it. -/
theorem newlineWithin_append {index window : Nat} {line : Bytes} (clear : newline ∉ line)
    (short : line.length < window) (rest : Bytes) :
    newlineWithin index window (line ++ newline :: rest) = some (index + line.length) := by
  induction line generalizing index window with
  | nil =>
      cases window with
      | zero => exact absurd short (Nat.not_lt_zero _)
      | succ window => simp [newlineWithin]
  | cons byte line ih =>
      cases window with
      | zero => exact absurd short (Nat.not_lt_zero _)
      | succ window =>
          rw [List.mem_cons, not_or] at clear
          rw [List.cons_append, newlineWithin, if_neg (Ne.symm clear.1),
            ih clear.2 (Nat.lt_of_succ_lt_succ short), List.length_cons]
          congr 1
          ring

/-- A line that arrives whole is taken off again. -/
theorem decode_append_line {maxLength : Nat} {line : Bytes} (clear : newline ∉ line)
    (short : line.length ≤ maxLength) :
    ((empty maxLength).append (line ++ [newline])).decode =
      (some (Line.text line), empty maxLength) := by
  have found : ((empty maxLength).append (line ++ [newline])).newline? = some line.length := by
    have first := @newlineWithin_append 0 (maxLength + 1) line clear (Nat.lt_succ_of_le short) []
    rwa [Nat.zero_add] at first
  unfold decode
  split
  · next position its =>
      obtain rfl : position = line.length := Option.some.inj (its.symm.trans found)
      simp [empty, append]
  · next none => exact absurd (none.symm.trans found) (by simp)

variable {decoder : LineDecoder}

/-- A newline that is found ends the line at the front of the buffer, and the line is not too
long. -/
theorem WellFormed.newline?_eq_some (wellFormed : decoder.WellFormed) {position : Nat}
    (found : decoder.newline? = some position) :
    ∃ line rest, decoder.buffer = line ++ newline :: rest ∧ newline ∉ line ∧
      line.length = position ∧ position ≤ decoder.maxLength := by
  obtain ⟨line, rest, unseen, clear, short, rfl⟩ := newlineWithin_eq_some found
  refine ⟨decoder.buffer.take decoder.scanned ++ line, rest, ?_, ?_, ?_, ?_⟩
  · rw [List.append_assoc, ← unseen, List.take_append_drop]
  · rw [List.mem_append, not_or]
    exact ⟨wellFormed.clear, clear⟩
  · rw [List.length_append, List.length_take_of_le wellFormed.inBuffer]
  · omega

theorem WellFormed.newline?_eq_none (wellFormed : decoder.WellFormed)
    (missed : decoder.newline? = none) :
    newline ∉ decoder.buffer.take (decoder.maxLength + 1) := by
  have unseen := newlineWithin_eq_none missed
  have window : decoder.maxLength + 1 =
      decoder.scanned + (decoder.maxLength + 1 - decoder.scanned) := by
    have inWindow := wellFormed.inWindow
    omega
  rw [window, List.take_add, List.mem_append, not_or]
  exact ⟨wellFormed.clear, unseen⟩

/-! ## What remains -/

theorem remaining_of_skipping (skipping : decoder.discarding = true) (more : Bytes) :
    decoder.remaining more =
      Line.split decoder.maxLength (Line.afterNewline (decoder.buffer ++ more)) :=
  if_pos skipping

theorem remaining_of_keeping (keeping : ¬decoder.discarding = true) (more : Bytes) :
    decoder.remaining more = Line.split decoder.maxLength (decoder.buffer ++ more) :=
  if_neg keeping

/-- Skipped bytes that do not end the line make no difference. -/
theorem remaining_drop (skipping : decoder.discarding = true) {count : Nat}
    (clear : newline ∉ decoder.buffer.take count) (more : Bytes) :
    decoder.remaining more =
      { decoder with buffer := decoder.buffer.drop count, scanned := 0 }.remaining more := by
  rw [remaining_of_skipping skipping, remaining_of_skipping (by exact skipping)]
  conv => lhs; rw [← List.take_append_drop count decoder.buffer, List.append_assoc,
    Line.afterNewline_append clear]

/-- The newline that is found while skipping ends the line that is too long. -/
theorem remaining_skipped {line rest : Bytes} (skipping : decoder.discarding = true)
    (buffer : decoder.buffer = line ++ newline :: rest) (clear : newline ∉ line) (more : Bytes) :
    decoder.remaining more =
      { decoder with buffer := rest, discarding := false, scanned := 0 }.remaining more := by
  rw [remaining_of_skipping skipping, remaining_of_keeping (by exact Bool.false_ne_true), buffer,
    List.append_assoc, Line.afterNewline_append clear, List.cons_append,
    Line.afterNewline_newline]

/-- A whole line at the front of the buffer comes first. -/
theorem remaining_line {line rest : Bytes} (keeping : ¬decoder.discarding = true)
    (buffer : decoder.buffer = line ++ newline :: rest) (clear : newline ∉ line)
    (short : line.length ≤ decoder.maxLength) (more : Bytes) :
    decoder.remaining more =
      Line.text line :: { decoder with buffer := rest, scanned := 0 }.remaining more := by
  rw [remaining_of_keeping keeping, remaining_of_keeping (by exact keeping), buffer,
    List.append_assoc, List.cons_append, Line.split_append_newline clear, if_pos short]
  rfl

/-- Skipping may begin as soon as a line has turned out too long. -/
theorem remaining_overlong (keeping : ¬decoder.discarding = true)
    (clear : newline ∉ decoder.buffer.take (decoder.maxLength + 1))
    (long : decoder.maxLength < decoder.buffer.length) (more : Bytes) :
    decoder.remaining more =
      { decoder with discarding := true, overlong := decoder.overlong + 1 }.remaining more := by
  rw [remaining_of_keeping keeping, remaining_of_skipping (by rfl)]
  refine Line.split_eq_split_afterNewline ?_ ?_
  · rwa [List.take_append_of_le_length long]
  · rw [List.length_append]
    exact Nat.lt_add_right more.length long

/-! ## One call -/

/-- What a call comes to: a line off the front of what remains, or a decoder that rests. -/
inductive Decoded (before : LineDecoder) : Option String × LineDecoder → Prop where
  | line {line : String} {after : LineDecoder} (wellFormed : after.WellFormed)
      (remaining : ∀ more, before.remaining more = line :: after.remaining more)
      (shorter : after.buffer.length < before.buffer.length) : Decoded before (some line, after)
  | resting {after : LineDecoder} (wellFormed : after.WellFormed)
      (remaining : ∀ more, before.remaining more = after.remaining more)
      (notLonger : after.buffer.length ≤ before.buffer.length)
      (resting : after.Resting) : Decoded before (none, after)

/-- A round of the loop that gives no line must leave what remains alone. -/
theorem Decoded.of_round {before middle : LineDecoder} {result : Option String × LineDecoder}
    (decoded : Decoded middle result)
    (remaining : ∀ more, before.remaining more = middle.remaining more)
    (notLonger : middle.buffer.length ≤ before.buffer.length) : Decoded before result := by
  cases decoded with
  | line wellFormed rest shorter =>
      refine .line wellFormed ?_ (Nat.lt_of_lt_of_le shorter notLonger)
      intro more
      exact (remaining more).trans (rest more)
  | resting wellFormed rest shorter resting =>
      refine .resting wellFormed ?_ (Nat.le_trans shorter notLonger) resting
      intro more
      exact (remaining more).trans (rest more)

theorem wellFormed_of_scanned_eq_zero (unscanned : decoder.scanned = 0) :
    decoder.WellFormed :=
  { inBuffer := by simp [unscanned], inWindow := by simp [unscanned], clear := by simp [unscanned] }

/-- Every call of `decode` keeps the decoder well formed and gives the next line that remains, or
none if more bytes are needed for it. -/
theorem decode_decoded (wellFormed : decoder.WellFormed) : Decoded decoder decoder.decode := by
  -- The induction is on the rounds of the loop: the first, third and fifth case go round again.
  fun_induction decode decoder with
  | case1 decoder position found skipping ih =>
      obtain ⟨line, rest, buffer, clear, rfl, -⟩ := wellFormed.newline?_eq_some found
      have behind : decoder.buffer.drop (line.length + 1) = rest := by simp [buffer]
      have round := ih (wellFormed_of_scanned_eq_zero rfl)
      rw [behind] at round ⊢
      exact round.of_round (remaining_skipped skipping buffer clear) (by simp [buffer]; omega)
  | case2 decoder position found keeping =>
      obtain ⟨line, rest, buffer, clear, rfl, short⟩ := wellFormed.newline?_eq_some found
      have behind : decoder.buffer.drop (line.length + 1) = rest := by simp [buffer]
      have front : decoder.buffer.take line.length = line := by simp [buffer]
      rw [behind, front]
      exact .line (wellFormed_of_scanned_eq_zero rfl) (remaining_line keeping buffer clear short)
        (by simp [buffer]; omega)
  | case3 decoder missed skipping long ih =>
      have clear := wellFormed.newline?_eq_none missed
      exact (ih (wellFormed_of_scanned_eq_zero rfl)).of_round (remaining_drop skipping clear)
        (by simp)
  | case4 decoder missed skipping notLong =>
      have clear := wellFormed.newline?_eq_none missed
      have short : decoder.buffer.length ≤ decoder.maxLength + 1 := by
        simpa [isLonger_iff] using notLong
      have rest := remaining_drop skipping clear
      rw [List.drop_of_length_le short] at rest
      exact .resting (wellFormed_of_scanned_eq_zero rfl) rest (Nat.zero_le _)
        { noNewline := List.not_mem_nil, short := Nat.zero_le _, skipped := fun _ => rfl }
  | case5 decoder missed keeping long ih =>
      have clear := wellFormed.newline?_eq_none missed
      have round := ih
        { inBuffer := wellFormed.inBuffer, inWindow := wellFormed.inWindow
          clear := wellFormed.clear }
      exact round.of_round (remaining_overlong keeping clear (isLonger_iff.mp long)) (Nat.le_refl _)
  | case6 decoder missed keeping notLong =>
      have clear := wellFormed.newline?_eq_none missed
      have short : decoder.buffer.length ≤ decoder.maxLength := by
        simpa [isLonger_iff] using notLong
      rw [List.take_of_length_le (Nat.le_succ_of_le short)] at clear
      apply Decoded.resting
      · exact
          { inBuffer := Nat.le_refl _, inWindow := Nat.le_succ_of_le short
            clear := by rwa [List.take_length] }
      · intro more
        rfl
      · exact Nat.le_refl _
      · exact { noNewline := clear, short, skipped := fun skipping => absurd skipping keeping }

/-! ## The end of the stream -/

/-- When no more bytes come, a call gives the next line that remains, or none is left. -/
inductive Ended (before : LineDecoder) : Option String × LineDecoder → Prop where
  | line {line : String} {after : LineDecoder} (wellFormed : after.WellFormed)
      (remaining : before.remaining [] = line :: after.remaining [])
      (shorter : after.buffer.length < before.buffer.length) : Ended before (some line, after)
  | finished {after : LineDecoder} (wellFormed : after.WellFormed)
      (remaining : before.remaining [] = [])
      (buffer : after.buffer = []) (keeping : after.discarding = false) : Ended before (none, after)

/-- The bytes that a resting decoder keeps are a last line if there are any. -/
theorem Resting.remaining_nil (resting : decoder.Resting) :
    decoder.remaining [] =
      if decoder.discarding || decoder.buffer.isEmpty then [] else [Line.text decoder.buffer] := by
  by_cases skipping : decoder.discarding = true
  · rw [remaining_of_skipping skipping, resting.skipped skipping, skipping]
    rfl
  · rw [remaining_of_keeping skipping, List.append_nil, Line.split_of_notMem resting.noNewline]
    simp [skipping, resting.short]

theorem decodeEnd_ended (wellFormed : decoder.WellFormed) : Ended decoder decoder.decodeEnd := by
  have decoded := decode_decoded wellFormed
  unfold decodeEnd
  cases result : decoder.decode with
  | mk line? after =>
      rw [result] at decoded
      cases decoded with
      | line afterWellFormed remaining shorter =>
          exact .line afterWellFormed (remaining []) shorter
      | resting afterWellFormed remaining notLonger resting =>
          have last := (remaining []).trans resting.remaining_nil
          simp only
          split_ifs at last ⊢ with nothing
          · exact .finished (wellFormed_of_scanned_eq_zero rfl) last rfl rfl
          · simp only [Bool.or_eq_true, not_or, List.isEmpty_iff] at nothing
            refine .line (wellFormed_of_scanned_eq_zero rfl) ?_ ?_
            · rw [last, remaining_of_keeping (by exact nothing.1)]
              rfl
            · exact Nat.lt_of_lt_of_le (List.length_pos_of_ne_nil nothing.2) notLonger

/-- Calls until one gives no line: the lines given, and the decoder behind the last call. -/
inductive Drains (take : LineDecoder → Option String × LineDecoder) :
    LineDecoder → List String × LineDecoder → Prop where
  | finished {before after : LineDecoder} (call : take before = (none, after)) :
      Drains take before ([], after)
  | line {before middle after : LineDecoder} {line : String} {lines : List String}
      (call : take before = (some line, middle)) (others : Drains take middle (lines, after)) :
      Drains take before (line :: lines, after)

/-- At the end of the stream a decoder gives all lines that remain. -/
theorem drain_decodeEnd {fuel : Nat} (wellFormed : decoder.WellFormed)
    (enough : decoder.buffer.length < fuel) :
    Drains decodeEnd decoder (drain decodeEnd fuel decoder) ∧
      (drain decodeEnd fuel decoder).1 = decoder.remaining [] := by
  -- Every line shortens the buffer, so the fuel lasts until a call gives none.
  induction fuel generalizing decoder with
  | zero => exact absurd enough (Nat.not_lt_zero _)
  | succ fuel ih =>
      have ended := decodeEnd_ended wellFormed
      rw [drain]
      cases result : decoder.decodeEnd with
      | mk line? after =>
          rw [result] at ended
          cases ended with
          | line afterWellFormed remaining shorter =>
              obtain ⟨drains, lines⟩ :=
                ih afterWellFormed (Nat.lt_of_lt_of_le shorter (Nat.le_of_lt_succ enough))
              exact ⟨.line result drains, by rw [remaining, ← lines]⟩
          | finished afterWellFormed remaining buffer keeping =>
              exact ⟨.finished result, remaining.symm⟩

/-! ## Fragments and calls in any order -/

/-- What happens to a decoder before the stream ends. -/
inductive Call where
  /-- The next fragment of the stream comes in. -/
  | append (fragment : Bytes)
  /-- A line is asked for. -/
  | decode
  deriving Repr, DecidableEq

/-- The lines given so far and the decoder behind one more call. -/
def call (before : List String × LineDecoder) : Call → List String × LineDecoder
  | .append fragment => (before.1, before.2.append fragment)
  | .decode =>
      match before.2.decode with
      | (line?, after) => (before.1 ++ line?.toList, after)

/-- The lines given in a list of calls to a new decoder, and the decoder behind them. -/
def run (maxLength : Nat) (calls : List Call) : List String × LineDecoder :=
  calls.foldl call ([], empty maxLength)

/-- The bytes that come in with a call. -/
def Call.bytes : Call → Bytes
  | .append fragment => fragment
  | .decode => []

/-- The fragments of a list of calls, put together. -/
def stream (calls : List Call) : Bytes :=
  calls.flatMap Call.bytes

theorem WellFormed.append (wellFormed : decoder.WellFormed) (fragment : Bytes) :
    (decoder.append fragment).WellFormed :=
  { inBuffer := by
      simp only [LineDecoder.append, List.length_append]
      exact Nat.le_add_right_of_le wellFormed.inBuffer
    inWindow := wellFormed.inWindow
    clear := by
      simp only [LineDecoder.append, List.take_append_of_le_length wellFormed.inBuffer]
      exact wellFormed.clear }

theorem remaining_append (fragment more : Bytes) :
    (decoder.append fragment).remaining more = decoder.remaining (fragment ++ more) := by
  simp only [remaining, append, List.append_assoc]

/-- No call loses or doubles a line: what has been given and what remains are the same lines
together, when the bytes that the call brings are counted in. -/
theorem call_keeps (lines : List String) (wellFormed : decoder.WellFormed) (next : Call) :
    (call (lines, decoder) next).2.WellFormed ∧
      ∀ more, (call (lines, decoder) next).1 ++ (call (lines, decoder) next).2.remaining more =
        lines ++ decoder.remaining (next.bytes ++ more) := by
  cases next with
  | append fragment =>
      constructor
      · exact wellFormed.append fragment
      · intro more
        exact congrArg (lines ++ ·) (remaining_append fragment more)
  | decode =>
      have decoded := decode_decoded wellFormed
      simp only [call, Call.bytes, List.nil_append]
      cases result : decoder.decode with
      | mk line? after =>
          rw [result] at decoded
          cases decoded with
          | line afterWellFormed remaining shorter =>
              constructor
              · exact afterWellFormed
              · intro more
                rw [remaining more]
                exact List.append_assoc _ _ _
          | resting afterWellFormed remaining notLonger resting =>
              constructor
              · exact afterWellFormed
              · intro more
                rw [remaining more]
                exact congrArg (· ++ _) (List.append_nil lines)

theorem run_keeps (maxLength : Nat) (calls : List Call) :
    (run maxLength calls).2.WellFormed ∧
      ∀ more, (run maxLength calls).1 ++ (run maxLength calls).2.remaining more =
        Line.split maxLength (stream calls ++ more) := by
  induction calls using List.reverseRecOn with
  | nil => exact ⟨wellFormed_of_scanned_eq_zero rfl, fun more => rfl⟩
  | append_singleton calls next ih =>
      obtain ⟨wellFormed, together⟩ := ih
      obtain ⟨keeps, given⟩ := call_keeps (run maxLength calls).1 wellFormed next
      rw [run, List.foldl_append]
      constructor
      · exact keeps
      · intro more
        refine (given more).trans ?_
        simp only [together, stream, List.flatMap_append, List.append_assoc]
        simp

/-- However a stream is cut into fragments and whenever lines are asked for, the lines given, and
then those given until none is left at the end, are the lines of the stream cut at once. -/
theorem run_decodeRest_eq_split (maxLength : Nat) (calls : List Call) :
    Drains decodeEnd (run maxLength calls).2 (run maxLength calls).2.decodeRest ∧
      (run maxLength calls).1 ++ (run maxLength calls).2.decodeRest.1 =
        Line.split maxLength (stream calls) := by
  obtain ⟨wellFormed, together⟩ := run_keeps maxLength calls
  obtain ⟨drains, rest⟩ := drain_decodeEnd wellFormed (Nat.lt_succ_self _)
  constructor
  · exact drains
  · rw [decodeRest, rest, together, List.append_nil]

end LineDecoder

end StratumMiner
