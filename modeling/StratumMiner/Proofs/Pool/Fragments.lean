import Mathlib
import StratumMiner.Proofs.Pool.LineDecoder

/-!
# Lines as they come in

Between two fragments of a stream, all that a decoder owes to what has come in is the beginning of a
line that goes on.  `LineDecoder.Awaits` says this of a decoder, whatever its buffer looks like.  A
fragment then gives the lines that it ends, and the end of the stream gives the line that is open.
-/

namespace StratumMiner

namespace Line

variable {maxLength : Nat} {line front back bytes : Bytes}

/-- The lines that have ended, with their newlines. -/
def closedPart (bytes : Bytes) : Bytes :=
  bytes.rdropWhile fun byte => byte != newline

/-- What has come in of a line that goes on. -/
def openPart (bytes : Bytes) : Bytes :=
  bytes.rtakeWhile fun byte => byte != newline

theorem closedPart_append_openPart (bytes : Bytes) :
    closedPart bytes ++ openPart bytes = bytes :=
  List.rdropWhile_append_rtakeWhile

/-- No newline is in a line that goes on. -/
theorem newline_notMem_openPart (bytes : Bytes) : newline ∉ openPart bytes := by
  intro member
  simpa using List.mem_rtakeWhile_imp member

theorem closedPart_eq_self (ended : bytes = [] ∨ bytes.getLast? = some newline) :
    closedPart bytes = bytes := by
  refine List.rdropWhile_eq_self_iff.mpr ?_
  intro nonempty
  rcases ended with empty | last
  · exact absurd empty nonempty
  · rw [List.getLast?_eq_some_getLast nonempty] at last
    simpa using Option.some.inj last

theorem openPart_of_notMem (clear : newline ∉ line) : openPart line = line := by
  refine List.rtakeWhile_eq_self_iff.mpr ?_
  intro byte member
  simp only [bne_iff_ne]
  exact fun ends => clear (ends ▸ member)

theorem closedPart_of_notMem (clear : newline ∉ line) : closedPart line = [] := by
  have whole := closedPart_append_openPart line
  rw [openPart_of_notMem clear] at whole
  exact List.append_left_eq_self.mp whole

@[simp] theorem openPart_concat (bytes : Bytes) : openPart (bytes ++ [newline]) = [] :=
  List.rtakeWhile_concat_neg _ _ _ (by simp)

@[simp] theorem closedPart_concat (bytes : Bytes) :
    closedPart (bytes ++ [newline]) = bytes ++ [newline] :=
  List.rdropWhile_concat_neg _ _ _ (by simp)

theorem closedPart_ended (bytes : Bytes) :
    closedPart bytes = [] ∨ (closedPart bytes).getLast? = some newline := by
  by_cases empty : closedPart bytes = []
  · exact .inl empty
  · have last : ¬((closedPart bytes).getLast empty != newline) = true :=
      List.rdropWhile_last_not _ bytes empty
    right
    rw [List.getLast?_eq_some_getLast empty]
    simpa using last

theorem closedPart_append (bytes more : Bytes) :
    closedPart (bytes ++ more) = closedPart bytes ++ closedPart (openPart bytes ++ more) := by
  have ended : ((closedPart bytes).reverse.dropWhile fun byte => byte != newline) =
      (closedPart bytes).reverse :=
    List.reverse_injective ((closedPart_eq_self (closedPart_ended bytes)).trans
      (List.reverse_reverse _).symm)
  conv => lhs; rw [← closedPart_append_openPart bytes, List.append_assoc]
  generalize openPart bytes ++ more = others
  rw [closedPart, List.rdropWhile, List.reverse_append, List.dropWhile_append, ended]
  split
  · next nothing =>
      have none : closedPart others = [] := by
        simpa [closedPart, List.rdropWhile] using nothing
      simp [none]
  · simp [closedPart, List.rdropWhile]

/-- What is open depends on what was open and on what has come in since. -/
theorem openPart_append (bytes more : Bytes) :
    openPart (bytes ++ more) = openPart (openPart bytes ++ more) := by
  have whole := closedPart_append_openPart (bytes ++ more)
  conv at whole => rhs; rw [← closedPart_append_openPart bytes, List.append_assoc,
    ← closedPart_append_openPart (openPart bytes ++ more), ← List.append_assoc,
    ← closedPart_append]
  exact List.append_cancel_left whole

/-- Lines that have ended do not depend on what follows them. -/
theorem split_append (ended : front = [] ∨ front.getLast? = some newline) :
    split maxLength (front ++ back) = split maxLength front ++ split maxLength back := by
  -- The induction is on the lines of the front, the first of which ends at its first newline.
  induction length : front.length using Nat.strong_induction_on generalizing front with
  | _ count ih =>
      by_cases empty : front = []
      · simp [empty]
      · have last := ended.resolve_left empty
        obtain ⟨line, rest, rfl, clear⟩ :=
          List.eq_append_cons_of_mem (List.mem_of_getLast? last)
        have restEnded : rest = [] ∨ rest.getLast? = some newline := by
          cases rest with
          | nil => exact .inl rfl
          | cons byte others => exact .inr (by simpa using last)
        have shorter : rest.length < count := by
          rw [← length, List.length_append, List.length_cons]
          omega
        rw [List.append_assoc, List.cons_append, split_append_newline clear,
          split_append_newline clear, ih rest.length shorter restEnded rfl, List.append_assoc]

/-- The lines of a stream are those that have ended and those of what is open with all that comes
behind it. -/
theorem split_closedPart (bytes more : Bytes) :
    split maxLength (bytes ++ more) =
      split maxLength (closedPart bytes) ++ split maxLength (openPart bytes ++ more) := by
  rw [← split_append (closedPart_ended bytes), ← List.append_assoc, closedPart_append_openPart]

/-- A last line that is too long counts for nothing. -/
theorem split_of_long (clear : newline ∉ line) (long : maxLength < line.length) :
    split maxLength line = [] := by
  rw [split_of_notMem clear, if_neg]
  exact fun kept => Nat.not_le_of_lt long kept.2

end Line

namespace LineDecoder

variable {decoder : LineDecoder} {maxLength : Nat} {piece : Bytes}

/-! ## All that is there -/

/-- Lines are taken off the buffer until more bytes are needed. -/
theorem drain_decode {fuel : Nat} (wellFormed : decoder.WellFormed)
    (enough : decoder.buffer.length < fuel) :
    (drain decode fuel decoder).2.WellFormed ∧ (drain decode fuel decoder).2.Resting ∧
      ∀ more, decoder.remaining more =
        (drain decode fuel decoder).1 ++ (drain decode fuel decoder).2.remaining more := by
  -- Every line shortens the buffer, so the fuel lasts until a call gives none.
  induction fuel generalizing decoder with
  | zero => exact absurd enough (Nat.not_lt_zero _)
  | succ fuel ih =>
      have decoded := decode_decoded wellFormed
      rw [drain]
      cases result : decoder.decode with
      | mk line? after =>
          rw [result] at decoded
          cases decoded with
          | line afterWellFormed remaining shorter =>
              obtain ⟨behind, resting, others⟩ :=
                ih afterWellFormed (Nat.lt_of_lt_of_le shorter (Nat.le_of_lt_succ enough))
              refine ⟨behind, resting, ?_⟩
              intro more
              rw [remaining more, others more]
              rfl
          | resting afterWellFormed remaining notLonger resting =>
              exact ⟨afterWellFormed, resting, remaining⟩

theorem decode_maxLength (decoder : LineDecoder) :
    decoder.decode.2.maxLength = decoder.maxLength := by
  fun_induction decode decoder with
  | case1 decoder position found skipping ih => exact ih
  | case2 => rfl
  | case3 decoder missed skipping long ih => exact ih
  | case4 => rfl
  | case5 decoder missed keeping long ih => exact ih
  | case6 => rfl

theorem decodeEnd_maxLength (decoder : LineDecoder) :
    decoder.decodeEnd.2.maxLength = decoder.maxLength := by
  have same := decoder.decode_maxLength
  unfold decodeEnd
  split
  · next result => rwa [result] at same
  · next result =>
      rw [result] at same
      split <;> exact same

theorem drain_maxLength {take : LineDecoder → Option String × LineDecoder}
    (keeps : ∀ decoder : LineDecoder, (take decoder).2.maxLength = decoder.maxLength)
    (fuel : Nat) (decoder : LineDecoder) :
    (drain take fuel decoder).2.maxLength = decoder.maxLength := by
  induction fuel generalizing decoder with
  | zero => rfl
  | succ fuel ih =>
      have same := keeps decoder
      rw [drain]
      split
      · next result => rwa [result] at same
      · next middle result =>
          rw [result] at same
          exact (ih middle).trans same

theorem drain_decodeEnd_fresh {fuel : Nat} (wellFormed : decoder.WellFormed)
    (enough : decoder.buffer.length < fuel) :
    (drain decodeEnd fuel decoder).2.WellFormed ∧
      ∀ more, (drain decodeEnd fuel decoder).2.remaining more =
        Line.split decoder.maxLength more := by
  induction fuel generalizing decoder with
  | zero => exact absurd enough (Nat.not_lt_zero _)
  | succ fuel ih =>
      have ended := decodeEnd_ended wellFormed
      have same := decodeEnd_maxLength decoder
      rw [drain]
      cases result : decoder.decodeEnd with
      | mk line? after =>
          rw [result] at ended same
          cases ended with
          | line afterWellFormed remaining shorter =>
              rw [← same]
              exact ih afterWellFormed (Nat.lt_of_lt_of_le shorter (Nat.le_of_lt_succ enough))
          | finished afterWellFormed remaining buffer keeping =>
              refine ⟨afterWellFormed, ?_⟩
              intro more
              rw [remaining_of_keeping (by simp [keeping]), buffer, List.nil_append, same]

/-- When all whole lines have been taken, the decoder rests. -/
theorem decodeAll_rests (wellFormed : decoder.WellFormed) :
    decoder.decodeAll.2.WellFormed ∧ decoder.decodeAll.2.Resting ∧
      ∀ more, decoder.remaining more =
        decoder.decodeAll.1 ++ decoder.decodeAll.2.remaining more :=
  drain_decode wellFormed (Nat.lt_succ_self _)

/-- When all lines have been taken at the end of the stream, the decoder is as good as new. -/
theorem decodeRest_fresh (wellFormed : decoder.WellFormed) :
    decoder.decodeRest.2.WellFormed ∧
      ∀ more, decoder.decodeRest.2.remaining more = Line.split decoder.maxLength more :=
  drain_decodeEnd_fresh wellFormed (Nat.lt_succ_self _)

/-! ## The open line -/

/-- All that a decoder for lines of at most this length owes to what has come in is the beginning of
a line. -/
structure Awaits (maxLength : Nat) (decoder : LineDecoder) (piece : Bytes) : Prop where
  bound : decoder.maxLength = maxLength
  wellFormed : decoder.WellFormed
  remaining : ∀ more, decoder.remaining more = Line.split maxLength (piece ++ more)

theorem empty_awaits (maxLength : Nat) : (empty maxLength).Awaits maxLength [] :=
  ⟨rfl, wellFormed_of_scanned_eq_zero rfl, fun _ => rfl⟩

/-- When a line without end is too long behind the bytes of a resting decoder, nothing remains. -/
theorem Resting.remaining_long (resting : decoder.Resting) {more : Bytes}
    (clear : newline ∉ more) (long : decoder.maxLength < more.length) :
    decoder.remaining more = [] := by
  have whole : newline ∉ decoder.buffer ++ more := by
    rw [List.mem_append, not_or]
    exact ⟨resting.noNewline, clear⟩
  by_cases skipping : decoder.discarding = true
  · rw [remaining_of_skipping skipping, Line.afterNewline_of_notMem whole, Line.split_nil]
  · rw [remaining_of_keeping skipping]
    refine Line.split_of_long whole ?_
    rw [List.length_append]
    exact Nat.lt_add_left _ long

/-- A fragment gives the lines that it ends, and what it leaves open is awaited. -/
theorem Awaits.receive (awaits : decoder.Awaits maxLength piece) (fragment : Bytes) :
    (decoder.append fragment).decodeAll.1 =
        Line.split maxLength (Line.closedPart (piece ++ fragment)) ∧
      (decoder.append fragment).decodeAll.2.Awaits maxLength
        (Line.openPart (piece ++ fragment)) := by
  have bound : (decoder.append fragment).decodeAll.2.maxLength = maxLength :=
    (drain_maxLength decode_maxLength _ _).trans awaits.bound
  obtain ⟨wellFormed, resting, remaining⟩ := decodeAll_rests (awaits.wellFormed.append fragment)
  generalize (decoder.append fragment).decodeAll = behind at *
  have together (more : Bytes) :
      behind.1 ++ behind.2.remaining more =
        Line.split maxLength (Line.closedPart (piece ++ fragment)) ++
          Line.split maxLength (Line.openPart (piece ++ fragment) ++ more) := by
    rw [← remaining, remaining_append, awaits.remaining, ← List.append_assoc,
      Line.split_closedPart]
  -- With a line behind it that is too long and never ends, only what has ended is left.
  have lines : behind.1 = Line.split maxLength (Line.closedPart (piece ++ fragment)) := by
    have clear : newline ∉ List.replicate (maxLength + 1) (0 : UInt8) := by
      simp [List.mem_replicate, newline]
    have last : Line.split maxLength
        (Line.openPart (piece ++ fragment) ++ List.replicate (maxLength + 1) 0) = [] := by
      refine Line.split_of_long ?_ ?_
      · rw [List.mem_append, not_or]
        exact ⟨Line.newline_notMem_openPart _, clear⟩
      · rw [List.length_append, List.length_replicate]
        exact Nat.lt_add_left _ (Nat.lt_succ_self maxLength)
    have both := together (List.replicate (maxLength + 1) 0)
    rwa [resting.remaining_long clear (by simp [bound]), last, List.append_nil,
      List.append_nil] at both
  refine ⟨lines, bound, wellFormed, ?_⟩
  intro more
  have both := together more
  rw [lines] at both
  exact List.append_cancel_left both

/-- The end of the stream gives the line that is open, and nothing is awaited behind it. -/
theorem Awaits.finish (awaits : decoder.Awaits maxLength piece) :
    decoder.decodeRest.1 = Line.split maxLength piece ∧
      decoder.decodeRest.2.Awaits maxLength [] := by
  have lines := (drain_decodeEnd awaits.wellFormed (Nat.lt_succ_self _)).2
  obtain ⟨wellFormed, remaining⟩ := decodeRest_fresh awaits.wellFormed
  rw [awaits.remaining, List.append_nil] at lines
  refine ⟨lines, (drain_maxLength decodeEnd_maxLength _ _).trans awaits.bound, wellFormed, ?_⟩
  intro more
  rw [remaining, awaits.bound, List.nil_append]

end LineDecoder

end StratumMiner
