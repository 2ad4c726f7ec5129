import Mathlib
import StratumMiner.Pool.Line

/-!
# Cutting a stream into lines

The lines of a stream come from its front: a first line that ends is kept or dropped by itself, and
a line known to be too long can be skipped before its end is seen.
-/

namespace StratumMiner.Line

variable {maxLength : Nat} {line rest bytes : Bytes}

/-! ## Pieces -/

theorem pieces_ne_nil (bytes : Bytes) : pieces bytes ≠ [] := by
  cases bytes with
  | nil => simp [pieces]
  | cons byte rest =>
      simp only [pieces]
      split
      · simp
      · split <;> simp

theorem pieces_cons {byte : UInt8} (inside : byte ≠ newline) {piece : Bytes} {more : List Bytes}
    (cut : pieces rest = piece :: more) : pieces (byte :: rest) = (byte :: piece) :: more := by
  simp [pieces, inside, cut]

/-- A line without a newline is the beginning of the first piece. -/
theorem pieces_append (noNewline : newline ∉ line) {piece : Bytes} {more : List Bytes}
    (cut : pieces rest = piece :: more) : pieces (line ++ rest) = (line ++ piece) :: more := by
  induction line with
  | nil => exact cut
  | cons byte line ih =>
      rw [List.mem_cons, not_or] at noNewline
      exact pieces_cons (Ne.symm noNewline.1) (ih noNewline.2)

/-- The first newline ends the first piece. -/
theorem pieces_append_newline (noNewline : newline ∉ line) (rest : Bytes) :
    pieces (line ++ newline :: rest) = line :: pieces rest := by
  have cut : pieces (newline :: rest) = [] :: pieces rest := if_pos rfl
  rw [pieces_append noNewline cut, List.append_nil]

theorem pieces_of_notMem (noNewline : newline ∉ line) : pieces line = [line] := by
  have whole : pieces (line ++ []) = [line ++ []] := pieces_append noNewline rfl
  rwa [List.append_nil] at whole

/-! ## Lines from the front -/

@[simp] theorem split_nil (maxLength : Nat) : split maxLength [] = [] := rfl

/-- The first line that ends is kept or dropped by its own length. -/
theorem split_append_newline (noNewline : newline ∉ line) (rest : Bytes) :
    split maxLength (line ++ newline :: rest) =
      (if line.length ≤ maxLength then [text line] else []) ++ split maxLength rest := by
  have more := pieces_ne_nil rest
  simp only [split, pieces_append_newline noNewline, List.dropLast_cons_of_ne_nil more,
    List.getLast?_cons_of_ne_nil more, List.cons_append, List.filter_cons, decide_eq_true_eq]
  split_ifs with fits
  · rfl
  · rfl

/-- What follows the last newline counts unless it is empty. -/
theorem split_of_notMem (noNewline : newline ∉ line) :
    split maxLength line =
      if line ≠ [] ∧ line.length ≤ maxLength then [text line] else [] := by
  cases line with
  | nil => rfl
  | cons byte rest =>
      simp only [split, pieces_of_notMem noNewline]
      split_ifs <;> simp_all

/-! ## Skipping a line -/

/-- The bytes behind the first newline. -/
def afterNewline (bytes : Bytes) : Bytes :=
  (bytes.dropWhile fun byte => byte != newline).tail

theorem afterNewline_append (noNewline : newline ∉ line) (rest : Bytes) :
    afterNewline (line ++ rest) = afterNewline rest := by
  have skipped : ∀ byte ∈ line, (byte != newline) = true := by
    intro byte member
    simp only [bne_iff_ne]
    intro same
    exact noNewline (same ▸ member)
  rw [afterNewline, List.dropWhile_append_of_pos skipped, ← afterNewline]

@[simp] theorem afterNewline_newline (rest : Bytes) : afterNewline (newline :: rest) = rest := by
  simp [afterNewline]

theorem afterNewline_of_notMem (noNewline : newline ∉ line) : afterNewline line = [] := by
  have whole := afterNewline_append noNewline []
  rwa [List.append_nil] at whole

/-- A line that is too long can be skipped as soon as that shows. -/
theorem split_eq_split_afterNewline (noNewline : newline ∉ bytes.take (maxLength + 1))
    (long : maxLength < bytes.length) :
    split maxLength bytes = split maxLength (afterNewline bytes) := by
  by_cases ends : newline ∈ bytes
  · obtain ⟨line, rest, rfl, clear⟩ := List.eq_append_cons_of_mem ends
    have tooLong : ¬ line.length ≤ maxLength := by
      intro short
      apply noNewline
      rw [List.take_append, List.take_of_length_le (Nat.le_succ_of_le short)]
      simp [Nat.sub_add_comm short]
    rw [split_append_newline clear, if_neg tooLong, List.nil_append, afterNewline_append clear,
      afterNewline_newline]
  · rw [split_of_notMem ends, afterNewline_of_notMem ends, split_nil, if_neg]
    intro kept
    exact Nat.not_le_of_lt long kept.2

end StratumMiner.Line
