import Mathlib
import StratumMiner.Pool.Connection
import StratumMiner.Proofs.Pool.LineDecoder
import StratumMiner.Proofs.Pool.Message
import StratumMiner.Proofs.Text.Utf8

/-!
# Messages through a connection

The line of a message begins and ends with a brace and holds no control character, so nothing is
trimmed from it and no newline or carriage return is inside.  Lines written one after another are
therefore cut apart at the newlines between them, in whatever fragments the bytes come, and each is
read back as its message.
-/

namespace StratumMiner

/-- What is received with lines: a message or a fault with each that is not blank. -/
def Incoming.received (lines : List String) : List (Except Message.Fault Message) :=
  (lines.filterMap ofLine).map content

namespace Message

variable {message : Message} {messages : List Message}

/-- The bytes of messages that are written one after another. -/
def sent (messages : List Message) : Bytes :=
  (messages.foldl (fun writer message => writer.encode message.line)
    (LineDecoder.empty maxLineLength)).buffer

theorem sent_eq (messages : List Message) :
    sent messages = messages.flatMap fun message => Utf8.encode message.line ++ [newline] := by
  suffices behind : ∀ writer : LineDecoder,
      (messages.foldl (fun writer message => writer.encode message.line) writer).buffer =
        writer.buffer ++ messages.flatMap fun message => Utf8.encode message.line ++ [newline] from
    behind _
  induction messages with
  | nil => simp
  | cons message messages ih =>
      intro writer
      rw [List.foldl_cons, ih]
      simp [LineDecoder.encode, LineDecoder.append]

/-! ## The line of a message -/

/-- No control character is in the line of a message. -/
theorem Portable.visible_line (portable : message.Portable) :
    ∀ char ∈ message.line.toList, 32 ≤ char.toNat := by
  have exact : message.toJson.Exact := message.toJson_eq ▸ .object portable.written_exact
  rw [line, Json.text, String.toList_ofList]
  exact exact.visible

theorem Portable.newline_notMem_line (portable : message.Portable) :
    newline ∉ Utf8.encode message.line := by
  intro inside
  exact absurd (Utf8.le_of_mem_encode portable.visible_line inside) (by decide)

/-- The text of a line is what has been encoded. -/
theorem Portable.text_line (portable : message.Portable) :
    Line.text (Utf8.encode message.line) = message.line := by
  have noReturn : (Utf8.encode message.line).getLast? ≠ some 13 := by
    intro last
    have inside := List.mem_of_getLast? last
    exact absurd (Utf8.le_of_mem_encode portable.visible_line inside) (by decide)
  rw [Line.text, Line.stripReturn, if_neg noReturn, Utf8.decode_encode]

/-- Nothing is trimmed from the line of a message. -/
theorem trim_line (message : Message) : Blank.trim message.line = message.line := by
  have begins : Blank.isBlank '\x7b' = false := by decide
  have ends : Blank.isBlank '\x7d' = false := by decide
  have kept (middle : List Char) : Blank.trimChars ('\x7b' :: (middle ++ ['\x7d'])) =
      '\x7b' :: (middle ++ ['\x7d']) := by
    simp [Blank.trimChars, begins, ends]
  rw [Blank.trim, toList_line, kept, ← toList_line, String.ofList_toList]

/-- The line of a message is read as the message. -/
theorem Portable.ofLine_line (portable : message.Portable) :
    Incoming.ofLine message.line = some { line := message.line, content := .ok message } := by
  have nonempty : message.line ≠ "" := by
    intro empty
    have chars := toList_line message
    simp [empty] at chars
  simp only [Incoming.ofLine, trim_line, if_neg nonempty, portable.read_line]

/-! ## Streams -/

/-- Messages that are written one after another are cut apart into their lines. -/
theorem split_sent (portable : ∀ message ∈ messages, message.Portable)
    (fits : ∀ message ∈ messages, (Utf8.encode message.line).length ≤ maxLineLength) :
    Line.split maxLineLength (sent messages) = messages.map line := by
  rw [sent_eq]
  induction messages with
  | nil => rfl
  | cons message messages ih =>
      have first := portable message List.mem_cons_self
      have others := ih (fun message inside => portable message (List.mem_cons_of_mem _ inside))
        fun message inside => fits message (List.mem_cons_of_mem _ inside)
      rw [List.flatMap_cons, List.append_assoc, List.singleton_append,
        Line.split_append_newline first.newline_notMem_line,
        if_pos (fits message List.mem_cons_self), first.text_line, others]
      rfl

theorem received_lines (portable : ∀ message ∈ messages, message.Portable) :
    Incoming.received (messages.map line) = messages.map .ok := by
  induction messages with
  | nil => rfl
  | cons message messages ih =>
      have first := portable message List.mem_cons_self
      have others := ih fun message inside => portable message (List.mem_cons_of_mem _ inside)
      rw [Incoming.received] at others ⊢
      rw [List.map_cons, List.filterMap_cons_some first.ofLine_line, List.map_cons, others,
        List.map_cons]

/-- Messages that are written one after another are received in their order, and nothing else is, in
whatever fragments their bytes come and whenever lines are asked for.  A message that has been read
from any line, with parts without doubles, is read again from its own line. -/
theorem sent_received :
    (∀ (messages : List Message) (calls : List LineDecoder.Call),
      (∀ message ∈ messages, message.Portable) →
      (∀ message ∈ messages, (Utf8.encode message.line).length ≤ maxLineLength) →
      LineDecoder.stream calls = sent messages →
      LineDecoder.Drains LineDecoder.decodeEnd (LineDecoder.run maxLineLength calls).2
          (LineDecoder.run maxLineLength calls).2.decodeRest ∧
        Incoming.received ((LineDecoder.run maxLineLength calls).1 ++
          (LineDecoder.run maxLineLength calls).2.decodeRest.1) = messages.map .ok) ∧
    ∀ (text : String) (message : Message), read text = .ok message →
      (∀ part ∈ message.parts, part.Exact) → read message.line = .ok message := by
  constructor
  · intro messages calls portable fits arrives
    obtain ⟨drains, lines⟩ := LineDecoder.run_decodeRest_eq_split maxLineLength calls
    refine ⟨drains, ?_⟩
    rw [lines, arrives, split_sent portable fits, received_lines portable]
  · intro text message its exact
    exact (portable_of_read its exact).read_line

/-- What a share is submitted with. -/
def shareParams : Json :=
  .array [.string "caf\u00e9 \"1\"\n", .object [("a", .null), ("b", .ofNatural 7)]]

/-- What is wrong with a share. -/
def shareFault : Json :=
  .array [.number (.negative 22), .bool false]

theorem shareParams_exact : shareParams.Exact := by
  have exact : Json.Exact (.object [("a", .null), ("b", .ofNatural 7)]) :=
    .object (by simp [Json.Exact.null, Json.Exact.natural, Json.ofNatural])
  exact .array (by simp [Json.Exact.string, exact])

theorem shareParams_held : shareParams.Held (Json.maxDepth - 1) := by
  have order : ("a" : String) < "b" := by decide
  have held : Json.Held 1 (.object [("a", .null), ("b", .ofNatural 7)]) :=
    .object (List.pairwise_pair.mpr order)
      (by simp [Json.Held.null, Json.Held.number, Json.ofNatural])
  have whole : Json.Held 2 shareParams := .array (by simp [Json.Held.string, held])
  exact whole.mono (by decide)

theorem shareFault_exact : shareFault.Exact :=
  .array (by simp [Json.Exact.negative, Json.Exact.bool])

theorem shareFault_held : shareFault.Held (Json.maxDepth - 1) := by
  have whole : Json.Held 1 shareFault := .array (by simp [Json.Held.number, Json.Held.bool])
  exact whole.mono (by decide)

/-- A share and its answer come in two fragments, cut in the first line, and a line is asked for
between them.  An answer that is written as an array is read again from its own line. -/
theorem sent_received_sample :
    let exchange : List Message :=
      [.request 5 "mining.submit" shareParams, .response 5 none (some shareFault)]
    let calls : List LineDecoder.Call :=
      [.append ((sent exchange).take 40), .decode, .append ((sent exchange).drop 40)]
    (∀ message ∈ exchange, message.Portable) ∧
      Incoming.received ((LineDecoder.run maxLineLength calls).1 ++
        (LineDecoder.run maxLineLength calls).2.decodeRest.1) = exchange.map .ok ∧
      read "[7,null,null,[1]]" = .ok (.response 7 (some (.array [.ofNatural 1])) none) ∧
      read (response 7 (some (.array [.ofNatural 1])) none).line =
        .ok (.response 7 (some (.array [.ofNatural 1])) none) := by
  intro exchange calls
  have arrives : LineDecoder.stream calls = sent exchange := by
    simp [calls, LineDecoder.stream, LineDecoder.Call.bytes]
  have portable : ∀ message ∈ exchange, message.Portable := by
    intro message inside
    simp only [exchange, List.mem_cons, List.not_mem_nil, or_false] at inside
    rcases inside with rfl | rfl
    · exact
        { proper := by simp [parts, shareParams]
          exact := by simp [parts, shareParams_exact]
          held := by simp [parts, shareParams_held] }
    · exact
        { proper := by simp [parts, shareFault]
          exact := by simp [parts, shareFault_exact]
          held := by simp [parts, shareFault_held] }
  have fits : ∀ message ∈ exchange, (Utf8.encode message.line).length ≤ maxLineLength := by
    decide +kernel
  have whole : read "[7,null,null,[1]]" = .ok (.response 7 (some (.array [.ofNatural 1])) none) :=
    rfl
  refine ⟨portable, (sent_received.1 exchange calls portable fits arrives).2, whole, ?_⟩
  refine sent_received.2 _ _ whole ?_
  have exact : Json.Exact (.array [.ofNatural 1]) :=
    .array (by simp [Json.Exact.natural, Json.ofNatural])
  simp [parts, exact]

end Message

end StratumMiner
