import Mathlib
import StratumMiner.Proofs.Json.Reading
import StratumMiner.Proofs.Json.RoundTrip
import StratumMiner.Proofs.Pool.Verdict

/-!
# Messages as lines

A message is read back from its line if its parts are proper values: not null, which would count as
missing, without doubles, and held no deeper than the object of the message leaves room for.  The
parts of a message that has been read are never null and always held so, whether its fields came as
an object or as an array.
-/

namespace StratumMiner.Message

variable {fields : Fields} {name : String} {value : Json} {message : Message}
  {chars rest : List Char}

/-- The values that a message carries besides its id and its method. -/
def parts : Message → List Json
  | .request _ _ params | .notification _ params => [params]
  | .response _ result error => result.toList ++ error.toList

/-- Whether the parts of a message come through a line unchanged. -/
structure Portable (message : Message) : Prop where
  proper : ∀ part ∈ message.parts, part ≠ .null
  exact : ∀ part ∈ message.parts, part.Exact
  /-- The object of the message is one level of all that may be nested. -/
  held : ∀ part ∈ message.parts, part.Held (Json.maxDepth - 1)

/-! ## The fields that are written -/

/-- The fields of a message as they are written. -/
def written (message : Message) : Fields :=
  message.toJson.object?.getD []

@[simp] theorem written_request (id : UInt64) (method : String) (params : Json) :
    (request id method params).written =
      [("id", .ofNatural id), ("method", .string method), ("params", params)] := rfl

@[simp] theorem written_response (id : UInt64) (result error : Option Json) :
    (response id result error).written =
      [("id", .ofNatural id), ("result", result.getD .null), ("error", error.getD .null)] := rfl

@[simp] theorem written_notification (method : String) (params : Json) :
    (notification method params).written =
      [("id", .null), ("method", .string method), ("params", params)] := rfl

theorem toJson_eq (message : Message) : message.toJson = .object message.written := by
  cases message <;> rfl

theorem toList_line (message : Message) :
    message.line.toList = '\x7b' :: (Json.membersChars message.written ++ ['\x7d']) := by
  rw [line, Json.text, String.toList_ofList, toJson_eq, Json.chars]
  rfl

/-- No field is written twice. -/
theorem hasDuplicate_written (message : Message) : hasDuplicate message.written = false := by
  cases message <;> simp [hasDuplicate, fieldNames]

theorem givenOnce_written (message : Message) (known : name ∈ fieldNames) :
    GivenOnce message.written name :=
  givenOnce_of_not_hasDuplicate message.hasDuplicate_written known

theorem known_of_mem_written (given : (name, value) ∈ message.written) : name ∈ fieldNames := by
  cases message <;>
    simp only [written_request, written_response, written_notification, List.mem_cons,
      Prod.mk.injEq, List.not_mem_nil, or_false] at given <;>
    rcases given with ⟨rfl, -⟩ | ⟨rfl, -⟩ | ⟨rfl, -⟩ <;> decide

/-- What holds of null, of ids and methods and of the parts of a message holds of all its fields. -/
theorem forall_written {Property : Json → Prop} (null : Property .null)
    (id : ∀ id, Property (.ofNatural id)) (method : ∀ method, Property (.string method))
    (parts : ∀ part ∈ message.parts, Property part) :
    ∀ field ∈ message.written, Property field.2 := by
  have missing (value? : Option Json) (given : ∀ value ∈ value?, Property value) :
      Property (value?.getD .null) := by
    cases value? with
    | none => exact null
    | some value => exact given value rfl
  cases message with
  | request id method params => simp_all [Message.parts]
  | response id result error => simp_all [Message.parts]
  | notification method params => simp_all [Message.parts]

theorem Portable.written_exact (portable : message.Portable) :
    ∀ field ∈ message.written, field.2.Exact :=
  forall_written .null (fun id => .natural id) (fun method => .string method) portable.exact

theorem Portable.written_held (portable : message.Portable) :
    ∀ field ∈ message.written, field.2.Held (Json.maxDepth - 1) :=
  forall_written .null (fun _ => .number _) (fun method => .string method) portable.held

/-! ## Reading a line back -/

/-- A line has the fields that its message was written with. -/
theorem Portable.readFields_line (portable : message.Portable) :
    readFields message.line.toList = some (message.written, []) := by
  have count := Json.length_le_membersChars message.written
  rw [toList_line]
  obtain ⟨limit, bound⟩ : ∃ limit,
      ('\x7b' :: (Json.membersChars message.written ++ ['\x7d'])).length = limit := ⟨_, rfl⟩
  have size : (Json.membersChars message.written).length + 2 = limit := by simp [← bound]
  have reads : ∀ field ∈ message.written, Json.ReadsBack
      (if fieldNames.contains field.1 then Json.readValue .kept limit (Json.maxDepth - 1)
        else Json.readValue .shapeOnly limit limit) field.2 := by
    intro field given
    have part := Json.length_chars_le_membersChars given
    rw [if_pos (List.contains_iff_mem.mpr (known_of_mem_written given))]
    exact (portable.written_held field given).readsBack (portable.written_exact field given)
      (by omega)
  have object := @Json.readObject_membersChars [] limit
    (fun name => if fieldNames.contains name then Json.readValue .kept limit (Json.maxDepth - 1)
      else Json.readValue .shapeOnly limit limit) message.written reads (by omega)
  simp only [readFields, Json.skipSpace_of_visible (show Json.isSpace '\x7b' = false from rfl),
    bound, object, hasDuplicate_written, Bool.false_eq_true, if_false]

theorem field?_of_mem (once : GivenOnce fields name) {value? : Option Json}
    (given : (name, value?.getD .null) ∈ fields) (proper : ∀ value ∈ value?, value ≠ .null) :
    field? fields name = value? := by
  cases value? with
  | none =>
      refine (field?_eq_none_iff once).mpr ?_
      exact fun value its => once its given
  | some value => exact (field?_eq_some_iff once (proper value rfl)).mpr given

/-- The fields that a message was written with say what it was. -/
theorem ofFields_written (proper : ∀ part ∈ message.parts, part ≠ .null) :
    ofFields message.written = .ok message := by
  have field (name : String) (known : name ∈ fieldNames) (value? : Option Json)
      (given : (name, value?.getD .null) ∈ message.written)
      (proper : ∀ value ∈ value?, value ≠ .null) : field? message.written name = value? :=
    field?_of_mem (message.givenOnce_written known) given proper
  cases message with
  | request id method params =>
      have idRead := field "id" (by decide) (some (.ofNatural id)) (by simp)
        (by simp [Json.ofNatural])
      have methodRead := field "method" (by decide) (some (.string method)) (by simp) (by simp)
      have paramsRead := field "params" (by decide) (some params) (by simp)
        (by simpa [parts] using proper)
      rw [ofFields, idRead, methodRead, paramsRead]
      rfl
  | response id result error =>
      have idRead := field "id" (by decide) (some (.ofNatural id)) (by simp)
        (by simp [Json.ofNatural])
      have methodRead : field? (response id result error).written "method" = none := by
        simp [field?]
      have resultRead := field "result" (by decide) result (by simp)
        (fun part its => proper part (by simp_all [parts]))
      have errorRead := field "error" (by decide) error (by simp)
        (fun part its => proper part (by simp_all [parts]))
      rw [ofFields, idRead, methodRead, resultRead, errorRead]
      rfl
  | notification method params =>
      have idRead := field "id" (by decide) none (by simp) (by simp)
      have methodRead := field "method" (by decide) (some (.string method)) (by simp) (by simp)
      have paramsRead := field "params" (by decide) (some params) (by simp)
        (by simpa [parts] using proper)
      rw [ofFields, idRead, methodRead, paramsRead]
      rfl

/-- A message is read back from its line. -/
theorem Portable.read_line (portable : message.Portable) :
    read message.line = .ok message := by
  simp only [read, portable.readFields_line, ofFields_written portable.proper]
  rfl

/-! ## What has been read -/

/-- A field that counts is not null. -/
theorem mem_of_field? (counts : field? fields name = some value) :
    (name, value) ∈ fields ∧ value ≠ .null := by
  cases found : fields.find? fun field => field.1 == name with
  | none => simp [field?, found] at counts
  | some field =>
      obtain ⟨other, first⟩ := field
      obtain rfl : other = name := beq_iff_eq.mp (List.find?_some found :)
      have given := List.mem_of_find?_eq_some found
      cases first <;> simp only [field?, found, Option.some.injEq, reduceCtorEq] at counts <;>
        exact ⟨counts ▸ given, by simp [← counts]⟩

/-- The fields of a line nest no deeper than the object of the message leaves room for. -/
theorem readFields_held (read : readFields chars = some (fields, rest)) (known : name ∈ fieldNames)
    (given : (name, value) ∈ fields) : value.Held (Json.maxDepth - 1) := by
  simp only [readFields] at read
  split at read
  · split at read
    · cases read
    · next object =>
        split at read
        · cases read
        · obtain ⟨rfl, rfl⟩ := Prod.mk.inj (Option.some.inj read)
          refine @Json.readObject_forall _ _ _ _ _ _
            (fun field => field.1 ∈ fieldNames → field.2.Held (Json.maxDepth - 1)) ?_ object _
            given known
          intro key chars value rest readEq keyKnown
          rw [if_pos (List.contains_iff_mem.mpr keyKnown)] at readEq
          exact Json.readValue_held readEq
  · split at read
    · cases read
    · next array =>
        split at read
        · obtain ⟨rfl, rfl⟩ := Prod.mk.inj (Option.some.inj read)
          exact Json.readArray_forall (fun _ _ _ => Json.readValue_held) array _
            (List.of_mem_zip given).2
        · cases read
  · cases read

/-- The parts of a message are fields that count; parameters may also be an empty list instead. -/
theorem ofFields_parts (made : ofFields fields = .ok message) :
    ∀ part ∈ message.parts, part = .array [] ∨
      ∃ name ∈ fieldNames, field? fields name = some part := by
  have params : ∀ part ∈ [(field? fields "params").getD (.array [])], part = .array [] ∨
      ∃ name ∈ fieldNames, field? fields name = some part := by
    intro part inside
    obtain rfl := List.mem_singleton.mp inside
    cases given : field? fields "params" with
    | none => exact .inl rfl
    | some params => exact .inr ⟨"params", by decide, given⟩
  cases ofFields_madeOf made with
  | request id method => exact params
  | response id =>
      intro part inside
      rcases List.mem_append.mp inside with result | error
      · exact .inr ⟨"result", by decide, Option.mem_toList.mp result⟩
      · exact .inr ⟨"error", by decide, Option.mem_toList.mp error⟩
  | notification method => exact params

/-- A message that has been read comes through a line unchanged if it holds no doubles. -/
theorem portable_of_read {line : String} (its : read line = .ok message)
    (exact : ∀ part ∈ message.parts, part.Exact) : message.Portable := by
  obtain ⟨fields, rest, fieldsRead, made⟩ := read_eq_ok its
  have origin := ofFields_parts made
  refine { proper := ?_, exact, held := ?_ }
  · intro part inside
    rcases origin part inside with rfl | ⟨name, known, counts⟩
    · simp
    · exact (mem_of_field? counts).2
  · intro part inside
    rcases origin part inside with rfl | ⟨name, known, counts⟩
    · have empty : Json.Held 1 (.array []) := .array (by simp)
      exact empty.mono (by decide)
    · exact readFields_held fieldsRead known (mem_of_field? counts).1

end StratumMiner.Message
