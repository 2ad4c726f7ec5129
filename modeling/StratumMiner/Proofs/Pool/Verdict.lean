import Mathlib
import StratumMiner.Proofs.Pool.Session

/-!
# What an answer to a share says

The pool accepts a share by an answer whose result is true and that bears no error, and rejects it
by any other.  In the line that holds the answer, the field `result` is true then, and the field
`error` is null if it is there at all.
-/

namespace StratumMiner

namespace Message

/-- A field is given at most once. -/
def GivenOnce (fields : Fields) (name : String) : Prop :=
  ∀ ⦃one other⦄, (name, one) ∈ fields → (name, other) ∈ fields → one = other

variable {fields : Fields} {name : String}

theorem givenOnce_of_not_hasDuplicate (single : hasDuplicate fields = false)
    (known : name ∈ fieldNames) : GivenOnce fields name := by
  intro one other first second
  have few := List.any_eq_false.mp single name known
  rw [decide_eq_true_iff, not_lt] at few
  have inFirst : (name, one) ∈ fields.filter fun field => field.1 == name :=
    List.mem_filter.mpr ⟨first, beq_self_eq_true name⟩
  have inSecond : (name, other) ∈ fields.filter fun field => field.1 == name :=
    List.mem_filter.mpr ⟨second, beq_self_eq_true name⟩
  match its : fields.filter fun field => field.1 == name with
  | [] => simp [its] at inFirst
  | [field] =>
      rw [its, List.mem_singleton] at inFirst inSecond
      exact (Prod.mk.inj (inFirst.trans inSecond.symm)).2
  | field :: next :: others => simp [its] at few

theorem givenOnce_zip (values : List Json) : GivenOnce (fieldNames.zip values) name := by
  intro one other first second
  obtain ⟨i, inside, here⟩ := List.mem_iff_getElem.mp first
  obtain ⟨j, alsoInside, there⟩ := List.mem_iff_getElem.mp second
  rw [List.getElem_zip, Prod.mk.injEq] at here there
  have distinct : fieldNames.Nodup := by decide
  obtain rfl : i = j := distinct.getElem_inj_iff.mp (here.1.trans there.1.symm)
  exact here.2.symm.trans there.2

/-- The fields of a line are given at most once. -/
theorem readFields_givenOnce {chars rest : List Char}
    (read : readFields chars = some (fields, rest)) (known : name ∈ fieldNames) :
    GivenOnce fields name := by
  simp only [readFields] at read
  split at read
  · split at read
    · cases read
    · split at read
      · cases read
      · next single =>
          obtain ⟨rfl, rfl⟩ := Prod.mk.inj (Option.some.inj read)
          exact givenOnce_of_not_hasDuplicate (Bool.eq_false_of_not_eq_true single) known
  · split at read
    · cases read
    · split at read
      · obtain ⟨rfl, rfl⟩ := Prod.mk.inj (Option.some.inj read)
        exact givenOnce_zip _
      · cases read
  · cases read

/-- A field counts unless it is missing or null. -/
theorem field?_cases (once : GivenOnce fields name) :
    (∀ value, (name, value) ∈ fields → value = .null) ∧ field? fields name = none ∨
      ∃ value, value ≠ .null ∧ (name, value) ∈ fields ∧ field? fields name = some value := by
  cases found : fields.find? fun field => field.1 == name with
  | none =>
      refine .inl ⟨fun value given => ?_, by simp only [field?, found]⟩
      exact absurd (beq_self_eq_true name) (List.find?_eq_none.mp found _ given)
  | some field =>
      obtain ⟨other, first⟩ := field
      obtain rfl : other = name := beq_iff_eq.mp (List.find?_some found :)
      have given := List.mem_of_find?_eq_some found
      cases first with
      | null => exact .inl ⟨fun value its => once its given, by simp only [field?, found]⟩
      | bool | number | string | array | object =>
          exact .inr ⟨_, by simp, given, by simp only [field?, found]⟩

theorem field?_eq_none_iff (once : GivenOnce fields name) :
    field? fields name = none ↔ ∀ value, (name, value) ∈ fields → value = .null := by
  rcases field?_cases once with ⟨nulls, missing⟩ | ⟨value, proper, given, read⟩
  · simp only [missing, true_iff]
    exact nulls
  · simp only [read, reduceCtorEq, false_iff]
    exact fun nulls => proper (nulls value given)

theorem field?_eq_some_iff (once : GivenOnce fields name) {value : Json}
    (proper : value ≠ .null) : field? fields name = some value ↔ (name, value) ∈ fields := by
  rcases field?_cases once with ⟨nulls, missing⟩ | ⟨other, -, given, read⟩
  · simp only [missing, reduceCtorEq, false_iff]
    exact fun its => proper (nulls value its)
  · rw [read, Option.some.injEq]
    exact ⟨fun same => same ▸ given, fun its => once given its⟩

/-- Where the parts of a message of each kind come from. -/
inductive MadeOf (fields : Fields) : Message → Prop where
  | request (id : UInt64) (method : String) :
      MadeOf fields (.request id method ((field? fields "params").getD (.array [])))
  | response (id : UInt64) :
      MadeOf fields (.response id (field? fields "result") (field? fields "error"))
  | notification (method : String) :
      MadeOf fields (.notification method ((field? fields "params").getD (.array [])))

theorem ofFields_madeOf {message : Message} (made : ofFields fields = .ok message) :
    MadeOf fields message := by
  unfold ofFields at made
  dsimp only at made
  -- Three cases are left of those for the kinds of value that the id and the method may be.
  rcases numbered : field? fields "id" with _ | ⟨_ | _ | (id | _ | _) | _ | _ | _⟩ <;>
  rcases named : field? fields "method" with _ | ⟨_ | _ | _ | method | _ | _⟩ <;>
    rw [numbered, named] at made
  case some.number.natural.none =>
    obtain rfl := Except.ok.inj made
    exact .response id
  case some.number.natural.some.string =>
    obtain rfl := Except.ok.inj made
    exact .request id method
  case none.some.string =>
    obtain rfl := Except.ok.inj made
    exact .notification method
  all_goals cases made

theorem ofFields_eq_response {id : UInt64} {result error : Option Json}
    (made : ofFields fields = .ok (.response id result error)) :
    result = field? fields "result" ∧ error = field? fields "error" := by
  cases ofFields_madeOf made
  exact ⟨rfl, rfl⟩

/-- A message that has been read is the message of the fields of its line. -/
theorem read_eq_ok {line : String} {message : Message} (its : read line = .ok message) :
    ∃ fields rest, readFields line.toList = some (fields, rest) ∧
      ofFields fields = .ok message := by
  simp only [read] at its
  split at its
  · cases its
  · next fields rest readEq =>
      refine ⟨fields, rest, readEq, ?_⟩
      split at its
      · cases its
      · next message made =>
          split at its
          · obtain rfl := Except.ok.inj its
            exact made
          · cases its

/-- Where the parts of an answer come from. -/
theorem read_eq_response {line : String} {id : UInt64} {result error : Option Json}
    (its : read line = .ok (.response id result error)) :
    ∃ fields rest, readFields line.toList = some (fields, rest) ∧
      result = field? fields "result" ∧ error = field? fields "error" := by
  obtain ⟨fields, rest, readEq, made⟩ := read_eq_ok its
  exact ⟨fields, rest, readEq, ofFields_eq_response made⟩

end Message

namespace PoolAnswer

/-- Whether an answer says that a share is accepted. -/
def Accepts (answer : PoolAnswer) : Prop :=
  answer.result = some (.bool true) ∧ answer.error = none

end PoolAnswer

namespace SessionEvent

/-- Whether a line comes whose fields say that a share is accepted. -/
def Accepts : SessionEvent → Prop
  | .line text =>
      ∃ fields rest, Message.readFields (Blank.trim text).toList = some (fields, rest) ∧
        ("result", .bool true) ∈ fields ∧ ∀ value, ("error", value) ∈ fields → value = .null
  | _ => False

/-- What the content of an answer is read from. -/
theorem read_of_answerIn? {text : String} {answer : PoolAnswer}
    (held : answerIn? text = some answer) :
    Message.read (Blank.trim text) = .ok (.response answer.id answer.result answer.error) := by
  unfold answerIn? at held
  split at held
  · next id result error content =>
      obtain rfl := Option.some.inj held
      simp only [Incoming.ofLine] at content
      split_ifs at content
      · cases content
      · simpa only [Option.map_some, Option.some.injEq] using content
  · cases held

theorem accepts_iff {event : SessionEvent} {answer : PoolAnswer}
    (answered : event.answer? = some answer) : event.Accepts ↔ answer.Accepts := by
  cases event with
  | closed | queue | take | wake | tick | shutdown => simp [answer?] at answered
  | line text =>
      obtain ⟨fields, rest, fieldsRead, result, error⟩ :=
        Message.read_eq_response (read_of_answerIn? answered)
      have once (name : String) (known : name ∈ Message.fieldNames) :=
        Message.readFields_givenOnce fieldsRead known
      have proper : Json.bool true ≠ .null := by simp
      simp only [Accepts, PoolAnswer.Accepts, result, error, fieldsRead, Option.some.injEq,
        Prod.mk.injEq, Message.field?_eq_some_iff (once "result" (by decide)) proper,
        Message.field?_eq_none_iff (once "error" (by decide))]
      constructor
      · rintro ⟨_, _, ⟨rfl, rfl⟩, accepts⟩
        exact accepts
      · exact fun accepts => ⟨fields, rest, ⟨rfl, rfl⟩, accepts⟩

end SessionEvent

/-- The verdict of the pool on a share. -/
structure ShareVerdict where
  accepted : Bool
  jobId : String
  nonce : UInt32
  deriving DecidableEq

/-- The verdict that an event tells. -/
def PoolEvent.verdict? : PoolEvent → Option ShareVerdict
  | .shareAccepted jobId nonce _ => some { accepted := true, jobId, nonce }
  | .shareRejected jobId nonce _ _ => some { accepted := false, jobId, nonce }
  | _ => none

namespace Client

/-- A verdict is on the job and the nonce of its share, and as the answer says. -/
theorem verdict?_verdict (share : PendingShare) (latency : Duration) (answer : PoolAnswer) :
    ∃ accepted, (verdict share latency answer.result answer.error).verdict? =
        some { accepted, jobId := share.jobId, nonce := share.nonce } ∧
      (accepted = true ↔ answer.Accepts) := by
  unfold verdict PoolAnswer.Accepts
  split
  · next result error => exact ⟨true, rfl, by simp [result, error]⟩
  · next error => exact ⟨false, rfl, by simp [error]⟩
  · next error refused =>
      refine ⟨false, rfl, ?_⟩
      simp only [Bool.false_eq_true, false_iff, not_and]
      exact fun result _ => refused result

end Client

end StratumMiner
