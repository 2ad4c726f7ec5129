import Mathlib
import StratumMiner.Pool.Notice
import StratumMiner.Proofs.Text.HexReading

/-!
# What an accepted notice says

A notice that announces a job holds, at its place, the text of each field of the job.  The readers
are opened here once, field by field, so that what is said of jobs further on never looks into them.
-/

namespace StratumMiner

/-! ## Readers that stop at the first fault -/

/-- Two readers in a row succeed when each does. -/
theorem Except.bind_eq_ok_iff {Fault Value Result : Type} {read : Except Fault Value}
    {next : Value → Except Fault Result} {result : Result} :
    read >>= next = .ok result ↔ ∃ value, read = .ok value ∧ next value = .ok result := by
  cases read with
  | error fault => simp [bind, Except.bind]
  | ok value => simp [bind, Except.bind]

/-- A list of items is read when each item is. -/
theorem Except.mapM_eq_ok_iff {Fault Item Value : Type} {read : Item → Except Fault Value}
    {items : List Item} {values : List Value} :
    items.mapM read = .ok values ↔
      List.Forall₂ (fun item value => read item = .ok value) items values := by
  induction items generalizing values with
  | nil => cases values <;> simp [pure, Except.pure]
  | cons item items ih =>
      rw [List.mapM_cons, Except.bind_eq_ok_iff]
      constructor
      · rintro ⟨value, first, rest⟩
        obtain ⟨others, restEq, same⟩ := Except.bind_eq_ok_iff.mp rest
        cases same
        exact .cons first (ih.mp restEq)
      · intro related
        cases related with
        | cons first rest =>
            exact ⟨_, first, Except.bind_eq_ok_iff.mpr ⟨_, ih.mpr rest, rfl⟩⟩

namespace Json

/-- The bytes that a string spells. -/
def spelled? (value : Json) : Option Bytes := do
  HexReading.bytes? (← value.string?).toList

/-- The number that a string spells. -/
def numeral? (value : Json) : Option Nat := do
  HexReading.number? (← value.string?).toList

end Json

namespace Job

/-! ## The readers of single values -/

theorem readText_eq_ok_iff {field : NoticeField} {value : Json} {text : String} :
    readText field value = .ok text ↔ value = .string text := by
  unfold readText
  split
  · next found => simp
  · next notString =>
      constructor
      · intro read
        cases read
      · intro same
        exact absurd same (notString text)

theorem readFlag_eq_ok_iff {field : NoticeField} {value : Json} {flag : Bool} :
    readFlag field value = .ok flag ↔ value = .bool flag := by
  unfold readFlag
  split
  · next found => simp
  · next notBool =>
      constructor
      · intro read
        cases read
      · intro same
        exact absurd same (notBool flag)

theorem spelled?_of_readBytes {field : NoticeField} {value : Json} {bytes : Bytes}
    (read : readBytes field value = .ok bytes) : value.spelled? = some bytes := by
  obtain ⟨text, textEq, rest⟩ := Except.bind_eq_ok_iff.mp read
  cases readText_eq_ok_iff.mp textEq
  split at rest
  · next decoded =>
      cases rest
      exact HexReading.bytes?_of_decode decoded
  · cases rest

theorem spelled?_of_readBytes32 {field : NoticeField} {value : Json} {bytes : Bytes32}
    (read : readBytes32 field value = .ok bytes) : value.spelled? = some bytes.toList := by
  obtain ⟨list, listEq, rest⟩ := Except.bind_eq_ok_iff.mp read
  rw [spelled?_of_readBytes listEq]
  split at rest
  · next vectorEq =>
      cases rest
      rw [Bytes.toVector?_eq_some_iff.mp vectorEq]
  · cases rest

/-- A word is read from eight bytes of text that are taken for its number. -/
theorem readWord_string_iff {field : NoticeField} {text : String} {word : UInt32} :
    readWord field (.string text) = .ok word ↔
      text.utf8ByteSize = 8 ∧
        Digits.parseHex (UInt32.size - 1) text.toList = .ok word.toNat := by
  constructor
  · intro read
    rcases Except.bind_eq_ok_iff.mp read with ⟨_, isText, rest⟩
    cases readText_eq_ok_iff.mp isText
    split at rest
    · next size =>
        split at rest
        · next number parsed =>
            cases rest
            have fits : number < UInt32.size :=
              Nat.lt_of_le_pred (by decide) (HexReading.le_of_parseHex parsed)
            rw [UInt32.toNat_ofNat_of_lt' fits]
            exact ⟨size, parsed⟩
        · cases rest
    · cases rest
  · intro parts
    rcases parts with ⟨size, parsed⟩
    simp only [readWord, readText, bind, Except.bind, size, parsed, if_true, UInt32.ofNat_toNat]

theorem numeral?_of_readWord {field : NoticeField} {value : Json} {word : UInt32}
    (read : readWord field value = .ok word) : value.numeral? = some word.toNat := by
  cases value with
  | null | bool | number | array | object => cases read
  | string text => exact HexReading.number?_of_parseHex (readWord_string_iff.mp read).2

/-- Branches that have been read are the bytes that the items of the list spell. -/
theorem array?_of_readBranches {value : Json} {branches : List Bytes32}
    (read : readBranches value = .ok branches) :
    ∃ items, value = .array items ∧
      List.Forall₂ (fun item branch => item.spelled? = some branch.toList) items branches := by
  unfold readBranches at read
  split at read
  · next items =>
      exact ⟨items, rfl, (Except.mapM_eq_ok_iff.mp read).imp fun _ _ => spelled?_of_readBytes32⟩
  · cases read

/-! ## The notice of a job -/

/-- The values of a notice, each saying the field of the job at its place. -/
inductive Announces (job : Job) : List Json → Prop where
  | intro {prevHash : Bytes32} {prevHashValue coinbase1 coinbase2 version nbits ntime : Json}
      {branches others : List Json}
      (prevHashEq : prevHashValue.spelled? = some prevHash.toList)
      (inOrder : job.prevHash = swapWords prevHash)
      (coinbase1Eq : coinbase1.spelled? = some job.coinbase1)
      (coinbase2Eq : coinbase2.spelled? = some job.coinbase2)
      (branchesEq : List.Forall₂ (fun item branch => item.spelled? = some branch.toList)
        branches job.branches)
      (versionEq : version.numeral? = some job.version.toNat)
      (nbitsEq : nbits.numeral? = some job.nbits.toNat)
      (ntimeEq : ntime.numeral? = some job.ntime.toNat) :
      Announces job (.string job.id :: prevHashValue :: coinbase1 :: coinbase2 ::
        .array branches :: version :: nbits :: ntime :: .bool job.clean :: others)

/-- A notice that is accepted says each field of the job. -/
theorem announces_of_ofNotice {values : List Json} {job : Job}
    (accepted : ofNotice values = .ok job) : job.Announces values := by
  unfold ofNotice at accepted
  split at accepted
  · obtain ⟨id, idEq, rest⟩ := Except.bind_eq_ok_iff.mp accepted
    obtain ⟨prevHash, prevHashEq, rest⟩ := Except.bind_eq_ok_iff.mp rest
    obtain ⟨coinbase1, coinbase1Eq, rest⟩ := Except.bind_eq_ok_iff.mp rest
    obtain ⟨coinbase2, coinbase2Eq, rest⟩ := Except.bind_eq_ok_iff.mp rest
    obtain ⟨branches, branchesEq, rest⟩ := Except.bind_eq_ok_iff.mp rest
    obtain ⟨version, versionEq, rest⟩ := Except.bind_eq_ok_iff.mp rest
    obtain ⟨nbits, nbitsEq, rest⟩ := Except.bind_eq_ok_iff.mp rest
    obtain ⟨ntime, ntimeEq, rest⟩ := Except.bind_eq_ok_iff.mp rest
    obtain ⟨clean, cleanEq, rest⟩ := Except.bind_eq_ok_iff.mp rest
    cases rest
    cases readText_eq_ok_iff.mp idEq
    cases readFlag_eq_ok_iff.mp cleanEq
    obtain ⟨items, rfl, itemsEq⟩ := array?_of_readBranches branchesEq
    exact .intro (spelled?_of_readBytes32 prevHashEq) rfl (spelled?_of_readBytes coinbase1Eq)
      (spelled?_of_readBytes coinbase2Eq) itemsEq (numeral?_of_readWord versionEq)
      (numeral?_of_readWord nbitsEq) (numeral?_of_readWord ntimeEq)
  · cases accepted

end Job

end StratumMiner
