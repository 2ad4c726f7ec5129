import Mathlib
import StratumMiner.Proofs.Pool.NoticeRoundTrip
import StratumMiner.Proofs.Text.HexGrammar

/-!
# Which notices announce a job

A notice has nine values and perhaps more: an id, 64 digits, two texts with an even number of
digits, a list of texts with 64 digits each, three texts with eight digits and a truth value.  Every
notice of this form announces a job, and the job's own notice has the same nine values but for the
case of letters.  No other values announce a job, with one exception: the first digit of the three
numbers may be a plus sign, which is read as a zero.
-/

namespace StratumMiner

namespace Json

/-- A text with a zero in the place of a plus sign before it. -/
def unsigned : Json → Json
  | .string text => .string (Hex.unsigned text)
  | value => value

/-- A text in lower case. -/
def lowerText : Json → Json
  | .string text => .string (text.map Char.toLower)
  | value => value

/-- A text in lower case, or a list with its texts in lower case. -/
def lowerCase : Json → Json
  | .array items => .array (items.map lowerText)
  | value => value.lowerText

theorem lowerText_eq {left right : String} (same : Hex.SameDigits left right) :
    lowerText (.string left) = lowerText (.string right) := by
  simp only [lowerText, Json.string.injEq, ← String.toList_inj, String.toList_map]
  exact same

end Json

namespace Job

/-! ## The form of a notice -/

/-- The values have the form of a notice. -/
inductive IsNotice : List Json → Prop where
  | intro {id prevHash coinbase1 coinbase2 version nbits ntime : String} {branches : List String}
      {clean : Bool} {others : List Json}
      (prevHashDigits : Hex.HasDigits 64 prevHash)
      (coinbase1Even : Even coinbase1.length)
      (coinbase1Digits : ∀ char ∈ coinbase1.toList, Hex.IsDigit char)
      (coinbase2Even : Even coinbase2.length)
      (coinbase2Digits : ∀ char ∈ coinbase2.toList, Hex.IsDigit char)
      (branchDigits : ∀ branch ∈ branches, Hex.HasDigits 64 branch)
      (versionDigits : Hex.HasDigits 8 version)
      (nbitsDigits : Hex.HasDigits 8 nbits)
      (ntimeDigits : Hex.HasDigits 8 ntime) :
      IsNotice (.string id :: .string prevHash :: .string coinbase1 :: .string coinbase2 ::
        .array (branches.map .string) :: .string version :: .string nbits :: .string ntime ::
        .bool clean :: others)

theorem IsNotice.version {values : List Json} (notice : IsNotice values) :
    ∃ text, values[5]? = some (.string text) ∧ Hex.HasDigits 8 text := by
  cases notice with
  | intro _ _ _ _ _ _ versionDigits _ _ => exact ⟨_, rfl, versionDigits⟩

/-- The same values, but for the case of letters behind the id. -/
def SameNotice (left right : List Json) : Prop :=
  left.head? = right.head? ∧ left.tail.map Json.lowerCase = right.tail.map Json.lowerCase

/-- None of the three numbers of a notice begins with a plus sign. -/
def Unsigned (values : List Json) : Prop :=
  ∀ index ∈ [5, 6, 7], ∀ text, values[index]? = some (.string text) →
    text.toList.head? ≠ some '+'

/-- The values with zeros in the place of plus signs before the three numbers. -/
def unsignedNumbers : List Json → List Json
  | id :: prevHash :: coinbase1 :: coinbase2 :: branches :: version :: nbits :: ntime :: others =>
      id :: prevHash :: coinbase1 :: coinbase2 :: branches :: version.unsigned :: nbits.unsigned ::
        ntime.unsigned :: others
  | values => values

theorem unsigned_eq_self {value : Json}
    (unsigned : ∀ text, value = .string text → text.toList.head? ≠ some '+') :
    value.unsigned = value := by
  cases value with
  | null | bool | number | array | object => rfl
  | string text => rw [Json.unsigned, Hex.unsigned_of_head? (unsigned text rfl)]

theorem unsignedNumbers_eq_self {values : List Json} (unsigned : Unsigned values) :
    unsignedNumbers values = values := by
  rw [unsignedNumbers.eq_def]
  split
  · rw [unsigned_eq_self fun text same => unsigned 5 (by simp) text (congrArg some same),
      unsigned_eq_self fun text same => unsigned 6 (by simp) text (congrArg some same),
      unsigned_eq_self fun text same => unsigned 7 (by simp) text (congrArg some same)]
  · rfl

/-! ## What the readers take -/

/-- Bytes are read from the texts of bytes. -/
theorem readBytes_eq_ok_iff {field : NoticeField} {value : Json} {bytes : Bytes} :
    readBytes field value = .ok bytes ↔
      ∃ text, value = .string text ∧ Hex.SameDigits text (Hex.encode bytes) := by
  constructor
  · intro read
    rcases Except.bind_eq_ok_iff.mp read with ⟨text, isText, rest⟩
    refine ⟨text, readText_eq_ok_iff.mp isText, ?_⟩
    split at rest
    · next decoded =>
        cases rest
        exact Hex.decode_eq_ok_iff.mp decoded
    · cases rest
  · intro written
    rcases written with ⟨text, rfl, same⟩
    exact readBytes_of_sameDigits same

theorem readBytes32_eq_ok_iff {field : NoticeField} {value : Json} {bytes : Bytes32} :
    readBytes32 field value = .ok bytes ↔
      ∃ text, value = .string text ∧ Hex.SameDigits text (Hex.encode bytes.toList) := by
  constructor
  · intro read
    rcases Except.bind_eq_ok_iff.mp read with ⟨list, listRead, rest⟩
    split at rest
    · next made =>
        cases rest
        cases Bytes.toVector?_eq_some_iff.mp made
        exact readBytes_eq_ok_iff.mp listRead
    · cases rest
  · intro written
    rcases written with ⟨text, rfl, same⟩
    exact readBytes32_of_sameDigits same

/-- Values that are texts are the texts of a list. -/
theorem forall₂_strings {Value : Type} {Tells : String → Value → Prop} {items : List Json}
    {values : List Value}
    (told : List.Forall₂ (fun item value => ∃ text, item = .string text ∧ Tells text value) items
      values) :
    ∃ texts, items = texts.map .string ∧ List.Forall₂ Tells texts values := by
  induction told with
  | nil => exact ⟨[], rfl, .nil⟩
  | cons first _ ih =>
      rcases first with ⟨text, rfl, firstTells⟩
      rcases ih with ⟨texts, rfl, rest⟩
      exact ⟨text :: texts, rfl, .cons firstTells rest⟩

theorem readBranches_eq_ok_iff {value : Json} {branches : List Bytes32} :
    readBranches value = .ok branches ↔
      ∃ texts, value = .array (texts.map .string) ∧
        List.Forall₂ (fun text branch => Hex.SameDigits text (Hex.encode branch.toList)) texts
          branches := by
  constructor
  · intro read
    rw [readBranches.eq_def] at read
    split at read
    · next items =>
        simp only [Except.mapM_eq_ok_iff, readBytes32_eq_ok_iff] at read
        rcases forall₂_strings read with ⟨texts, rfl, same⟩
        exact ⟨texts, rfl, same⟩
    · cases read
  · intro written
    rcases written with ⟨texts, rfl, same⟩
    exact readBranches_of_sameDigits same

/-- But for a plus sign, a word is read from its texts. -/
theorem readWord_eq_ok_iff {field : NoticeField} {value : Json} {word : UInt32} :
    readWord field value = .ok word ↔
      ∃ text, value.unsigned = .string text ∧ Hex.SameDigits text (Hex.padded 8 word.toNat) := by
  cases value with
  | null | bool | number | array | object =>
      constructor
      · intro read
        cases read
      · intro written
        rcases written with ⟨_, isText, -⟩
        cases isText
  | string text =>
      rw [readWord_string_iff, ← Hex.sameDigits_unsigned_iff]
      simp only [Json.unsigned, Json.string.injEq, exists_eq_left']

theorem readWord_unsigned {field : NoticeField} {value : Json} {word : UInt32} :
    readWord field value.unsigned = .ok word ↔ readWord field value = .ok word := by
  cases value with
  | null | bool | number | array | object => rfl
  | string text =>
      rw [Json.unsigned, readWord_string_iff, readWord_string_iff, Hex.parseHex_unsigned_iff]

/-! ## The whole notice -/

theorem ofNotice_unsignedNumbers {values : List Json} {job : Job} :
    ofNotice (unsignedNumbers values) = .ok job ↔ ofNotice values = .ok job := by
  rw [unsignedNumbers.eq_def]
  split
  · next others =>
      cases others with
      | nil => exact Iff.rfl
      | cons clean others => simp only [ofNotice, Except.bind_eq_ok_iff, readWord_unsigned]
  · exact Iff.rfl

/-- The notices that announce a job are the texts of it, with zeros for plus signs. -/
theorem ofNotice_eq_ok_iff {values : List Json} {job : Job} :
    ofNotice values = .ok job ↔ job.WrittenAs (unsignedNumbers values) := by
  constructor
  · intro accepted
    unfold ofNotice at accepted
    split at accepted
    · rcases Except.bind_eq_ok_iff.mp accepted with ⟨id, idRead, rest⟩
      rcases Except.bind_eq_ok_iff.mp rest with ⟨prevHash, prevHashRead, rest⟩
      rcases Except.bind_eq_ok_iff.mp rest with ⟨coinbase1, coinbase1Read, rest⟩
      rcases Except.bind_eq_ok_iff.mp rest with ⟨coinbase2, coinbase2Read, rest⟩
      rcases Except.bind_eq_ok_iff.mp rest with ⟨branches, branchesRead, rest⟩
      rcases Except.bind_eq_ok_iff.mp rest with ⟨version, versionRead, rest⟩
      rcases Except.bind_eq_ok_iff.mp rest with ⟨nbits, nbitsRead, rest⟩
      rcases Except.bind_eq_ok_iff.mp rest with ⟨ntime, ntimeRead, rest⟩
      rcases Except.bind_eq_ok_iff.mp rest with ⟨clean, cleanRead, rest⟩
      cases rest
      cases readText_eq_ok_iff.mp idRead
      cases readFlag_eq_ok_iff.mp cleanRead
      rcases readBytes32_eq_ok_iff.mp prevHashRead with ⟨_, rfl, prevHashSame⟩
      rcases readBytes_eq_ok_iff.mp coinbase1Read with ⟨_, rfl, coinbase1Same⟩
      rcases readBytes_eq_ok_iff.mp coinbase2Read with ⟨_, rfl, coinbase2Same⟩
      rcases readBranches_eq_ok_iff.mp branchesRead with ⟨_, rfl, branchesSame⟩
      rcases readWord_eq_ok_iff.mp versionRead with ⟨_, versionText, versionSame⟩
      rcases readWord_eq_ok_iff.mp nbitsRead with ⟨_, nbitsText, nbitsSame⟩
      rcases readWord_eq_ok_iff.mp ntimeRead with ⟨_, ntimeText, ntimeSame⟩
      rw [unsignedNumbers, versionText, nbitsText, ntimeText]
      refine .intro ?_ coinbase1Same coinbase2Same branchesSame versionSame nbitsSame ntimeSame
      rwa [← Verifier.toList_swapWords, swapWords_swapWords]
    · cases accepted
  · intro written
    exact ofNotice_unsignedNumbers.mp (ofNotice_writtenAs written)

theorem exists_sameDigits_bytes32_iff {text : String} :
    (∃ bytes : Bytes32, Hex.SameDigits text (Hex.encode bytes.toList)) ↔
      Hex.HasDigits 64 text := by
  rw [← @Hex.exists_sameDigits_encode_length_iff text 32]
  constructor
  · intro written
    rcases written with ⟨bytes, same⟩
    exact ⟨bytes.toList, bytes.length_toList, same⟩
  · intro written
    rcases written with ⟨bytes, length, same⟩
    exact ⟨⟨bytes.toArray, by simpa using length⟩, same⟩

theorem exists_forall₂_iff {Item Value : Type} {Tells : Item → Value → Prop} {items : List Item} :
    (∃ values, List.Forall₂ Tells items values) ↔ ∀ item ∈ items, ∃ value, Tells item value := by
  induction items with
  | nil => exact iff_of_true ⟨[], .nil⟩ (List.forall_mem_nil _)
  | cons item items ih =>
      rw [List.forall_mem_cons, ← ih]
      constructor
      · intro told
        rcases told with ⟨_, _ | ⟨first, rest⟩⟩
        exact ⟨⟨_, first⟩, ⟨_, rest⟩⟩
      · intro parts
        rcases parts with ⟨⟨value, first⟩, ⟨values, rest⟩⟩
        exact ⟨value :: values, .cons first rest⟩

/-- The texts of jobs are what notices look like. -/
theorem exists_writtenAs_iff {values : List Json} :
    (∃ job : Job, job.WrittenAs values) ↔ IsNotice values := by
  constructor
  · intro written
    rcases written with ⟨job, written⟩
    cases written with
    | intro prevHashSame coinbase1Same coinbase2Same branchesSame versionSame nbitsSame ntimeSame =>
        rw [← Verifier.toList_swapWords] at prevHashSame
        have coinbase1 := Hex.exists_sameDigits_encode_iff.mp ⟨_, coinbase1Same⟩
        have coinbase2 := Hex.exists_sameDigits_encode_iff.mp ⟨_, coinbase2Same⟩
        have branches := exists_forall₂_iff.mp ⟨_, branchesSame⟩
        simp only [exists_sameDigits_bytes32_iff] at branches
        exact .intro (exists_sameDigits_bytes32_iff.mp ⟨_, prevHashSame⟩) coinbase1.1 coinbase1.2
          coinbase2.1 coinbase2.2 branches (Hex.exists_sameDigits_padded_iff.mp ⟨_, versionSame⟩)
          (Hex.exists_sameDigits_padded_iff.mp ⟨_, nbitsSame⟩)
          (Hex.exists_sameDigits_padded_iff.mp ⟨_, ntimeSame⟩)
  · intro notice
    cases notice with
    | @intro id _ _ _ _ _ _ _ clean _ prevHashDigits coinbase1Even coinbase1Digits coinbase2Even
        coinbase2Digits branchDigits versionDigits nbitsDigits ntimeDigits =>
        rcases exists_sameDigits_bytes32_iff.mpr prevHashDigits with ⟨prevHash, prevHashSame⟩
        rcases Hex.exists_sameDigits_encode_iff.mpr ⟨coinbase1Even, coinbase1Digits⟩ with
          ⟨coinbase1, coinbase1Same⟩
        rcases Hex.exists_sameDigits_encode_iff.mpr ⟨coinbase2Even, coinbase2Digits⟩ with
          ⟨coinbase2, coinbase2Same⟩
        simp only [← exists_sameDigits_bytes32_iff] at branchDigits
        rcases exists_forall₂_iff.mpr branchDigits with ⟨branches, branchesSame⟩
        rcases Hex.exists_sameDigits_padded_iff.mpr versionDigits with ⟨version, versionSame⟩
        rcases Hex.exists_sameDigits_padded_iff.mpr nbitsDigits with ⟨nbits, nbitsSame⟩
        rcases Hex.exists_sameDigits_padded_iff.mpr ntimeDigits with ⟨ntime, ntimeSame⟩
        refine ⟨{ id, prevHash := swapWords prevHash, coinbase1, coinbase2, branches, version,
                  nbits, ntime, clean }, .intro ?_ coinbase1Same coinbase2Same branchesSame
          versionSame nbitsSame ntimeSame⟩
        rwa [← Verifier.toList_swapWords, swapWords_swapWords]

/-- The notice of a job has the values of every other. -/
theorem WrittenAs.sameNotice {job : Job} {values : List Json} (written : job.WrittenAs values) :
    SameNotice job.toNotice (values.take 9) := by
  cases written with
  | @intro _ _ _ _ _ _ texts _ prevHashSame coinbase1Same coinbase2Same branchesSame versionSame
      nbitsSame ntimeSame =>
      rw [← Verifier.toList_swapWords] at prevHashSame
      have branches : (job.branches.map fun branch => Json.lowerText
            (.string (Hex.encode branch.toList))) =
          texts.map fun text => Json.lowerText (.string text) := by
        rw [← List.forall₂_eq_eq_eq, List.forall₂_map_left_iff, List.forall₂_map_right_iff]
        exact (branchesSame.imp fun _ _ same => (Json.lowerText_eq same).symm).flip
      simp only [SameNotice, toNotice, List.take_succ_cons, List.take_zero, List.head?_cons,
        List.tail_cons, List.map_cons, List.map_nil, Json.lowerCase, List.map_map, Function.comp_def,
        branches, Json.lowerText_eq prevHashSame, Json.lowerText_eq coinbase1Same,
        Json.lowerText_eq coinbase2Same, Json.lowerText_eq versionSame, Json.lowerText_eq nbitsSame,
        Json.lowerText_eq ntimeSame, and_self]

/-! ## Exactly the notices -/

theorem exists_ofNotice_iff {values : List Json} :
    (∃ job, ofNotice values = .ok job) ↔ IsNotice (unsignedNumbers values) := by
  simp only [ofNotice_eq_ok_iff, exists_writtenAs_iff]

/-- Values announce a job just when they have the form of a notice, plus signs before the numbers
being zeros, and the notice of the job has the same values again.  Without plus signs this is so of
the values as they are. -/
theorem ofNotice_accepts_grammar (values : List Json) :
    ((∃ job, ofNotice values = .ok job) ↔ IsNotice (unsignedNumbers values)) ∧
      (∀ job, ofNotice values = .ok job →
        SameNotice job.toNotice ((unsignedNumbers values).take 9)) ∧
      (Unsigned values →
        ((∃ job, ofNotice values = .ok job) ↔ IsNotice values) ∧
          ∀ job, ofNotice values = .ok job → SameNotice job.toNotice (values.take 9)) := by
  have accepted := @exists_ofNotice_iff values
  have written : ∀ job, ofNotice values = .ok job →
      SameNotice job.toNotice ((unsignedNumbers values).take 9) := by
    intro job announced
    exact (ofNotice_eq_ok_iff.mp announced).sameNotice
  refine ⟨accepted, written, ?_⟩
  intro unsigned
  rw [unsignedNumbers_eq_self unsigned] at accepted written
  exact ⟨accepted, written⟩

/-- Sixty-four digits with letters of both cases. -/
def sampleHash : String :=
  "6b6455fd6db962c101f2d4fc0d67f4a3bc96391D000152960000000000000000"

/-- A notice with one branch. -/
def noticeOfVersion (version : String) : List Json :=
  [.string "Job1", .string sampleHash, .string "aA", .string "", .array ([sampleHash].map .string),
    .string version, .string "1d00FFFF", .string "5a5a5a5a", .bool true]

theorem isNotice_noticeOfVersion {version : String} (digits : Hex.HasDigits 8 version) :
    IsNotice (noticeOfVersion version) := by
  have hash : Hex.HasDigits 64 sampleHash :=
    ⟨by decide +kernel, by simp [sampleHash, Hex.IsDigit]⟩
  exact .intro hash (by decide) (by simp [Hex.IsDigit]) (by decide) (by simp)
    (List.forall_mem_singleton.mpr hash) digits ⟨by decide, by simp [Hex.IsDigit]⟩
    ⟨by decide, by simp [Hex.IsDigit]⟩

theorem ofNotice_accepts_grammar_sample :
    Unsigned (noticeOfVersion "20000000") ∧ ∃ job, ofNotice (noticeOfVersion "20000000") = .ok job ∧
      SameNotice job.toNotice ((noticeOfVersion "20000000").take 9) := by
  have unsigned : Unsigned (noticeOfVersion "20000000") := by
    simp [Unsigned, noticeOfVersion]
  have digits : Hex.HasDigits 8 "20000000" := ⟨by decide, by simp [Hex.IsDigit]⟩
  rcases (ofNotice_accepts_grammar (noticeOfVersion "20000000")).2.2 unsigned with ⟨accepted, same⟩
  rcases accepted.mpr (isNotice_noticeOfVersion digits) with ⟨job, announced⟩
  exact ⟨unsigned, job, announced, same job announced⟩

/-- A version with a plus sign before its seven digits is taken, and the notice of the job has
another text for it. -/
theorem signed_number_accepted :
    ∃ job, ofNotice (noticeOfVersion "+2000000") = .ok job ∧
      ¬IsNotice (noticeOfVersion "+2000000") ∧
      ¬SameNotice job.toNotice ((noticeOfVersion "+2000000").take 9) := by
  have zero : unsignedNumbers (noticeOfVersion "+2000000") = noticeOfVersion "02000000" := by
    simp [unsignedNumbers, noticeOfVersion, Json.unsigned, Hex.unsigned]
  have digits : Hex.HasDigits 8 "02000000" := ⟨by decide, by simp [Hex.IsDigit]⟩
  have form := isNotice_noticeOfVersion digits
  rw [← zero] at form
  rcases exists_ofNotice_iff.mpr form with ⟨job, announced⟩
  refine ⟨job, announced, ?_, ?_⟩
  · intro notice
    rcases notice.version with ⟨text, isText, digits⟩
    cases isText
    have plus : Hex.IsDigit '+' := digits.digits _ (by simp)
    exact absurd plus (by decide)
  · intro same
    have zeroSame := (ofNotice_eq_ok_iff.mp announced).sameNotice
    rw [zero] at zeroSame
    have texts : "02000000".map Char.toLower = "+2000000".map Char.toLower := by
      simpa [noticeOfVersion, Json.lowerCase, Json.lowerText] using zeroSame.2.symm.trans same.2
    exact absurd texts (by decide +kernel)

end Job

end StratumMiner
