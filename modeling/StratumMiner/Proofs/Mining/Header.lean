import Mathlib
import StratumMiner.Mining.Header
import StratumMiner.Proofs.Bytes

/-!
# Rewriting a header in place

The six fields of a header stand side by side in its bytes, so each can be read back from where it
stands.  A template is only ever changed by writing the bytes of its time or of its nonce.  Doing so
gives the bytes of the header with that field replaced, as if it had been serialized anew, and so
does every sequence of such changes, however many batches of headers are filled in between.
-/

namespace StratumMiner

/-! ## Reading fields -/

namespace Header

/-- The fields side by side, all integers least significant byte first. -/
theorem toList_serialize (header : Header) :
    header.serialize.toList =
      Bytes.ofNatLE 4 header.version.toNat ++ header.prevHash.toList ++
        header.merkleRoot.toList ++ Bytes.ofNatLE 4 header.ntime.toNat ++
        Bytes.ofNatLE 4 header.nbits.toNat ++ Bytes.ofNatLE 4 header.nonce.toNat := by
  simp only [Header.serialize, Vector.toList_append, Bytes.toList_ofWordLE]

section Slice

variable {length more first count : Nat} (bytes : Vector UInt8 length) (others : Vector UInt8 more)

/-- So many bytes from a place on. -/
def slice (first count : Nat) (inside : first + count ≤ length) : Vector UInt8 count :=
  Vector.ofFn fun index => bytes[first + index.val]

/-- What stands behind does not matter. -/
theorem slice_append_left (inside : first + count ≤ length) :
    slice (bytes ++ others) first count (Nat.le_add_right_of_le inside) =
      slice bytes first count inside := by
  ext1 index small
  simp only [slice, Vector.getElem_ofFn]
  exact Vector.getElem_append_left (Nat.lt_of_lt_of_le (Nat.add_lt_add_left small first) inside)

theorem slice_append_right : slice (bytes ++ others) length more (Nat.le_refl _) = others := by
  ext1 index small
  simp only [slice, Vector.getElem_ofFn]
  refine (Vector.getElem_append_right (Nat.add_lt_add_left small length)
    (Nat.le_add_right _ _)).trans ?_
  simp only [Nat.add_sub_cancel_left]

theorem slice_self : slice bytes 0 length (Nat.zero_add length).le = bytes := by
  ext1 index small
  simp [slice]

end Slice

/-- The word that four bytes spell, least significant first. -/
def wordOf (bytes : Vector UInt8 4) : UInt32 :=
  Bytes.wordLE (bytes.get 0) (bytes.get 1) (bytes.get 2) (bytes.get 3)

/-- The fields that stand in the eighty bytes of a header. -/
def ofBytes (bytes : HeaderBytes) : Header :=
  { version := wordOf (slice bytes 0 4 (by decide))
    prevHash := slice bytes 4 32 (by decide)
    merkleRoot := slice bytes 36 32 (by decide)
    ntime := wordOf (slice bytes 68 4 (by decide))
    nbits := wordOf (slice bytes 72 4 (by decide))
    nonce := wordOf (slice bytes 76 4 (by decide)) }

/-- Nothing is lost in the bytes of a header. -/
theorem ofBytes_serialize (header : Header) : ofBytes header.serialize = header := by
  have version : slice header.serialize 0 4 (by decide) = Bytes.ofWordLE header.version := by
    rw [serialize, slice_append_left _ _ (by decide), slice_append_left _ _ (by decide),
      slice_append_left _ _ (by decide), slice_append_left _ _ (by decide),
      slice_append_left _ _ (by decide)]
    exact slice_self _
  have prevHash : slice header.serialize 4 32 (by decide) = header.prevHash := by
    rw [serialize, slice_append_left _ _ (by decide), slice_append_left _ _ (by decide),
      slice_append_left _ _ (by decide), slice_append_left _ _ (by decide)]
    exact slice_append_right _ _
  have merkleRoot : slice header.serialize 36 32 (by decide) = header.merkleRoot := by
    rw [serialize, slice_append_left _ _ (by decide), slice_append_left _ _ (by decide),
      slice_append_left _ _ (by decide)]
    exact slice_append_right _ _
  have ntime : slice header.serialize 68 4 (by decide) = Bytes.ofWordLE header.ntime := by
    rw [serialize, slice_append_left _ _ (by decide), slice_append_left _ _ (by decide)]
    exact slice_append_right _ _
  have nbits : slice header.serialize 72 4 (by decide) = Bytes.ofWordLE header.nbits := by
    rw [serialize, slice_append_left _ _ (by decide)]
    exact slice_append_right _ _
  have nonce : slice header.serialize 76 4 (by decide) = Bytes.ofWordLE header.nonce :=
    slice_append_right _ _
  have read (word : UInt32) : wordOf (Bytes.ofWordLE word) = word := Bytes.wordLE_ofWordLE word
  simp only [ofBytes, version, prevHash, merkleRoot, ntime, nbits, nonce, read]

end Header

namespace HeaderTemplate

/-- The time read back from the bytes of a header. -/
theorem ntime_serialize (header : Header) : ntime ⟨header.serialize⟩ = header.ntime := by
  have read : ntime ⟨header.serialize⟩ = (Header.ofBytes header.serialize).ntime := by
    simp [ntime, Header.ofBytes, Header.wordOf, Header.slice, Vector.get_eq_getElem]
  rw [read, Header.ofBytes_serialize]

/-- The nonce read back from the bytes of a header. -/
theorem nonce_serialize (header : Header) : nonce ⟨header.serialize⟩ = header.nonce := by
  have read : nonce ⟨header.serialize⟩ = (Header.ofBytes header.serialize).nonce := by
    simp [nonce, Header.ofBytes, Header.wordOf, Header.slice, Vector.get_eq_getElem]
  rw [read, Header.ofBytes_serialize]

/-! ## Writing fields -/

/-- The four bytes of a word written one after another over four others. -/
theorem set_ofWordLE (old : Vector UInt8 4) (word : UInt32) :
    let bytes := Bytes.ofWordLE word
    (((old.set 0 (bytes.get 0) (by decide)).set 1 (bytes.get 1) (by decide)).set 2 (bytes.get 2)
      (by decide)).set 3 (bytes.get 3) (by decide) = bytes := by
  ext index inside
  interval_cases index <;> simp [Vector.get_eq_getElem]

/-- Writing a nonce into the bytes of a header. -/
theorem withNonce_serialize (header : Header) (nonce : UInt32) :
    withNonce ⟨header.serialize⟩ nonce = { header with nonce }.serialize := by
  simp only [withNonce, Header.serialize]
  rw [Vector.set_append_right (i := 76) (by decide) (by decide),
    Vector.set_append_right (i := 77) (by decide) (by decide),
    Vector.set_append_right (i := 78) (by decide) (by decide),
    Vector.set_append_right (i := 79) (by decide) (by decide)]
  exact congrArg _ (set_ofWordLE _ nonce)

/-- Writing a time into the bytes of a header. -/
theorem setNtime_serialize (header : Header) (ntime : UInt32) :
    setNtime ⟨header.serialize⟩ ntime = ⟨{ header with ntime }.serialize⟩ := by
  simp only [setNtime, Header.serialize, HeaderTemplate.mk.injEq]
  rw [Vector.set_append_left (i := 68) (by decide), Vector.set_append_left (i := 69) (by decide),
    Vector.set_append_left (i := 70) (by decide), Vector.set_append_left (i := 71) (by decide),
    Vector.set_append_left (i := 68) (by decide), Vector.set_append_left (i := 69) (by decide),
    Vector.set_append_left (i := 70) (by decide), Vector.set_append_left (i := 71) (by decide),
    Vector.set_append_right (i := 68) (by decide) (by decide),
    Vector.set_append_right (i := 69) (by decide) (by decide),
    Vector.set_append_right (i := 70) (by decide) (by decide),
    Vector.set_append_right (i := 71) (by decide) (by decide)]
  exact congrArg
    (fun time => Bytes.ofWordLE header.version ++ header.prevHash ++ header.merkleRoot ++ time ++
      Bytes.ofWordLE header.nbits ++ Bytes.ofWordLE header.nonce)
    (set_ofWordLE _ ntime)

/-! ## Many changes -/

/-- What is done with a template. -/
inductive Call where
  | setNtime (ntime : UInt32)
  | setNonce (nonce : UInt32)
  /-- Headers with consecutive nonces are filled in. -/
  | fillBatch (first : UInt32) (count : Nat)
  deriving Repr, DecidableEq

/-- The template behind a call and the headers that the call fills in. -/
def call (template : HeaderTemplate) : Call → HeaderTemplate × List HeaderBytes
  | .setNtime ntime => (template.setNtime ntime, [])
  | .setNonce nonce => (template.setNonce nonce, [])
  | .fillBatch first count => (template, template.batch first count)

/-- The template behind a list of calls. -/
def behind (template : HeaderTemplate) (calls : List Call) : HeaderTemplate :=
  calls.foldl (fun template next => (template.call next).1) template

/-- The time that a call sets. -/
def Call.ntime? : Call → Option UInt32
  | .setNtime ntime => some ntime
  | .setNonce _ | .fillBatch _ _ => none

/-- The nonce that a call sets. -/
def Call.nonce? : Call → Option UInt32
  | .setNonce nonce => some nonce
  | .setNtime _ | .fillBatch _ _ => none

/-- The fields behind some calls: the last time and the last nonce that have been set. -/
def Call.fields (calls : List Call) (header : Header) : Header :=
  { header with
    ntime := (calls.filterMap Call.ntime?).getLastD header.ntime
    nonce := (calls.filterMap Call.nonce?).getLastD header.nonce }

/-- One call more. -/
theorem call_serialize (header : Header) (calls : List Call) (next : Call) :
    ((⟨(Call.fields calls header).serialize⟩ : HeaderTemplate).call next).1 =
      ⟨(Call.fields (calls ++ [next]) header).serialize⟩ := by
  cases next with
  | setNtime ntime =>
      simp only [call, setNtime_serialize, Call.fields, List.filterMap_append]
      simp [Call.ntime?, Call.nonce?]
  | setNonce nonce =>
      simp only [call, setNonce, withNonce_serialize, Call.fields, List.filterMap_append]
      simp [Call.ntime?, Call.nonce?]
  | fillBatch first count =>
      simp [call, Call.fields, List.filterMap_append, Call.ntime?, Call.nonce?]

theorem behind_serialize (header : Header) (calls : List Call) :
    behind ⟨header.serialize⟩ calls = ⟨(Call.fields calls header).serialize⟩ := by
  induction calls using List.reverseRecOn with
  | nil => rfl
  | append_singleton calls next ih =>
      rw [← call_serialize, ← ih, behind, List.foldl_append]
      rfl

/-- Each header of a batch is the one at hand with its own nonce. -/
theorem batch_serialize (header : Header) (first : UInt32) (count : Nat) :
    batch ⟨header.serialize⟩ first count =
      (List.range count).map fun index =>
        { header with nonce := .ofNat (first.toNat + index) }.serialize := by
  rw [batch]
  apply List.map_congr_left
  intro index _
  rw [withNonce_serialize, UInt32.ofNat_add, UInt32.ofNat_toNat]

/-- Whatever times and nonces are set on a new template, and whatever batches are filled in between,
its bytes are those of the header serialized at once with the last time and the last nonce, or the
first time and nonce zero if none has been set.  Both are read back from the template, and all six
fields from its bytes.  Filling in a batch leaves the template as it is and gives the same header
with one nonce after the other. -/
theorem rewriting_is_rebuilding (version : UInt32) (prevHash merkleRoot : Bytes32)
    (ntime nbits : UInt32) (calls : List Call) :
    let template := (ofFields version prevHash merkleRoot ntime nbits).behind calls
    let header : Header :=
      { version, prevHash, merkleRoot, nbits
        ntime := (calls.filterMap Call.ntime?).getLastD ntime
        nonce := (calls.filterMap Call.nonce?).getLastD 0 }
    template.bytes = header.serialize ∧
      template.bytes.toList =
        Bytes.ofNatLE 4 header.version.toNat ++ header.prevHash.toList ++
          header.merkleRoot.toList ++ Bytes.ofNatLE 4 header.ntime.toNat ++
          Bytes.ofNatLE 4 header.nbits.toNat ++ Bytes.ofNatLE 4 header.nonce.toNat ∧
      template.ntime = header.ntime ∧ template.nonce = header.nonce ∧
      Header.ofBytes template.bytes = header ∧
      ∀ first count, template.call (.fillBatch first count) =
        (template, (List.range count).map fun index =>
          { header with nonce := .ofNat (first.toNat + index) }.serialize) := by
  intro template header
  have rebuilt : template = ⟨header.serialize⟩ := behind_serialize _ calls
  rw [rebuilt]
  refine ⟨rfl, header.toList_serialize, ntime_serialize header, nonce_serialize header,
    header.ofBytes_serialize, ?_⟩
  intro first count
  rw [call, batch_serialize]

end HeaderTemplate

end StratumMiner
