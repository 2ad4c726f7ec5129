import Mathlib
import StratumMiner.Hash.Level
import StratumMiner.Proofs.Hash.Lanes

/-!
# The level does not show in the digests

A batch is cut into pieces, a short piece is filled up, and a wide piece may be hashed in two
halves.  None of this can be seen from outside: at every level and on every processor a batch of
any length gives the scalar digest of each of its headers, in order.
-/

namespace StratumMiner.Hasher

/-- Two halves of eight lanes give what sixteen lanes give. -/
theorem hashHalves_eq_map (headers : Vector HeaderBytes 16) :
    hashHalves headers = headers.map Sha256.hashHeader := by
  ext1 index inside
  simp only [hashHalves, Lanes.hashHeaders_eq_map, Vector.getElem_map]
  rcases Nat.lt_or_ge index 8 with low | high
  · refine (Vector.getElem_append_left low).trans ?_
    simp
  · refine (Vector.getElem_append_right inside high).trans ?_
    simp [Nat.sub_add_cancel high]

theorem hashSixteen_eq_map (hasher : Hasher) (headers : Vector HeaderBytes 16) :
    hasher.hashSixteen headers = headers.map Sha256.hashHeader := by
  unfold hashSixteen
  split
  · exact hashHalves_eq_map headers
  · exact Lanes.hashHeaders_eq_map headers
  · exact Lanes.hashHeaders_eq_map headers

/-- A filled piece begins with the piece itself; the copies of its last header come after. -/
theorem take_fill (width : Nat) (first : HeaderBytes) (rest : List HeaderBytes)
    (fits : rest.length + 1 ≤ width) :
    (fill width first rest).toList.take (rest.length + 1) = first :: rest := by
  apply List.ext_getElem
  · simp [fits]
  · intro index inFilled inPiece
    simp [fill, List.getElem?_eq_getElem inPiece]

/-- Cutting into pieces and filling up the last one leaves the digests in order, each header having
its own. -/
theorem hashPieces_eq_map (width : Nat) (kernel : Vector HeaderBytes width → Vector Bytes32 width)
    (lanewise : ∀ headers, kernel headers = headers.map Sha256.hashHeader) (wide : 0 < width)
    (fuel : Nat) (headers : List HeaderBytes) (enough : headers.length ≤ fuel) :
    hashPieces width kernel fuel headers = headers.map Sha256.hashHeader := by
  induction fuel generalizing headers with
  | zero =>
      obtain rfl := List.eq_nil_of_length_eq_zero (Nat.le_zero.mp enough)
      rfl
  | succ fuel ih =>
      cases headers with
      | nil => rfl
      | cons first rest =>
          have fits : (rest.take (width - 1)).length + 1 ≤ width := by
            rw [List.length_take]
            omega
          have remaining : (rest.drop (width - 1)).length ≤ fuel := by
            rw [List.length_drop]
            simp only [List.length_cons] at enough
            omega
          simp only [hashPieces]
          rw [lanewise, ih _ remaining, Vector.toList_map, ← List.map_take, take_fill _ _ _ fits,
            ← List.map_append, List.cons_append, List.take_append_drop]

/-- A hasher gives every header of a batch its scalar digest. -/
theorem hashBatch_eq_map (hasher : Hasher) (headers : List HeaderBytes) :
    hasher.hashBatch headers = headers.map Sha256.hashHeader := by
  unfold hashBatch
  split
  · rfl
  · exact hashPieces_eq_map 8 _ Lanes.hashHeaders_eq_map (by decide) _ _ (Nat.le_refl _)
  · exact hashPieces_eq_map 16 _ hasher.hashSixteen_eq_map (by decide) _ _ (Nat.le_refl _)

/-- As many slots as headers are filled, each with the scalar digest of the header in its place,
whatever the level and whatever the processor runs fast. -/
theorem hashInto?_scalar_digests (hasher : Hasher) (headers : List HeaderBytes) :
    ∃ outputs, hasher.hashInto? headers headers.length = some outputs ∧
      outputs.length = headers.length ∧
      ∀ slot : Nat, outputs[slot]? = headers[slot]?.map Sha256.hashHeader := by
  refine ⟨headers.map Sha256.hashHeader, ?_, List.length_map _, ?_⟩
  · rw [hashInto?, if_pos rfl, hashBatch_eq_map]
  · intro slot
    exact List.getElem?_map

end StratumMiner.Hasher
