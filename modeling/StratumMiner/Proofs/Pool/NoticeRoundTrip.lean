import Mathlib
import StratumMiner.Proofs.Pool.Verifier
import StratumMiner.Proofs.Text.HexDecoding

/-!
# A job comes out of its notice

A pool writes a job as a notice: bytes in hexadecimal, the previous hash with its words reversed,
numbers with eight digits.  It may write letters of digits in either case and add values that nobody
reads.  Reading the notice gives the job again, all fields and the branches in their order.
-/

namespace StratumMiner.Job

/-- The notices of a job.  The texts of bytes and numbers are fixed but for the case of their
letters, and other values may follow. -/
inductive WrittenAs (job : Job) : List Json → Prop where
  | intro {prevHash coinbase1 coinbase2 version nbits ntime : String} {branches : List String}
      {others : List Json}
      (prevHashEq : Hex.SameDigits prevHash
        (Hex.encode (Verifier.reverseWords job.prevHash.toList)))
      (coinbase1Eq : Hex.SameDigits coinbase1 (Hex.encode job.coinbase1))
      (coinbase2Eq : Hex.SameDigits coinbase2 (Hex.encode job.coinbase2))
      (branchesEq : List.Forall₂ (fun text branch => Hex.SameDigits text (Hex.encode branch.toList))
        branches job.branches)
      (versionEq : Hex.SameDigits version (Hex.padded 8 job.version.toNat))
      (nbitsEq : Hex.SameDigits nbits (Hex.padded 8 job.nbits.toNat))
      (ntimeEq : Hex.SameDigits ntime (Hex.padded 8 job.ntime.toNat)) :
      WrittenAs job (.string job.id :: .string prevHash :: .string coinbase1 :: .string coinbase2 ::
        .array (branches.map .string) :: .string version :: .string nbits :: .string ntime ::
        .bool job.clean :: others)

/-! ## Reading single values -/

theorem readBytes_of_sameDigits {field : NoticeField} {text : String} {bytes : Bytes}
    (same : Hex.SameDigits text (Hex.encode bytes)) :
    readBytes field (.string text) = .ok bytes := by
  simp only [readBytes, readText, bind, Except.bind, same.decode]

theorem readBytes32_of_sameDigits {field : NoticeField} {text : String} {bytes : Bytes32}
    (same : Hex.SameDigits text (Hex.encode bytes.toList)) :
    readBytes32 field (.string text) = .ok bytes := by
  have whole : Bytes.toVector? 32 bytes.toList = some bytes := Bytes.toVector?_eq_some_iff.mpr rfl
  simp only [readBytes32, readBytes_of_sameDigits same, bind, Except.bind, whole]

theorem readWord_of_sameDigits {field : NoticeField} {text : String} {word : UInt32}
    (same : Hex.SameDigits text (Hex.padded 8 word.toNat)) :
    readWord field (.string text) = .ok word :=
  readWord_string_iff.mpr same.parseHex

theorem readBranches_of_sameDigits {texts : List String} {branches : List Bytes32}
    (same : List.Forall₂ (fun text branch => Hex.SameDigits text (Hex.encode branch.toList))
      texts branches) :
    readBranches (.array (texts.map .string)) = .ok branches := by
  refine Except.mapM_eq_ok_iff.mpr ?_
  rw [List.forall₂_map_left_iff]
  exact same.imp fun _ _ => readBytes32_of_sameDigits

/-! ## Reading the notice -/

/-- Every notice of a job announces exactly that job. -/
theorem ofNotice_writtenAs {job : Job} {values : List Json} (written : job.WrittenAs values) :
    ofNotice values = .ok job := by
  cases written with
  | intro prevHashEq coinbase1Eq coinbase2Eq branchesEq versionEq nbitsEq ntimeEq =>
      rw [← Verifier.toList_swapWords] at prevHashEq
      simp only [ofNotice, bind, Except.bind, readText, readBytes32_of_sameDigits prevHashEq,
        readBytes_of_sameDigits coinbase1Eq, readBytes_of_sameDigits coinbase2Eq,
        readBranches_of_sameDigits branchesEq, readWord_of_sameDigits versionEq,
        readWord_of_sameDigits nbitsEq, readWord_of_sameDigits ntimeEq, readFlag,
        swapWords_swapWords]

/-- A job with two branches. -/
def branchedJob : Job :=
  { id := "4f", prevHash := Vector.ofFn fun position => UInt8.ofNat (0xa0 + position.val)
    coinbase1 := [0x01, 0xab], coinbase2 := []
    branches := [Vector.replicate 32 0xcd, Vector.replicate 32 0xef]
    version := 0x20000000, nbits := 0x1d00ffff, ntime := 0x5f00000a, clean := true }

/-- Its notice with letters of both cases and one value more. -/
def branchedNotice : List Json :=
  [.string "4f",
    .string "A3a2A1a0a7A6a5A4abAAa9a8AFaeadacb3B2b1B0b7b6B5b4bbbab9B8BFBEbdbc",
    .string "01aB", .string "",
    .array [.string "cdcdcdcdcdcdcdcdcdcdcdcdcdcdcdcdcdcdcdcdcdcdcdcdcdcdcdcdcdcdcdCD",
      .string "EFefefefefefefefefefefefefefefefefefefefefefefefefefefefefefefef"],
    .string "20000000", .string "1d00FFFF", .string "5f00000A", .bool true, .null]

theorem ofNotice_branchedNotice :
    branchedJob.WrittenAs branchedNotice ∧ ofNotice branchedNotice = .ok branchedJob := by
  have branches : List.Forall₂
      (fun text branch => Hex.SameDigits text (Hex.encode branch.toList))
      ["cdcdcdcdcdcdcdcdcdcdcdcdcdcdcdcdcdcdcdcdcdcdcdcdcdcdcdcdcdcdcdCD",
        "EFefefefefefefefefefefefefefefefefefefefefefefefefefefefefefefef"]
      branchedJob.branches :=
    .cons (by decide +kernel) (.cons (by decide +kernel) .nil)
  have written : branchedJob.WrittenAs branchedNotice :=
    .intro (by decide +kernel) (by decide +kernel) (by decide +kernel) branches
      (by decide +kernel) (by decide +kernel) (by decide +kernel)
  exact ⟨written, ofNotice_writtenAs written⟩

end StratumMiner.Job
