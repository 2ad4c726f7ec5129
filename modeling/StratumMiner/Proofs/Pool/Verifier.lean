import Mathlib
import StratumMiner.Pool.Submission
import StratumMiner.Proofs.Hash.Message
import StratumMiner.Proofs.Mining.Sweep
import StratumMiner.Proofs.Pool.Notice

/-!
# A pool that checks shares

The other side of the miner holds the notice that it sent and the first extranonce that it gave out,
and gets the five strings of a submission.  From these alone it builds the header that the share is
about: it reads the hexadecimal text, puts the coinbase together and hashes it, folds the branches
and lays the fields out.  Every share that a worker sends for work on the notice stands this check.
-/

namespace StratumMiner.Verifier

/-- The bytes of each word of four, reversed. -/
def reverseWords : Bytes → Bytes
  | first :: second :: third :: fourth :: rest =>
      fourth :: third :: second :: first :: reverseWords rest
  | rest => rest.reverse

/-- What a notice says of the header, besides the time that the pool had when it was sent. -/
structure Announcement where
  jobId : String
  /-- The hash of the previous block, in the order of the header's bytes. -/
  prevHash : Bytes
  coinbase1 : Bytes
  coinbase2 : Bytes
  branches : List Bytes
  version : Nat
  nbits : Nat
  deriving Repr, DecidableEq

/-- Read a notice. -/
def Announcement.read? (values : List Json) : Option Announcement := do
  let jobId ← values[0]?.bind Json.string?
  let prevHash ← values[1]?.bind Json.spelled?
  let coinbase1 ← values[2]?.bind Json.spelled?
  let coinbase2 ← values[3]?.bind Json.spelled?
  let branches ← (← values[4]?.bind Json.array?).mapM Json.spelled?
  let version ← values[5]?.bind Json.numeral?
  let nbits ← values[6]?.bind Json.numeral?
  some { jobId, prevHash := reverseWords prevHash, coinbase1, coinbase2, branches, version, nbits }

/-- The Merkle root over a coinbase with these extranonces. -/
def Announcement.root (announcement : Announcement) (extranonce1 extranonce2 : Bytes) : Bytes :=
  announcement.branches.foldl (fun node branch => (Sha256.hashTwice (node ++ branch)).toList)
    (Sha256.hashTwice
      (announcement.coinbase1 ++ extranonce1 ++ extranonce2 ++ announcement.coinbase2)).toList

/-- The bytes of a header; time and nonce come most significant byte first. -/
def Announcement.layout (announcement : Announcement) (root ntime nonce : Bytes) : Bytes :=
  Bytes.ofNatLE 4 announcement.version ++ announcement.prevHash ++ root ++ ntime.reverse ++
    Bytes.ofNatLE 4 announcement.nbits ++ nonce.reverse

/-- The header that the five strings of a submission are about, if they are for the job of the
notice. -/
def header? (notice : List Json) (extranonce1 : Bytes) : List String → Option Bytes
  | [_, jobId, extranonce2, ntime, nonce] => do
      let announcement ← Announcement.read? notice
      let extranonce2 ← HexReading.bytes? extranonce2.toList
      let ntime ← HexReading.bytes? ntime.toList
      let nonce ← HexReading.bytes? nonce.toList
      if jobId = announcement.jobId then
        some (announcement.layout (announcement.root extranonce1 extranonce2) ntime nonce)
      else none
  | _ => none

/-! ## Reading the notice of a job -/

@[simp] theorem length_reverseWords (bytes : Bytes) :
    (reverseWords bytes).length = bytes.length := by
  fun_induction reverseWords bytes with
  | case1 first second third fourth rest ih => simp [ih]
  | case2 rest => simp

theorem getElem?_reverseWords {bytes : Bytes} {count : Nat} (words : bytes.length = 4 * count)
    {position : Nat} (inside : position < bytes.length) :
    (reverseWords bytes)[position]? = bytes[position / 4 * 4 + (3 - position % 4)]? := by
  induction count generalizing bytes position with
  | zero => omega
  | succ count ih =>
      match bytes, words with
      | first :: second :: third :: fourth :: rest, words =>
          have restWords : rest.length = 4 * count := by
            simp only [List.length_cons] at words
            omega
          rw [reverseWords]
          rcases Nat.lt_or_ge position 4 with early | late
          · interval_cases position <;> rfl
          · obtain ⟨later, rfl⟩ := Nat.exists_eq_add_of_le' late
            have restInside : later < rest.length := by
              simp only [List.length_cons] at inside
              omega
            have index : (later + 4) / 4 * 4 + (3 - (later + 4) % 4) =
                later / 4 * 4 + (3 - later % 4) + 4 := by omega
            rw [index]
            exact ih restWords restInside

/-- The miner and the verifier put the words of the previous hash into the same order. -/
theorem toList_swapWords (bytes : Bytes32) :
    (Job.swapWords bytes).toList = reverseWords bytes.toList := by
  have words : bytes.toList.length = 4 * 8 := by simp
  refine List.ext_getElem? fun position => ?_
  rcases Nat.lt_or_ge position 32 with inside | outside
  · rw [getElem?_reverseWords words (by simpa using inside)]
    have source : position / 4 * 4 + (3 - position % 4) < 32 := by omega
    rw [List.getElem?_eq_getElem (by simpa using inside),
      List.getElem?_eq_getElem (by simpa using source)]
    simp [Job.swapWords]
  · rw [List.getElem?_eq_none (by simpa using outside),
      List.getElem?_eq_none (by simpa using outside)]

/-- What the notice of a job says. -/
def Announcement.ofJob (job : Job) : Announcement :=
  { jobId := job.id, prevHash := job.prevHash.toList, coinbase1 := job.coinbase1
    coinbase2 := job.coinbase2, branches := job.branches.map Vector.toList
    version := job.version.toNat, nbits := job.nbits.toNat }

theorem mapM_spelled? {items : List Json} {branches : List Bytes32}
    (spelled : List.Forall₂ (fun item branch => item.spelled? = some branch.toList)
      items branches) :
    items.mapM Json.spelled? = some (branches.map Vector.toList) := by
  induction spelled with
  | nil => rfl
  | cons first rest ih => simp [List.mapM_cons, first, ih]

/-- A notice that announces a job is read as what it says. -/
theorem Announcement.read?_of_announces {values : List Json} {job : Job}
    (announces : job.Announces values) : Announcement.read? values = some (ofJob job) := by
  cases announces with
  | intro prevHash inOrder coinbase1 coinbase2 branches version nbits ntime =>
      simp [read?, Json.string?, Json.array?, ofJob, prevHash, coinbase1, coinbase2,
        mapM_spelled? branches, version, nbits, inOrder, toList_swapWords]

/-! ## Building the header of work -/

theorem toList_root (leaf : Bytes32) (branches : List Bytes32) :
    (branches.map Vector.toList).foldl
        (fun node branch => (Sha256.hashTwice (node ++ branch)).toList) leaf.toList =
      (Merkle.root leaf branches).toList := by
  induction branches generalizing leaf with
  | nil => rfl
  | cons branch branches ih => exact ih (Merkle.node leaf branch)

/-- The verifier and the miner come to the same root. -/
theorem Announcement.root_ofJob (job : Job) (extranonce1 : Bytes) (extranonce2 : Extranonce2)
    (target : Target) :
    (ofJob job).root extranonce1 extranonce2.toBytes =
      (Work.merkleRoot { job, source := .computed extranonce1 extranonce2, target }).toList :=
  toList_root _ job.branches

/-- The verifier lays out the bytes that the miner hashes. -/
theorem Announcement.layout_ofJob (work : Work) (attempt : Attempt) :
    (ofJob work.job).layout work.merkleRoot.toList (Bytes.ofNatBE 4 attempt.ntime.toNat)
        (Bytes.ofNatBE 4 attempt.nonce.toNat) =
      (work.headerBytes attempt).toList := by
  simp only [layout, Bytes.ofNatBE, List.reverse_reverse]
  exact (work.header attempt).toList_serialize.symm

/-- From a notice that says what the job of work says, and the submission of a share for the work,
the verifier builds the header that has been hashed for the share. -/
theorem header?_ofShare {notice : List Json} {work : Work} {extranonce1 : Bytes}
    {extranonce2 : Extranonce2} (said : Announcement.read? notice = some (.ofJob work.job))
    (source : work.source = .computed extranonce1 extranonce2) (username : String)
    (attempt : Attempt) :
    header? notice extranonce1 (Submission.ofShare username (work.share attempt)).params =
      some (work.headerBytes attempt).toList := by
  obtain ⟨job, source, target⟩ := work
  subst source
  have extranonce : HexReading.bytes? extranonce2.display.toList = some extranonce2.toBytes := by
    rw [Extranonce2.display, Hex.encode, String.toList_ofList]
    exact HexReading.bytes?_encodeChars extranonce2.toBytes
  simp only [Submission.params, Submission.ofShare, Work.share, Work.extranonce2?, header?, said,
    extranonce, HexReading.bytes?_padded_word, Option.bind_eq_bind, Option.bind_some]
  have sameJob : job.id = (Announcement.ofJob job).jobId := rfl
  rw [if_pos sameJob, Announcement.root_ofJob job extranonce1 extranonce2 target]
  exact congrArg some (Announcement.layout_ofJob { job, source := .computed _ _, target } attempt)

/-- Every share that a worker sends for work on a notice stands the check: the header that the
verifier builds is one that the worker has hashed, its digest is that of the share, and as a number
the digest is strictly below the target. -/
theorem share_stands_check {notice : List Json} {job : Job}
    (accepted : Job.ofNotice notice = .ok job) (extranonce1 : Bytes) (extranonce2 : Extranonce2)
    (target : Target) (clean : Bool) (username : String) (settings : WorkerSettings)
    (events : List WorkerEvent) {stint : Stint}
    (started : stint ∈ (Worker.run settings events).2.stints)
    (work : stint.work =
      { job := { job with clean }, source := .computed extranonce1 extranonce2, target })
    {share : Share} (sent : share ∈ stint.shares) :
    ∃ header ∈ stint.headers,
      header? notice extranonce1 (Submission.ofShare username share).params =
          some header.toList ∧
        Sha256.hashTwice header.toList = share.digest ∧
        Bytes.toNatLE share.digest.toList < Bytes.toNatBE target.bytes.toList := by
  -- The ledger says that the share belongs to an attempt whose header has been hashed.
  obtain ⟨unsent, tried, -, headers, shares⟩ :=
    (Worker.run_accounted settings events).2.sound started
  have found : share ∈ (tried.filter stint.work.hits).map stint.work.share :=
    shares ▸ List.mem_append_left unsent sent
  obtain ⟨attempt, hit, rfl⟩ := List.mem_map.mp found
  obtain ⟨inTried, hits⟩ := List.mem_filter.mp hit
  refine ⟨stint.work.headerBytes attempt, ?_, ?_, ?_, ?_⟩
  · rw [headers]
    exact List.mem_map_of_mem inTried
  · have said := Announcement.read?_of_announces (Job.announces_of_ofNotice accepted)
    exact header?_ofShare (by rw [work, said]; rfl) (by rw [work]) username attempt
  · exact (Sha256.hashHeader_eq_hashTwice (stint.work.headerBytes attempt)).symm
  · have sameTarget : stint.work.target = target := by rw [work]
    rw [← sameTarget]
    exact of_decide_eq_true hits

/-! ## One share

A job with two branches, mined by a worker that owns a sixteenth of the nonces and rolls the time,
against a target that one digest in 65536 meets.  No two bytes of the previous hash and of a branch
are the same, so an order of bytes that is wrong anywhere spoils the header.
-/

/-- The notice of the job. -/
def sampleNotice : List Json :=
  [.string "4f",
    .string "03020100070605040b0a09080f0e0d0c13121110171615141b1a19181f1e1d1c",
    .string "015a", .string "ffc3",
    .array [.string "404142434445464748494a4b4c4d4e4f505152535455565758595a5b5c5d5e5f",
      .string "9f9e9d9c9b9a999897969594939291908f8e8d8c8b8a89888786858483828180"],
    .string "20000402", .string "1d00ffff", .string "5f5e1000", .bool true]

def sampleJob : Job :=
  { id := "4f", prevHash := Vector.ofFn fun position => UInt8.ofNat position.val
    coinbase1 := [0x01, 0x5a], coinbase2 := [0xff, 0xc3]
    branches :=
      [Vector.ofFn fun position => UInt8.ofNat (0x40 + position.val),
        Vector.ofFn fun position => UInt8.ofNat (0x9f - position.val)]
    version := 0x20000402, nbits := 0x1d00ffff, ntime := 0x5f5e1000, clean := true }

def sampleExtranonce2 : Extranonce2 :=
  ⟨0x0102, 2, by decide, by decide⟩

def sampleWork : Work :=
  { job := sampleJob, source := .computed [0x41, 0x28, 0x06, 0x4f] sampleExtranonce2
    target := ⟨Vector.ofFn fun position => if position.val < 2 then 0 else 255⟩ }

def sampleSettings : WorkerSettings :=
  { name := "miner-1", range := ⟨0x10000000, 0x20000000, by decide, by decide⟩
    hasher := ⟨.wide8, .wide8⟩, rollNtime := true }

/-- Three seconds after the time of the job, and far behind the first nonce of the worker. -/
def sampleAttempt : Attempt :=
  ⟨0x5f5e1003, 0x100216fb⟩

set_option maxRecDepth 100000 in
/-- Left alone with the work, the worker sends a share at that attempt, and the share stands the
check. -/
theorem share_stands_check_sample :
    Job.ofNotice sampleNotice = .ok sampleJob ∧
      ∃ events, ∃ stint ∈ (Worker.run sampleSettings events).2.stints,
        stint.work = sampleWork ∧
          ∃ share ∈ stint.shares,
            share.ntime = 0x5f5e1003 ∧ share.nonce = 0x100216fb ∧
              ∃ header ∈ stint.headers,
                header? sampleNotice [0x41, 0x28, 0x06, 0x4f]
                    (Submission.ofShare "user" share).params = some header.toList ∧
                  Sha256.hashTwice header.toList = share.digest ∧
                  Bytes.toNatLE share.digest.toList <
                    Bytes.toNatBE sampleWork.target.bytes.toList := by
  have accepted : Job.ofNotice sampleNotice = .ok sampleJob := by decide +kernel
  have hits : sampleWork.hits sampleAttempt = true := by decide +kernel
  have tried : sampleAttempt ∈ sampleSettings.attempts sampleWork := by
    rw [WorkerSettings.attempts, Work.passes, List.mem_flatMap]
    refine ⟨3, List.mem_range.mpr (by decide), List.mem_map.mpr ⟨0x100216fb, ?_, rfl⟩⟩
    exact List.mem_range'_1.mpr (by decide)
  obtain ⟨enough, swept⟩ := Worker.alone_swept (Worker.run_accounted sampleSettings []) rfl
    (rfl : sampleWork.validate = .ok ()) 0
  have stints := (swept 0 enough le_rfl).stints
  let events := Worker.alone sampleWork 0 0 enough
  refine ⟨accepted, events, _, stints ▸ List.mem_cons_self, rfl, sampleWork.share sampleAttempt,
    List.mem_map_of_mem (List.mem_filter.mpr ⟨tried, hits⟩), rfl, rfl, ?_⟩
  exact share_stands_check accepted [0x41, 0x28, 0x06, 0x4f] sampleExtranonce2 sampleWork.target
    true "user" sampleSettings events (stints ▸ List.mem_cons_self) rfl
    (List.mem_map_of_mem (List.mem_filter.mpr ⟨tried, hits⟩))

end StratumMiner.Verifier
