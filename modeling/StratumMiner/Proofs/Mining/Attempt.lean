import Mathlib
import StratumMiner.Mining.Worker
import StratumMiner.Proofs.Hash.Batch
import StratumMiner.Proofs.Mining.Header
import StratumMiner.Proofs.Target

/-!
# The attempts at a piece of work

What a worker should do with work is said here without batches, chunks or cursors: it tries a list
of pairs of a time and a nonce, and hands in those whose digest is below the target.  `attempts` is
the whole list, `tried` the part of it that a search has behind it.  A batch is the next stretch of
that list, and the shares found in it are the attempts that hit.
-/

namespace StratumMiner

/-- A time and a nonce to put into a header. -/
structure Attempt where
  ntime : UInt32
  nonce : UInt32
  deriving Repr, DecidableEq

namespace Work

/-- The header of work at an attempt. -/
def header (work : Work) (attempt : Attempt) : Header :=
  { version := work.job.version, prevHash := work.job.prevHash, merkleRoot := work.merkleRoot
    ntime := attempt.ntime, nbits := work.job.nbits, nonce := attempt.nonce }

/-- The bytes that are hashed at an attempt. -/
def headerBytes (work : Work) (attempt : Attempt) : HeaderBytes :=
  (work.header attempt).serialize

/-- The share of an attempt, with the scalar digest of its header. -/
def share (work : Work) (attempt : Attempt) : Share :=
  { jobId := work.job.id, extranonce2 := work.extranonce2?, ntime := attempt.ntime
    nonce := attempt.nonce, digest := Sha256.hashHeader (work.headerBytes attempt) }

/-- Whether the digest at an attempt, as a number, is strictly below the target. -/
def hits (work : Work) (attempt : Attempt) : Bool :=
  Bytes.toNatLE (work.share attempt).digest.toList < Bytes.toNatBE work.target.bytes.toList

/-- The nonces from `first` on and before `stop` with the time `roll` seconds after that of the
job. -/
def pass (work : Work) (roll first stop : Nat) : List Attempt :=
  (List.range' first (stop - first)).map fun nonce =>
    ⟨work.job.ntime + UInt32.ofNat roll, UInt32.ofNat nonce⟩

/-- Passes over a whole range, one for each of the first seconds. -/
def passes (work : Work) (range : NonceRange) (count : Nat) : List Attempt :=
  (List.range count).flatMap fun roll => work.pass roll range.start.toNat range.stop

/-- Two stretches of nonces that meet make one. -/
theorem pass_append (work : Work) (roll : Nat) {first middle stop : Nat}
    (firstLe : first ≤ middle) (leStop : middle ≤ stop) :
    work.pass roll first middle ++ work.pass roll middle stop = work.pass roll first stop := by
  have start : middle = first + 1 * (middle - first) := by omega
  have lengths : stop - first = (middle - first) + (stop - middle) := by omega
  rw [pass, pass, pass, ← List.map_append, lengths, List.range'_append_1.symm]
  congr 4
  omega

theorem pass_self (work : Work) (roll first : Nat) : work.pass roll first first = [] := by
  simp [pass]

theorem passes_succ (work : Work) (range : NonceRange) (count : Nat) :
    work.passes range (count + 1) =
      work.passes range count ++ work.pass count range.start.toNat range.stop := by
  simp [passes, List.range_succ]

/-- Fewer passes are the beginning of more. -/
theorem passes_prefix (work : Work) (range : NonceRange) {fewer more : Nat} (le : fewer ≤ more) :
    work.passes range fewer <+: work.passes range more := by
  induction le with
  | refl => exact List.prefix_rfl
  | step _ ih =>
      rw [passes_succ]
      exact ih.trans (List.prefix_append _ _)

/-- A pass keeps to its nonces. -/
theorem mem_pass {work : Work} {roll first stop : Nat} {attempt : Attempt}
    (member : attempt ∈ work.pass roll first stop) :
    attempt.ntime = work.job.ntime + UInt32.ofNat roll ∧
      ∃ nonce, first ≤ nonce ∧ nonce < stop ∧ attempt.nonce = UInt32.ofNat nonce := by
  simp only [pass, List.mem_map, List.mem_range'_1] at member
  obtain ⟨nonce, bounds, rfl⟩ := member
  exact ⟨rfl, nonce, bounds.1, by omega, rfl⟩

end Work

namespace WorkerSettings

/-- How often the time may be rolled. -/
def rolls (settings : WorkerSettings) : Nat :=
  if settings.rollNtime then maxNtimeRolls else 0

/-- All attempts at a piece of work, in order: the whole range for the time of the job, and once
more for each second that the time may be rolled. -/
def attempts (settings : WorkerSettings) (work : Work) : List Attempt :=
  work.passes settings.range (settings.rolls + 1)

/-- No attempt leaves the range. -/
theorem contains_of_mem_attempts {settings : WorkerSettings} {work : Work} {attempt : Attempt}
    (member : attempt ∈ settings.attempts work) :
    settings.range.contains attempt.nonce = true := by
  simp only [attempts, Work.passes, List.mem_flatMap] at member
  obtain ⟨roll, -, inPass⟩ := member
  obtain ⟨-, nonce, atLeast, below, same⟩ := Work.mem_pass inPass
  have value : attempt.nonce.toNat = nonce := by
    have bounded := settings.range.bounded
    rw [same, UInt32.toNat_ofNat']
    exact Nat.mod_eq_of_lt (Nat.lt_of_lt_of_le below bounded)
  simp only [NonceRange.contains, Bool.and_eq_true, decide_eq_true_eq, UInt32.le_iff_toNat_le,
    value]
  exact ⟨atLeast, below⟩

end WorkerSettings

namespace Search

/-- The attempts that a search has behind it. -/
def tried (range : NonceRange) (search : Search) : List Attempt :=
  search.work.passes range search.rolls ++
    search.work.pass search.rolls range.start.toNat search.next

/-- The attempt at the time that a search has come to. -/
def attempt (search : Search) (nonce : UInt32) : Attempt :=
  ⟨search.work.job.ntime + UInt32.ofNat search.rolls, nonce⟩

/-- A search that stands at a place in the list of attempts. -/
structure OnCourse (settings : WorkerSettings) (search : Search) : Prop where
  /-- The template is the header of the work at the time of the search. -/
  template : search.template = ⟨search.work.headerBytes (search.attempt 0)⟩
  rolls : search.rolls ≤ settings.rolls
  start : settings.range.start.toNat ≤ search.next
  stop : search.next ≤ settings.range.stop

variable {settings : WorkerSettings} {search : Search}

/-- What a search has behind it is the beginning of the list of attempts. -/
theorem OnCourse.tried_prefix (onCourse : OnCourse settings search) :
    search.tried settings.range <+: settings.attempts search.work := by
  have pass := search.work.pass_append search.rolls onCourse.start onCourse.stop
  have upToHere : search.tried settings.range <+:
      search.work.passes settings.range (search.rolls + 1) := by
    rw [Work.passes_succ, ← pass, ← List.append_assoc]
    exact List.prefix_append _ _
  exact upToHere.trans
    (search.work.passes_prefix settings.range (Nat.succ_le_succ onCourse.rolls))

/-- Behind the last nonce of the last pass a search has made all attempts. -/
theorem OnCourse.tried_eq_attempts (onCourse : OnCourse settings search)
    (finished : search.next = settings.range.stop) (last : settings.rolls ≤ search.rolls) :
    search.tried settings.range = settings.attempts search.work := by
  have rolls : search.rolls = settings.rolls := Nat.le_antisymm onCourse.rolls last
  rw [tried, WorkerSettings.attempts, Work.passes_succ, finished, rolls]

theorem OnCourse.ntime (onCourse : OnCourse settings search) :
    search.template.ntime = (search.attempt 0).ntime := by
  rw [onCourse.template]
  exact HeaderTemplate.ntime_serialize _

/-- A search behind its next batch. -/
def advance (settings : WorkerSettings) (search : Search) : Search :=
  { search with next := search.next + Worker.batchLength settings search }

theorem OnCourse.advance (onCourse : OnCourse settings search) :
    OnCourse settings (search.advance settings) := by
  have length : Worker.batchLength settings search ≤ settings.range.stop - search.next :=
    Nat.min_le_left _ _
  have stop := onCourse.stop
  exact
    { template := onCourse.template
      rolls := onCourse.rolls
      start := Nat.le_trans onCourse.start (Nat.le_add_right _ _)
      stop := by simp only [Search.advance]; omega }

@[simp] theorem advance_work : (search.advance settings).work = search.work := rfl

/-- The attempts of the next batch. -/
def batch (settings : WorkerSettings) (search : Search) : List Attempt :=
  search.work.pass search.rolls search.next (search.next + Worker.batchLength settings search)

theorem OnCourse.tried_advance (onCourse : OnCourse settings search) :
    (search.advance settings).tried settings.range =
      search.tried settings.range ++ search.batch settings := by
  simp only [tried, batch, Search.advance, List.append_assoc]
  rw [Work.pass_append _ _ onCourse.start (Nat.le_add_right _ _)]

/-- A search at the beginning of the range again, a second later. -/
def roll (settings : WorkerSettings) (search : Search) : Search :=
  { search with
    template := search.template.setNtime (search.template.ntime + 1)
    next := settings.range.start.toNat
    rolls := search.rolls + 1 }

@[simp] theorem roll_work : (search.roll settings).work = search.work := rfl

theorem OnCourse.roll (onCourse : OnCourse settings search)
    (more : search.rolls < settings.rolls) : OnCourse settings (search.roll settings) := by
  refine { template := ?_, rolls := more, start := Nat.le_refl _, stop := settings.range.ordered }
  have later : search.template.ntime + 1 = ((search.roll settings).attempt 0).ntime := by
    rw [onCourse.ntime]
    simp only [attempt, Search.roll, UInt32.ofNat_add, UInt32.add_assoc]
    rfl
  calc search.template.setNtime (search.template.ntime + 1)
      = search.template.setNtime ((search.roll settings).attempt 0).ntime := by rw [later]
    _ = HeaderTemplate.setNtime ⟨search.work.headerBytes (search.attempt 0)⟩
          ((search.roll settings).attempt 0).ntime := by rw [onCourse.template]
    _ = ⟨search.work.headerBytes ((search.roll settings).attempt 0)⟩ :=
        HeaderTemplate.setNtime_serialize _ _

/-- Rolling the time behind the last nonce leaves the same attempts behind. -/
theorem tried_roll (finished : search.next = settings.range.stop) :
    (search.roll settings).tried settings.range = search.tried settings.range := by
  simp only [tried, Search.roll, Work.passes_succ, Work.pass_self, List.append_nil, finished]

/-- A search for work that begins. -/
def fresh (settings : WorkerSettings) (work : Work) (template : HeaderTemplate) (epoch : UInt64) :
    Search :=
  { work, template, epoch, next := settings.range.start.toNat, rolls := 0 }

theorem onCourse_fresh {work : Work} {template : HeaderTemplate} (epoch : UInt64)
    (made : work.headerTemplate = .ok template) :
    OnCourse settings (fresh settings work template epoch) := by
  refine { template := ?_, rolls := Nat.zero_le _, start := Nat.le_refl _,
           stop := settings.range.ordered }
  have now : (fresh settings work template epoch).attempt 0 = ⟨work.job.ntime, 0⟩ := by
    simp [attempt, fresh]
  rw [now]
  unfold Work.headerTemplate at made
  split at made
  · exact absurd made (by simp)
  · rw [← Except.ok.inj made]
    rfl

theorem tried_fresh (work : Work) (template : HeaderTemplate) (epoch : UInt64) :
    (fresh settings work template epoch).tried settings.range = [] := by
  simp [tried, fresh, Work.passes, Work.pass_self]

/-- The headers of the next batch are those of its attempts. -/
theorem OnCourse.nextBatch_eq (onCourse : OnCourse settings search) :
    Worker.nextBatch settings search = (search.batch settings).map search.work.headerBytes := by
  simp only [Worker.nextBatch, HeaderTemplate.batch, batch, Work.pass, List.map_map,
    Nat.add_sub_cancel_left, List.range'_eq_map_range]
  refine List.map_congr_left fun index _ => ?_
  rw [onCourse.template, Function.comp_apply, Function.comp_apply]
  refine (HeaderTemplate.withNonce_serialize _ _).trans ?_
  rw [← UInt32.ofNat_add]
  rfl

/-- Looking for shares in the digests of a stretch of nonces finds the attempts that hit. -/
theorem OnCourse.sharesAmong_eq (onCourse : OnCourse settings search) (first count : Nat) :
    Worker.sharesAmong search (UInt32.ofNat first)
        ((search.work.pass search.rolls first (first + count)).map fun attempt =>
          Sha256.hashHeader (search.work.headerBytes attempt)) =
      ((search.work.pass search.rolls first (first + count)).filter search.work.hits).map
        search.work.share := by
  induction count generalizing first with
  | zero => simp [Work.pass, Worker.sharesAmong]
  | succ count ih =>
      have split : search.work.pass search.rolls first (first + (count + 1)) =
          search.attempt (UInt32.ofNat first) ::
            search.work.pass search.rolls (first + 1) (first + 1 + count) := by
        simp only [Work.pass, Nat.add_sub_cancel_left, List.range'_succ, List.map_cons, attempt]
      have next : UInt32.ofNat first + 1 = UInt32.ofNat (first + 1) := by
        rw [UInt32.ofNat_add]
        rfl
      rw [split, List.map_cons, List.filter_cons, Worker.sharesAmong, next, ih (first + 1),
        onCourse.ntime]
      have hit : search.work.target.isMetBy
            (Sha256.hashHeader (search.work.headerBytes (search.attempt (UInt32.ofNat first)))) =
          search.work.hits (search.attempt (UInt32.ofNat first)) := by
        rw [Bool.eq_iff_iff, Target.isMetBy_iff, Work.hits, decide_eq_true_eq]
        rfl
      rw [hit]
      split_ifs
      · rfl
      · rfl

/-- The shares found in the next batch are the attempts of the batch that hit, at every level. -/
theorem OnCourse.found_eq (onCourse : OnCourse settings search) :
    Worker.sharesAmong search (UInt32.ofNat search.next)
        (settings.hasher.hashBatch (Worker.nextBatch settings search)) =
      ((search.batch settings).filter search.work.hits).map search.work.share := by
  rw [Hasher.hashBatch_eq_map, onCourse.nextBatch_eq, List.map_map]
  exact onCourse.sharesAmong_eq search.next (Worker.batchLength settings search)

end Search

end StratumMiner
