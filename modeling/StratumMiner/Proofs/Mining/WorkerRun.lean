import Mathlib
import StratumMiner.Proofs.Mining.WorkerLedger

/-!
# Runs of a worker

Each step of a worker keeps its ledger as it should be, whatever the worker sees of the others in
that step; so every run does.  The ledger then says which headers have been hashed, in which order,
which shares have been sent for them, and what the count of hashes is worth.
-/

namespace StratumMiner

namespace Worker

/-- What a worker has become and what it has given to the others agree with its ledger. -/
def Keeps (settings : WorkerSettings) (ledger : Ledger) (after : Worker × List Effect) : Prop :=
  after.1.settings = settings ∧
    (after.2.foldl Ledger.enter ledger).Kept settings after.1.search? after.1.unsent
      (after.1.inChunk?.getD 0)

variable {settings : WorkerSettings} {ledger : Ledger} {worker : Worker} {search : Search}
  {inHand : Option Search} {hashed : Nat}

/-- Leaving a chunk for good. -/
theorem exit_keeps (owner : worker.settings = settings)
    (kept : ledger.Kept settings inHand [] hashed) :
    Keeps settings ledger (worker.exit [.count hashed]) :=
  ⟨owner, kept.count.drop⟩

theorem exhaust_keeps (owner : worker.settings = settings)
    (kept : ledger.Kept settings (some search) [] hashed)
    (finished : search.next = settings.range.stop) :
    Keeps settings ledger (worker.exhaust search hashed) := by
  subst owner
  unfold exhaust
  split
  · next more =>
      simp only [Bool.and_eq_true, decide_eq_true_eq] at more
      have room : search.rolls < worker.settings.rolls := by
        rw [WorkerSettings.rolls, if_pos more.1]
        exact more.2
      exact ⟨rfl, kept.count.roll finished room⟩
  · exact ⟨rfl, kept.count.drop⟩

theorem afterBatch_keeps (owner : worker.settings = settings)
    (kept : ledger.Kept settings (some search) [] hashed) (batches : Nat) :
    Keeps settings ledger (worker.afterBatch search batches hashed) := by
  unfold afterBatch
  split
  · exact ⟨owner, kept⟩
  · split
    · next finished =>
        rw [owner] at finished
        exact exhaust_keeps owner kept (Nat.le_antisymm kept.onCourse.stop finished)
    · exact ⟨owner, kept.count⟩

/-- One batch: its headers are entered, and the shares found in it are still to be sent. -/
theorem hash_keeps (owner : worker.settings = settings)
    (kept : ledger.Kept settings (some search) [] hashed) (batches : Nat) :
    Keeps settings (ledger.hash (nextBatch settings search))
      (worker.hash search batches hashed) := by
  subst owner
  have onCourse := kept.onCourse
  unfold hash
  split
  · next finished =>
      have nothing : nextBatch worker.settings search = [] := by
        simp [nextBatch, batchLength, finished, HeaderTemplate.batch]
      rw [nothing, Ledger.hash_nil]
      exact exhaust_keeps rfl kept (by have stop := onCourse.stop; omega)
  · have behind := kept.hash
    rw [← onCourse.found_eq] at behind
    simp only
    split
    · next found =>
        rw [found] at behind
        exact afterBatch_keeps rfl behind batches
    · next share others found =>
        rw [found] at behind
        exact ⟨rfl, behind⟩

theorem stepSearch_keeps (owner : worker.settings = settings) {batches : Nat} {point : BatchPoint}
    (stage : worker.stage = .searching search batches hashed point)
    (kept : ledger.Kept settings (some search) worker.unsent hashed)
    (running : Bool) (epoch : UInt64) :
    Keeps settings (ledger.hash worker.headersNow)
      (worker.stepSearch running epoch search batches hashed point) := by
  cases point with
  | running =>
      simp only [unsent, stage] at kept
      simp only [headersNow, stage, Ledger.hash_nil, stepSearch]
      split
      · exact ⟨owner, kept⟩
      · exact exit_keeps owner kept
  | epoch =>
      simp only [unsent, stage] at kept
      simp only [headersNow, stage, Ledger.hash_nil, stepSearch]
      split
      · exact ⟨owner, kept⟩
      · exact ⟨owner, kept.count.drop⟩
  | inbox =>
      simp only [unsent, stage] at kept
      simp only [headersNow, stage, Ledger.hash_nil, stepSearch]
      split
      · exact ⟨owner, kept.count⟩
      · split
        · exact ⟨owner, kept⟩
        · exact exit_keeps owner kept
  | hashing =>
      simp only [unsent, stage] at kept
      simp only [headersNow, stage, owner, stepSearch]
      exact hash_keeps owner kept batches
  | sending share others =>
      simp only [unsent, stage] at kept
      simp only [headersNow, stage, Ledger.hash_nil, stepSearch]
      split
      · exact ⟨owner, kept.send⟩
      · have sent := afterBatch_keeps owner kept.send batches
        exact ⟨sent.1, sent.2⟩

theorem begin_keeps (owner : worker.settings = settings)
    (kept : ledger.Kept settings inHand [] 0) (epoch workEpoch : UInt64) (work : Work) :
    Keeps settings ledger (worker.begin epoch work workEpoch) := by
  subst owner
  unfold begin
  split
  · split
    · next template made =>
        exact ⟨rfl, kept.start (Search.onCourse_fresh epoch made) (Search.tried_fresh work _ _)⟩
    · exact ⟨rfl, kept.drop⟩
  · exact ⟨rfl, kept.drop⟩

theorem follow_keeps (owner : worker.settings = settings)
    (kept : ledger.Kept settings inHand [] 0) (epoch : UInt64) (order : Order) :
    Keeps settings ledger (worker.follow epoch inHand order) := by
  cases order with
  | assign work workEpoch => exact begin_keeps owner kept epoch workEpoch work
  | idle =>
      simp only [follow]
      split
      · exact ⟨owner, kept.drop⟩
      · exact ⟨owner, kept.drop⟩
  | shutdown => exact ⟨owner, kept.drop⟩

/-- The ledger of a worker holds what it should. -/
def Accounted (settings : WorkerSettings) (recorded : Recorded) : Prop :=
  recorded.1.settings = settings ∧
    recorded.2.Kept settings recorded.1.search? recorded.1.unsent (recorded.1.inChunk?.getD 0)

/-- Every step keeps the ledger as it should be. -/
theorem step_keeps (accounted : Accounted settings (worker, ledger)) (running : Bool)
    (epoch : UInt64) :
    Keeps settings (ledger.hash worker.headersNow) (worker.step running epoch) := by
  obtain ⟨owner, kept⟩ := accounted
  unfold step
  cases stage : worker.stage with
  | ready inHand =>
      simp only [search?, unsent, inChunk?, stage] at kept
      simp only [headersNow, stage, Ledger.hash_nil]
      split
      · cases inHand with
        | none => exact ⟨owner, kept⟩
        | some search => exact ⟨owner, kept⟩
      · exact ⟨owner, kept.drop⟩
  | waiting =>
      simp only [search?, unsent, inChunk?, stage] at kept
      simp only [headersNow, stage, Ledger.hash_nil]
      split
      · exact ⟨owner, kept⟩
      · split
        · exact ⟨owner, kept⟩
        · exact ⟨owner, kept⟩
  | following inHand order =>
      simp only [search?, unsent, inChunk?, stage] at kept
      simp only [headersNow, stage, Ledger.hash_nil]
      exact follow_keeps owner kept epoch order
  | searching search batches hashed point =>
      simp only [search?, inChunk?, stage] at kept
      exact stepSearch_keeps owner stage kept running epoch
  | exited =>
      simp only [search?, unsent, inChunk?, stage] at kept
      simp only [headersNow, stage, Ledger.hash_nil]
      refine ⟨owner, ?_⟩
      simp only [List.foldl_nil, search?, unsent, inChunk?, stage]
      exact kept

theorem record_accounted {recorded : Recorded} (accounted : Accounted settings recorded)
    (event : WorkerEvent) : Accounted settings (record recorded event) := by
  cases event with
  | tell order => exact accounted
  | hangUp => exact accounted
  | step running epoch => exact step_keeps accounted running epoch

/-- Every run keeps the ledger as it should be. -/
theorem run_accounted (settings : WorkerSettings) (events : List WorkerEvent) :
    Accounted settings (run settings events) := by
  induction events using List.reverseRecOn with
  | nil => exact ⟨rfl, Ledger.kept_blank settings⟩
  | append_singleton events event ih =>
      rw [run, List.foldl_append]
      exact record_accounted ih event

/-- What has been hashed for a piece of work is the beginning of the attempts at it, and what has
been sent are the shares of those that hit, but for the shares that the worker is about to send for
its latest work.  No nonce outside the range has been hashed, and between chunks all headers that
have been hashed are counted. -/
theorem run_searches_in_order (settings : WorkerSettings) (events : List WorkerEvent) :
    let worker := (run settings events).1
    let ledger := (run settings events).2
    (∀ latest ∈ ledger.stints.head?, latest.Sound settings worker.unsent) ∧
      (∀ earlier ∈ ledger.stints.tail, earlier.Sound settings []) ∧
      ledger.hashed = ledger.stints.reverse.flatMap Stint.headers ∧
      ledger.sent = ledger.stints.reverse.flatMap Stint.shares ∧
      (∀ header ∈ ledger.hashed,
        settings.range.contains (HeaderTemplate.nonce ⟨header⟩) = true) ∧
      (worker.inChunk? = none → ledger.counted = UInt64.ofNat ledger.hashed.length) := by
  obtain ⟨owner, kept⟩ := run_accounted settings events
  refine ⟨kept.sound_latest, kept.sound_earlier, kept.hashed, kept.sent, ?_, ?_⟩
  · intro header member
    exact kept.contains_nonce member
  · intro outside
    have counted := kept.counted
    rw [outside] at counted
    simpa using counted

end Worker

end StratumMiner
