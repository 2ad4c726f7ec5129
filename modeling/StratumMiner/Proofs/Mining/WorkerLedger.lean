import Mathlib
import StratumMiner.Proofs.Mining.Attempt

/-!
# What a worker has done

A ledger keeps what a worker has hashed and sent, apart for each piece of work that it started on,
and the hashes that it has reported.  It is written beside the steps of a worker and never read by
them.  Orders come in, the epoch moves and the miner stops between any two steps, so a run is any
list of events; still the ledger holds, for each piece of work, the beginning of the list of
attempts at it and the shares of just those that hit.
-/

namespace StratumMiner

/-- What a worker has done for one piece of work. -/
structure Stint where
  work : Work
  /-- The headers hashed, in order. -/
  headers : List HeaderBytes
  /-- The shares sent, in order. -/
  shares : List Share
  deriving Repr, DecidableEq

/-- What a worker has done all its life. -/
structure Ledger where
  /-- The pieces of work that it started on, latest first. -/
  stints : List Stint
  /-- All headers hashed, in order. -/
  hashed : List HeaderBytes
  /-- All shares sent, in order. -/
  sent : List Share
  /-- The hashes reported, on a counter of 64 bits. -/
  counted : UInt64
  deriving Repr, DecidableEq

namespace Ledger

/-- The ledger of a worker that has done nothing. -/
def blank : Ledger :=
  { stints := [], hashed := [], sent := [], counted := 0 }

/-- Headers are hashed for the latest work. -/
def hash (ledger : Ledger) (headers : List HeaderBytes) : Ledger :=
  { ledger with
    hashed := ledger.hashed ++ headers
    stints := ledger.stints.modifyHead fun stint =>
      { stint with headers := stint.headers ++ headers } }

@[simp] theorem hash_nil (ledger : Ledger) : ledger.hash [] = ledger := by
  obtain ⟨stints, hashed, sent, counted⟩ := ledger
  cases stints <;> simp [hash]

/-- A share is sent for the latest work. -/
def send (ledger : Ledger) (share : Share) : Ledger :=
  { ledger with
    sent := ledger.sent ++ [share]
    stints := ledger.stints.modifyHead fun stint =>
      { stint with shares := stint.shares ++ [share] } }

/-- Enter what a worker gives to the others. -/
def enter (ledger : Ledger) : Worker.Effect → Ledger
  | .count hashes => { ledger with counted := ledger.counted + UInt64.ofNat hashes }
  | .send share => ledger.send share
  | .note (.starting work) =>
      { ledger with stints := { work, headers := [], shares := [] } :: ledger.stints }
  | .note _ => ledger

end Ledger

/-- What happens to a worker, or what it does. -/
inductive WorkerEvent where
  /-- An order comes in. -/
  | tell (order : Order)
  /-- No more orders can come in. -/
  | hangUp
  /-- The worker makes a step; nothing is assumed of how the two things that it may look at change
  from one step to the next. -/
  | step (running : Bool) (epoch : UInt64)
  deriving Repr, DecidableEq

namespace Worker

/-- The headers that a worker hashes in its next step. -/
def headersNow (worker : Worker) : List HeaderBytes :=
  match worker.stage with
  | .searching search _ _ .hashing => nextBatch worker.settings search
  | _ => []

/-- A worker with its ledger. -/
abbrev Recorded := Worker × Ledger

/-- The worker and the ledger behind an event. -/
def record (before : Recorded) : WorkerEvent → Recorded
  | .tell order => (before.1.tell order, before.2)
  | .hangUp => ({ before.1 with inbox := { before.1.inbox with isOpen := false } }, before.2)
  | .step running epoch =>
      let (worker, effects) := before.1.step running epoch
      (worker, effects.foldl Ledger.enter (before.2.hash before.1.headersNow))

/-- The worker and its ledger behind a list of events. -/
def run (settings : WorkerSettings) (events : List WorkerEvent) : Recorded :=
  events.foldl record ((start settings).1, Ledger.blank)

/-- The search that a worker has in hand. -/
def search? (worker : Worker) : Option Search :=
  match worker.stage with
  | .ready search | .following search _ => search
  | .searching search _ _ _ => some search
  | .waiting | .exited => none

/-- The shares that have been found and are still to be sent. -/
def unsent (worker : Worker) : List Share :=
  match worker.stage with
  | .searching _ _ _ (.sending share others) => share :: others
  | _ => []

/-- The headers hashed in the chunk in hand, or nothing when the worker is in no chunk. -/
def inChunk? (worker : Worker) : Option Nat :=
  match worker.stage with
  | .searching _ _ hashed _ => some hashed
  | _ => none

end Worker

/-! ## What the ledger holds -/

/-- The entry of one piece of work, while some shares are still to be sent: the headers are those of
the first attempts at the work, and the shares are those of the attempts that hit. -/
def Stint.Sound (settings : WorkerSettings) (unsent : List Share) (stint : Stint) : Prop :=
  ∃ tried, tried <+: settings.attempts stint.work ∧
    stint.headers = tried.map stint.work.headerBytes ∧
    stint.shares ++ unsent = (tried.filter stint.work.hits).map stint.work.share

/-- The entry of the work that a search is at. -/
structure Stint.Follows (settings : WorkerSettings) (search : Search) (unsent : List Share)
    (stint : Stint) : Prop where
  work : stint.work = search.work
  onCourse : search.OnCourse settings
  headers : stint.headers = (search.tried settings.range).map search.work.headerBytes
  shares : stint.shares ++ unsent =
    ((search.tried settings.range).filter search.work.hits).map search.work.share

theorem Stint.Follows.sound {settings : WorkerSettings} {search : Search} {unsent : List Share}
    {stint : Stint} (follows : stint.Follows settings search unsent) :
    stint.Sound settings unsent := by
  obtain ⟨work, onCourse, headers, shares⟩ := follows
  refine ⟨search.tried settings.range, ?_, ?_, ?_⟩ <;> rw [work]
  · exact onCourse.tried_prefix
  · exact headers
  · exact shares

/-- The latest entry belongs to the search in hand, if there is one; all others are closed. -/
inductive Ledger.Tracks (settings : WorkerSettings) :
    Option Search → List Share → List Stint → Prop where
  | resting {stints : List Stint} (closed : ∀ stint ∈ stints, stint.Sound settings []) :
      Tracks settings none [] stints
  | searching {search : Search} {unsent : List Share} {latest : Stint} {earlier : List Stint}
      (follows : latest.Follows settings search unsent)
      (closed : ∀ stint ∈ earlier, stint.Sound settings []) :
      Tracks settings (some search) unsent (latest :: earlier)

/-- The ledger beside a worker with this search, these shares to be sent and so many headers in its
chunk. -/
structure Ledger.Kept (settings : WorkerSettings) (search? : Option Search) (unsent : List Share)
    (inChunk : Nat) (ledger : Ledger) : Prop where
  tracks : Tracks settings search? unsent ledger.stints
  /-- Nothing has been hashed but for a piece of work. -/
  hashed : ledger.hashed = ledger.stints.reverse.flatMap Stint.headers
  sent : ledger.sent = ledger.stints.reverse.flatMap Stint.shares
  counted : ledger.counted + UInt64.ofNat inChunk = UInt64.ofNat ledger.hashed.length

namespace Ledger

variable {settings : WorkerSettings} {ledger : Ledger} {search : Search} {search? : Option Search}
  {unsent : List Share} {inChunk : Nat}

theorem kept_blank (settings : WorkerSettings) : Kept settings none [] 0 blank :=
  { tracks := .resting (by simp [blank]), hashed := rfl, sent := rfl, counted := rfl }

/-- Reporting the hashes of a chunk. -/
theorem Kept.count (kept : ledger.Kept settings search? unsent inChunk) :
    (ledger.enter (.count inChunk)).Kept settings search? unsent 0 :=
  { tracks := kept.tracks, hashed := kept.hashed, sent := kept.sent
    counted := by simpa [enter] using kept.counted }

/-- Giving up a search closes its entry. -/
theorem Kept.drop (kept : ledger.Kept settings search? [] inChunk) :
    ledger.Kept settings none [] inChunk := by
  obtain ⟨stints, hashed, sent, counted⟩ := ledger
  refine { kept with tracks := ?_ }
  cases kept.tracks with
  | resting closed => exact .resting closed
  | searching follows closed =>
      refine .resting fun stint member => ?_
      rcases List.mem_cons.mp member with rfl | member
      · exact follows.sound
      · exact closed stint member

/-- Starting on work opens an entry. -/
theorem Kept.start (kept : ledger.Kept settings search? [] inChunk)
    (onCourse : search.OnCourse settings) (fresh : search.tried settings.range = []) :
    (ledger.enter (.note (.starting search.work))).Kept settings (some search) [] inChunk := by
  have closed : ∀ stint ∈ ledger.stints, stint.Sound settings [] := by
    cases kept.drop.tracks with
    | resting closed => exact closed
  exact
    { tracks := .searching
        { work := rfl, onCourse, headers := by rw [fresh]; rfl, shares := by rw [fresh]; rfl }
        closed
      hashed := by simpa [enter] using kept.hashed
      sent := by simpa [enter] using kept.sent
      counted := kept.counted }

/-- The entry of the search in hand stands first. -/
theorem Kept.entry (kept : ledger.Kept settings (some search) unsent inChunk) :
    ∃ latest earlier, ledger.stints = latest :: earlier ∧
      latest.Follows settings search unsent ∧
      ∀ stint ∈ earlier, stint.Sound settings [] := by
  obtain ⟨stints, hashed, sent, counted⟩ := ledger
  cases kept.tracks with
  | @searching _ _ latest earlier follows closed =>
      exact ⟨latest, earlier, rfl, follows, closed⟩

/-- Hashing the next batch. -/
theorem Kept.hash (kept : ledger.Kept settings (some search) [] inChunk) :
    (ledger.hash (Worker.nextBatch settings search)).Kept settings
      (some (search.advance settings))
      (((search.batch settings).filter search.work.hits).map search.work.share)
      (inChunk + Worker.batchLength settings search) := by
  obtain ⟨latest, earlier, entries, follows, closed⟩ := kept.entry
  obtain ⟨work, onCourse, headers, shares⟩ := follows
  have length : (Worker.nextBatch settings search).length =
      Worker.batchLength settings search := by
    simp [Worker.nextBatch, HeaderTemplate.batch]
  have behind : (ledger.hash (Worker.nextBatch settings search)).stints =
      { latest with headers := latest.headers ++ Worker.nextBatch settings search } :: earlier := by
    simp [Ledger.hash, entries]
  constructor
  · rw [behind]
    refine .searching ⟨work, onCourse.advance, ?_, ?_⟩ closed
    · rw [onCourse.tried_advance, List.map_append, Search.advance_work, ← onCourse.nextBatch_eq]
      exact congrArg (· ++ _) headers
    · rw [onCourse.tried_advance, List.filter_append, List.map_append]
      exact congrArg (· ++ _) ((List.append_nil _).symm.trans shares)
  · simp [Ledger.hash, kept.hashed, entries]
  · simp [Ledger.hash, kept.sent, entries]
  · simp only [Ledger.hash, List.length_append, length, UInt64.ofNat_add]
    rw [← kept.counted]
    ac_rfl

/-- Sending the first of the shares that have been found. -/
theorem Kept.send {share : Share} {others : List Share}
    (kept : ledger.Kept settings (some search) (share :: others) inChunk) :
    (ledger.send share).Kept settings (some search) others inChunk := by
  obtain ⟨latest, earlier, entries, follows, closed⟩ := kept.entry
  obtain ⟨work, onCourse, headers, shares⟩ := follows
  have behind : (ledger.send share).stints =
      { latest with shares := latest.shares ++ [share] } :: earlier := by
    simp [Ledger.send, entries]
  constructor
  · rw [behind]
    refine .searching ⟨work, onCourse, headers, ?_⟩ closed
    rw [← shares, List.append_assoc]
    rfl
  · simp [Ledger.send, kept.hashed, entries]
  · simp [Ledger.send, kept.sent, entries]
  · exact kept.counted

/-- Rolling the time behind the last nonce of the range. -/
theorem Kept.roll (kept : ledger.Kept settings (some search) [] inChunk)
    (finished : search.next = settings.range.stop) (more : search.rolls < settings.rolls) :
    ledger.Kept settings (some (search.roll settings)) [] inChunk := by
  obtain ⟨latest, earlier, entries, follows, closed⟩ := kept.entry
  obtain ⟨work, onCourse, headers, shares⟩ := follows
  refine { kept with tracks := ?_ }
  rw [entries]
  refine .searching ⟨work, onCourse.roll more, ?_, ?_⟩ closed
  · rw [Search.tried_roll finished]
    exact headers
  · rw [Search.tried_roll finished]
    exact shares

/-- Only a search that stands in the list of attempts is in hand. -/
theorem Kept.onCourse (kept : ledger.Kept settings (some search) unsent inChunk) :
    search.OnCourse settings := by
  obtain ⟨latest, earlier, entries, follows, closed⟩ := kept.entry
  exact follows.onCourse

/-- The latest entry lacks only the shares that are still to be sent. -/
theorem Kept.sound_latest (kept : ledger.Kept settings search? unsent inChunk) :
    ∀ latest ∈ ledger.stints.head?, latest.Sound settings unsent := by
  obtain ⟨stints, hashed, sent, counted⟩ := ledger
  cases kept.tracks with
  | @resting stints closed =>
      intro latest member
      exact closed latest (List.mem_of_mem_head? member)
  | searching follows closed =>
      intro latest member
      simp only [List.head?_cons, Option.mem_def, Option.some.injEq] at member
      exact member ▸ follows.sound

theorem Kept.sound_earlier (kept : ledger.Kept settings search? unsent inChunk) :
    ∀ earlier ∈ ledger.stints.tail, earlier.Sound settings [] := by
  obtain ⟨stints, hashed, sent, counted⟩ := ledger
  cases kept.tracks with
  | resting closed =>
      intro earlier member
      exact closed earlier (List.mem_of_mem_tail member)
  | searching follows closed => exact closed

/-- Every entry is sound, for some shares still to be sent. -/
theorem Kept.sound (kept : ledger.Kept settings search? unsent inChunk) {stint : Stint}
    (member : stint ∈ ledger.stints) : ∃ missing, stint.Sound settings missing := by
  cases entries : ledger.stints with
  | nil => simp [entries] at member
  | cons latest earlier =>
      rw [entries] at member
      rcases List.mem_cons.mp member with rfl | member
      · exact ⟨unsent, kept.sound_latest stint (by simp [entries])⟩
      · exact ⟨[], kept.sound_earlier stint (by simpa [entries] using member)⟩

/-- The nonce of a header that has been hashed is in the range. -/
theorem Kept.contains_nonce (kept : ledger.Kept settings search? unsent inChunk)
    {header : HeaderBytes} (member : header ∈ ledger.hashed) :
    settings.range.contains (HeaderTemplate.nonce ⟨header⟩) = true := by
  rw [kept.hashed, List.mem_flatMap] at member
  obtain ⟨stint, inStints, inHeaders⟩ := member
  obtain ⟨missing, tried, isPrefix, headers, -⟩ := kept.sound (List.mem_reverse.mp inStints)
  rw [headers, List.mem_map] at inHeaders
  obtain ⟨attempt, inTried, rfl⟩ := inHeaders
  have nonce : HeaderTemplate.nonce ⟨stint.work.headerBytes attempt⟩ = attempt.nonce :=
    HeaderTemplate.nonce_serialize (stint.work.header attempt)
  rw [nonce]
  exact WorkerSettings.contains_of_mem_attempts (isPrefix.subset inTried)

end Ledger

end StratumMiner
