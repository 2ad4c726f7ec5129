import Mathlib
import StratumMiner.Proofs.Mining.WorkerRun

/-!
# The batch in flight

Before each batch a worker passes two gates: it looks whether the miner still runs, and whether the
epoch is still that of its work.  Then it looks for an order, and only then it hashes.  When a gate
is closed to a worker, the batch that is past it is in flight: the worker can finish that batch and
send what it finds in it, and no step brings another batch past the gate.

What a worker hashes and sends in a step is for the search that it has in hand.
-/

namespace StratumMiner

/-- What a worker looks at before a batch to learn whether its work is still wanted. -/
inductive Gate where
  | flag
  | epoch
  deriving Repr, DecidableEq

/-- The share that is sent, if one is. -/
def Worker.Effect.share? : Worker.Effect → Option Share
  | .send share => some share
  | _ => none

namespace Worker

/-- Whether a worker at this point will hash the next batch unless another order comes in: it has
passed the gate, and the other things that it looks at before the batch do not hold it. -/
def isPast (gate : Gate) (orders : List Order) : BatchPoint → Bool
  | .hashing => true
  | .inbox => orders.isEmpty
  | .epoch => decide (gate = .flag) && orders.isEmpty
  | .running | .sending _ _ => false

/-- The search whose next batch is past the gate. -/
def inFlight? (gate : Gate) (worker : Worker) : Option Search :=
  match worker.stage with
  | .searching search _ _ point =>
      if isPast gate worker.inbox.orders point then some search else none
  | _ => none

/-- The batch that is past the gate, if one is. -/
def batchInFlight? (gate : Gate) (worker : Worker) : Option (List HeaderBytes) :=
  (worker.inFlight? gate).map (nextBatch worker.settings)

/-- The shares in the next batch of a search. -/
def found (settings : WorkerSettings) (search : Search) : List Share :=
  sharesAmong search (UInt32.ofNat search.next)
    (settings.hasher.hashBatch (nextBatch settings search))

/-- The shares still to be sent of the batch that has been hashed last, or of the one that is past
the gate. -/
def sharesInFlight (gate : Gate) (worker : Worker) : List Share :=
  worker.unsent ++ (worker.inFlight? gate).toList.flatMap (found worker.settings)

/-- The batch that a worker hashes in its next step. -/
def batchNow? (worker : Worker) : Option (List HeaderBytes) :=
  match worker.stage with
  | .searching search _ _ .hashing => some (nextBatch worker.settings search)
  | _ => none

/-- No batch is longer than what the kernel takes at once. -/
theorem length_of_batchInFlight? {gate : Gate} {worker : Worker} {batch : List HeaderBytes}
    (inFlight : worker.batchInFlight? gate = some batch) :
    batch.length ≤ worker.settings.hasher.level.batchSize := by
  obtain ⟨search, -, rfl⟩ := Option.map_eq_some_iff.mp inFlight
  rw [nextBatch, HeaderTemplate.batch, List.length_map, List.length_range]
  exact Nat.min_le_right _ _

end Worker

/-! ## One step -/

/-- Whether a worker in this stage is on its way from the first gate to a batch. -/
def WorkerStage.isUnderWay : WorkerStage → Bool
  | .searching _ _ _ .epoch | .searching _ _ _ .inbox | .searching _ _ _ .hashing => true
  | _ => false

namespace Worker

/-- No batch is under way and no share is or has been sent. -/
structure Clear (after : Worker × List Effect) : Prop where
  stage : after.1.stage.isUnderWay = false
  unsent : after.1.unsent = []
  shares : after.2.filterMap Effect.share? = []

variable (worker : Worker) (search : Search) (batches hashed : Nat)

theorem exhaust_clear : Clear (worker.exhaust search hashed) := by
  unfold exhaust
  split <;> exact ⟨rfl, rfl, rfl⟩

theorem afterBatch_clear : Clear (worker.afterBatch search batches hashed) := by
  unfold afterBatch
  split
  · exact ⟨rfl, rfl, rfl⟩
  · split
    · exact worker.exhaust_clear search hashed
    · exact ⟨rfl, rfl, rfl⟩

theorem follow_clear (epoch : UInt64) (inHand : Option Search) (order : Order) :
    Clear (worker.follow epoch inHand order) := by
  cases order with
  | assign work workEpoch =>
      simp only [follow, begin]
      split
      · split <;> exact ⟨rfl, rfl, rfl⟩
      · exact ⟨rfl, rfl, rfl⟩
  | idle => cases inHand <;> exact ⟨rfl, rfl, rfl⟩
  | shutdown => exact ⟨rfl, rfl, rfl⟩

/-- A gate is closed to a worker: what it looks at, or what it looks at next, holds it. -/
def Barred (gate : Gate) (running : Bool) (epoch : UInt64) (worker : Worker) : Prop :=
  match gate with
  | .flag => running = false
  | .epoch => ∀ search batches hashed, worker.stage = .searching search batches hashed .epoch →
      search.epoch = epoch → worker.inbox.orders ≠ []

/-- What a worker does and may still do is what it might have done before. -/
structure Spends (gate : Gate) (before : Worker) (after : Worker × List Effect) : Prop where
  batches : before.batchNow?.toList ++ (after.1.batchInFlight? gate).toList <+:
    (before.batchInFlight? gate).toList
  shares : after.2.filterMap Effect.share? ++ after.1.sharesInFlight gate <+:
    before.sharesInFlight gate

variable {worker search batches hashed} {gate : Gate} {running : Bool} {epoch : UInt64}
  {after : Worker × List Effect}

theorem inFlight?_of_not_isUnderWay (resting : worker.stage.isUnderWay = false) (gate : Gate) :
    worker.inFlight? gate = none := by
  unfold inFlight?
  split
  · next search batches hashed point stage =>
      rw [stage] at resting
      cases point <;> first | rfl | exact absurd resting (by simp [WorkerStage.isUnderWay])
  · rfl

theorem Clear.inFlight? (clear : Clear after) (gate : Gate) : after.1.inFlight? gate = none :=
  inFlight?_of_not_isUnderWay clear.stage gate

theorem Clear.batchInFlight? (clear : Clear after) (gate : Gate) :
    after.1.batchInFlight? gate = none := by
  rw [Worker.batchInFlight?, clear.inFlight? gate, Option.map_none]

theorem Clear.sharesInFlight (clear : Clear after) (gate : Gate) :
    after.1.sharesInFlight gate = [] := by
  rw [Worker.sharesInFlight, clear.inFlight? gate, clear.unsent]
  rfl

theorem Clear.spends (clear : Clear after) (notNow : worker.batchNow? = none) :
    Spends gate worker after := by
  refine ⟨?_, ?_⟩
  · rw [clear.batchInFlight?, notNow]
    exact List.nil_prefix
  · rw [clear.shares, clear.sharesInFlight]
    exact List.nil_prefix

theorem hash_spends (stage : worker.stage = .searching search batches hashed .hashing) :
    Spends gate worker (worker.hash search batches hashed) := by
  have now : worker.batchNow? = some (nextBatch worker.settings search) := by
    simp only [batchNow?, stage]
  have inFlight : worker.inFlight? gate = some search := by
    simp only [inFlight?, stage, isPast, if_true]
  have before : (worker.batchInFlight? gate).toList = worker.batchNow?.toList := by
    rw [batchInFlight?, inFlight, now, Option.map_some]
  have clearSpends (clear : Clear (worker.hash search batches hashed)) :
      Spends gate worker (worker.hash search batches hashed) := by
    refine ⟨?_, ?_⟩
    · rw [clear.batchInFlight?, before, Option.toList_none, List.append_nil]
    · rw [clear.shares, clear.sharesInFlight]
      exact List.nil_prefix
  have due : worker.sharesInFlight gate = found worker.settings search := by
    simp only [sharesInFlight, unsent, stage, inFlight, Option.toList_some, List.flatMap_singleton,
      List.nil_append]
  unfold hash at clearSpends ⊢
  split
  · next finished =>
      rw [if_pos finished] at clearSpends
      exact clearSpends (worker.exhaust_clear search hashed)
  · next unfinished =>
      simp only [if_neg unfinished] at clearSpends
      simp only
      split
      · next none =>
          rw [none] at clearSpends
          exact clearSpends (worker.afterBatch_clear _ batches _)
      · next share others some =>
          refine ⟨?_, ?_⟩
          · rw [before]
            change worker.batchNow?.toList ++ [] <+: _
            rw [List.append_nil]
          · rw [due, found, some]
            change share :: others ++ [] <+: _
            rw [List.append_nil]

theorem stepSearch_spends {point : BatchPoint}
    (stage : worker.stage = .searching search batches hashed point)
    (barred : worker.Barred gate running epoch) :
    Spends gate worker (worker.stepSearch running epoch search batches hashed point) := by
  cases point with
  | running =>
      have notNow : worker.batchNow? = none := by simp only [batchNow?, stage]
      cases running with
      | false => exact Clear.spends ⟨rfl, rfl, rfl⟩ notNow
      | true =>
          cases gate with
          | flag => exact absurd barred (by simp [Barred])
          | epoch =>
              refine ⟨?_, ?_⟩
              · rw [notNow]
                exact List.nil_prefix
              · exact List.nil_prefix
  | epoch =>
      have notNow : worker.batchNow? = none := by simp only [batchNow?, stage]
      by_cases current : epoch = search.epoch
      · simp only [stepSearch, if_pos current]
        cases gate with
        | flag =>
            refine ⟨?_, ?_⟩
            · rw [notNow]
              simp [batchInFlight?, inFlight?, stage, isPast]
            · simp [sharesInFlight, unsent, inFlight?, stage, isPast]
        | epoch =>
            have waiting : worker.inbox.orders.isEmpty = false := by
              simpa using barred search batches hashed stage current.symm
            refine ⟨?_, ?_⟩
            · rw [notNow]
              simp [batchInFlight?, inFlight?, isPast, waiting]
            · simp [sharesInFlight, unsent, inFlight?, isPast, waiting]
      · simp only [stepSearch, if_neg current]
        exact Clear.spends ⟨rfl, rfl, rfl⟩ notNow
  | inbox =>
      have notNow : worker.batchNow? = none := by simp only [batchNow?, stage]
      cases orders : worker.inbox.orders with
      | cons order others =>
          simp only [stepSearch, orders]
          exact Clear.spends ⟨rfl, rfl, rfl⟩ notNow
      | nil =>
          cases further : worker.inbox.isOpen with
          | true =>
              simp only [stepSearch, orders, further, if_true]
              refine ⟨?_, ?_⟩
              · rw [notNow]
                simp [batchInFlight?, inFlight?, stage, isPast, orders]
              · simp [sharesInFlight, unsent, inFlight?, stage, isPast, orders]
          | false =>
              simp only [stepSearch, orders, further, Bool.false_eq_true, if_false]
              exact Clear.spends ⟨rfl, rfl, rfl⟩ notNow
  | hashing => exact hash_spends stage
  | sending share others =>
      have notNow : worker.batchNow? = none := by simp only [batchNow?, stage]
      cases others with
      | cons next others =>
          refine ⟨?_, ?_⟩
          · rw [notNow]
            exact List.nil_prefix
          · simp only [sharesInFlight, unsent, inFlight?, stage, isPast, Bool.false_eq_true,
              if_false]
            exact List.prefix_rfl
      | nil =>
          have clear := worker.afterBatch_clear search batches hashed
          have sent : (worker.stepSearch running epoch search batches hashed
              (.sending share [])).2.filterMap Effect.share? = [share] := by
            simp only [stepSearch, List.filterMap_append, clear.shares]
            rfl
          refine ⟨?_, ?_⟩
          · rw [notNow]
            exact (congrArg Option.toList (clear.batchInFlight? gate)).symm ▸ List.nil_prefix
          · rw [sent]
            refine (congrArg ([share] ++ ·) (clear.sharesInFlight gate)).symm ▸ ?_
            simp [sharesInFlight, unsent, inFlight?, stage, isPast]

/-- Behind a closed gate, a step uses up some of what is in flight. -/
theorem step_spends (barred : worker.Barred gate running epoch) :
    Spends gate worker (worker.step running epoch) := by
  unfold step
  cases stage : worker.stage with
  | ready inHand =>
      have notNow : worker.batchNow? = none := by simp only [batchNow?, stage]
      cases running with
      | false => exact Clear.spends ⟨rfl, rfl, rfl⟩ notNow
      | true => cases inHand <;> exact Clear.spends ⟨rfl, rfl, rfl⟩ notNow
  | waiting =>
      have notNow : worker.batchNow? = none := by simp only [batchNow?, stage]
      simp only
      split
      · exact Clear.spends ⟨rfl, rfl, rfl⟩ notNow
      · split <;> exact Clear.spends ⟨rfl, rfl, rfl⟩ notNow
  | following inHand order =>
      have notNow : worker.batchNow? = none := by simp only [batchNow?, stage]
      exact (worker.follow_clear epoch inHand order).spends notNow
  | searching search batches hashed point => exact stepSearch_spends stage barred
  | exited =>
      have notNow : worker.batchNow? = none := by simp only [batchNow?, stage]
      refine Clear.spends ⟨?_, ?_, rfl⟩ notNow
      · simp only [stage]
        rfl
      · simp only [unsent, stage]

/-- An order can only hold a batch back. -/
theorem tell_spends (worker : Worker) (order : Order) (gate : Gate) :
    ((worker.tell order).batchInFlight? gate).toList <+: (worker.batchInFlight? gate).toList ∧
      (worker.tell order).sharesInFlight gate <+: worker.sharesInFlight gate := by
  have told : (worker.tell order).inFlight? gate = none ∨
      (worker.tell order).inFlight? gate = worker.inFlight? gate := by
    simp only [inFlight?, tell]
    split
    · next search batches hashed point stage =>
        cases point with
        | hashing => exact .inr rfl
        | running | epoch | inbox | sending =>
            exact .inl (by simp [isPast])
    · exact .inl rfl
  rw [sharesInFlight, sharesInFlight, batchInFlight?, batchInFlight?]
  rcases told with held | same
  · rw [held]
    exact ⟨List.nil_prefix, (List.append_nil _).symm ▸ List.prefix_append _ _⟩
  · rw [same]
    exact ⟨List.prefix_rfl, List.prefix_rfl⟩

/-- Hashing sends nothing yet, and the next batch is not under way behind it. -/
theorem hash_quiet (worker : Worker) (search : Search) (batches hashed : Nat) :
    (worker.hash search batches hashed).1.stage.isUnderWay = false ∧
      (worker.hash search batches hashed).2.filterMap Effect.share? = [] := by
  unfold hash
  split
  · have clear := worker.exhaust_clear search hashed
    exact ⟨clear.stage, clear.shares⟩
  · simp only
    split
    · have clear := worker.afterBatch_clear
        { search with next := search.next + batchLength worker.settings search } batches
        (hashed + batchLength worker.settings search)
      exact ⟨clear.stage, clear.shares⟩
    · exact ⟨rfl, rfl⟩

/-- The three steps on the way to a batch: past the flag, past the epoch if it is that of the work,
and past the inbox if it is empty. -/
inductive Approaches (epoch : UInt64) (worker after : Worker) : Prop where
  | running {search : Search} {batches hashed : Nat}
      (before : worker.stage = .searching search batches hashed .running)
      (behind : after.stage = .searching search batches hashed .epoch)
  | epoch {search : Search} {batches hashed : Nat}
      (before : worker.stage = .searching search batches hashed .epoch)
      (current : epoch = search.epoch)
      (behind : after.stage = .searching search batches hashed .inbox)
  | inbox {search : Search} {batches hashed : Nat}
      (before : worker.stage = .searching search batches hashed .inbox)
      (empty : worker.inbox.orders = [])
      (behind : after.stage = .searching search batches hashed .hashing)

/-- There is no other way to a batch. -/
theorem step_approaches (underWay : (worker.step running epoch).1.stage.isUnderWay = true) :
    Approaches epoch worker (worker.step running epoch).1 := by
  unfold step at underWay ⊢
  cases stage : worker.stage with
  | ready inHand =>
      simp only [stage] at underWay
      cases running <;> cases inHand <;> exact absurd underWay Bool.false_ne_true
  | waiting =>
      simp only [stage] at underWay
      split at underWay
      · exact absurd underWay Bool.false_ne_true
      · split at underWay <;> exact absurd underWay Bool.false_ne_true
  | following inHand order =>
      simp only [stage] at underWay
      exact absurd underWay (by rw [(worker.follow_clear epoch inHand order).stage]; simp)
  | searching search batches hashed point =>
      simp only [stage] at underWay ⊢
      cases point with
      | running =>
          cases running with
          | false => exact absurd underWay Bool.false_ne_true
          | true => exact .running stage rfl
      | epoch =>
          by_cases current : epoch = search.epoch
          · simp only [stepSearch, if_pos current]
            exact .epoch stage current rfl
          · simp only [stepSearch, if_neg current] at underWay
            exact absurd underWay Bool.false_ne_true
      | inbox =>
          cases orders : worker.inbox.orders with
          | cons order others =>
              simp only [stepSearch, orders] at underWay
              exact absurd underWay Bool.false_ne_true
          | nil =>
              simp only [stepSearch, orders] at underWay ⊢
              split at underWay
              · next further =>
                  rw [if_pos further]
                  exact .inbox stage orders rfl
              · exact absurd underWay Bool.false_ne_true
      | hashing =>
          exact absurd underWay (by rw [stepSearch, (worker.hash_quiet _ _ _).1]; simp)
      | sending share others =>
          cases others with
          | cons next others => exact absurd underWay Bool.false_ne_true
          | nil =>
              have clear := worker.afterBatch_clear search batches hashed
              exact absurd underWay (by simp [stepSearch, clear.stage])
  | exited =>
      simp only [stage] at underWay
      exact absurd underWay Bool.false_ne_true

/-! ## Whose batch it is -/

theorem stepSearch_sends {point : BatchPoint}
    (stage : worker.stage = .searching search batches hashed point) :
    (worker.stepSearch running epoch search batches hashed point).2.filterMap Effect.share? <+:
      worker.unsent := by
  cases point with
  | running => cases running <;> exact List.nil_prefix
  | epoch =>
      simp only [stepSearch]
      split <;> exact List.nil_prefix
  | inbox =>
      simp only [stepSearch]
      split
      · exact List.nil_prefix
      · split <;> exact List.nil_prefix
  | hashing =>
      rw [stepSearch, (worker.hash_quiet search batches hashed).2]
      exact List.nil_prefix
  | sending share others =>
      have due : worker.unsent = [share] ++ others := by
        simp only [unsent, stage, List.singleton_append]
      rw [due]
      cases others with
      | cons next others => exact List.prefix_append _ _
      | nil =>
          have clear := worker.afterBatch_clear search batches hashed
          simp only [stepSearch, List.filterMap_append, clear.shares]
          exact List.prefix_rfl

/-- A step sends only shares that were still to be sent. -/
theorem step_sends (worker : Worker) (running : Bool) (epoch : UInt64) :
    (worker.step running epoch).2.filterMap Effect.share? <+: worker.unsent := by
  unfold step
  cases stage : worker.stage with
  | ready inHand => cases running <;> cases inHand <;> exact List.nil_prefix
  | waiting =>
      simp only
      split
      · exact List.nil_prefix
      · split <;> exact List.nil_prefix
  | following inHand order =>
      simp only [(worker.follow_clear epoch inHand order).shares]
      exact List.nil_prefix
  | searching search batches hashed point => exact stepSearch_sends stage
  | exited => exact List.nil_prefix

/-- The batch that is hashed now is a stretch of the attempts at the work in hand. -/
theorem batchNow?_of_accounted {settings : WorkerSettings} {ledger : Ledger}
    (accounted : Accounted settings (worker, ledger)) {batch : List HeaderBytes}
    (now : worker.batchNow? = some batch) :
    ∃ search, worker.search? = some search ∧
      batch = (search.batch settings).map search.work.headerBytes := by
  obtain ⟨owner, kept⟩ := accounted
  unfold batchNow? at now
  split at now
  · next search batches hashed stage =>
      obtain rfl := Option.some.inj now
      simp only [search?, stage] at kept ⊢
      exact ⟨search, rfl, owner ▸ kept.onCourse.nextBatch_eq⟩
  · exact absurd now (by simp)

end Worker

/-- A share that is still to be sent is that of an attempt that hit, at the work in hand. -/
theorem Ledger.Kept.hit_of_mem_unsent {settings : WorkerSettings} {search? : Option Search}
    {unsent : List Share} {inChunk : Nat} {ledger : Ledger}
    (kept : ledger.Kept settings search? unsent inChunk) {share : Share}
    (member : share ∈ unsent) :
    ∃ search, search? = some search ∧
      ∃ attempt, search.work.hits attempt = true ∧ share = search.work.share attempt := by
  obtain ⟨stints, hashed, sent, counted⟩ := ledger
  cases kept.tracks with
  | resting closed => exact absurd member List.not_mem_nil
  | @searching search _ latest earlier follows closed =>
      have found := List.mem_append_right latest.shares member
      rw [follows.shares, List.mem_map] at found
      obtain ⟨attempt, tried, same⟩ := found
      exact ⟨search, rfl, attempt, (List.mem_filter.mp tried).2, same.symm⟩

end StratumMiner
