import Mathlib
import StratumMiner.Hash.Lanes

/-!
# Every lane hashes on its own

The wide kernels act on whole rows, but one lane of the result depends on that lane of the input
alone, and it is what the scalar code computes there.  The two codes differ in three places: the
wide one adds in another order, turns the roles of the rows instead of moving them, and groups the
sixty-four rounds by eight.  Each place has its lemma here, and the kernel is put together from them
for any number of lanes.
-/

namespace StratumMiner.Lanes

variable {n : Nat}

@[simp] theorem getElem_spread (word : UInt32) (lane : Nat) (inside : lane < n) :
    (spread word : Row n)[lane] = word := by
  simp [spread]

@[simp] theorem getElem_addRows (left right : Row n) (lane : Nat) (inside : lane < n) :
    (addRows left right)[lane] = left[lane] + right[lane] := by
  simp [addRows]

/-! ## The message schedule -/

@[simp] theorem getElem_blockLane (block : Vector (Row n) 16) (lane : Fin n) (index : Nat)
    (inside : index < 16) : (blockLane block lane)[index] = block[index][lane] := by
  simp [blockLane]

/-- Every row of the wide schedule holds the scalar schedule of each lane. -/
theorem getElem_schedule (block : Vector (Row n) 16) (lane : Fin n) (steps index : Nat)
    (inside : index < 16 + steps) :
    (schedule block steps)[index][lane] =
      (Sha256.schedule (blockLane block lane) steps)[index] := by
  induction steps generalizing index with
  | zero => exact (getElem_blockLane block lane index inside).symm
  | succ steps ih =>
      change ((schedule block steps).push _)[index][lane] =
        ((Sha256.schedule (blockLane block lane) steps).push _)[index]
      rcases Nat.lt_or_ge index (16 + steps) with earlier | latest
      · simp only [Vector.getElem_push_lt earlier]
        exact ih index earlier
      · obtain rfl : index = 16 + steps := by omega
        simp only [Vector.getElem_push_eq, ← ih, Fin.getElem_fin, Vector.getElem_ofFn]
        ac_rfl

/-! ## The rounds -/

/-- One round in every lane, with the rows moved along as the scalar code does it. -/
def State.round (state : State n) (constant : UInt32) (words : Row n) : State n :=
  let sum := roundSum state.e state.f state.g state.h constant words
  { a := roundLead sum state.a state.b state.c, b := state.a, c := state.b, d := state.c
    e := addRows state.d sum, f := state.e, g := state.f, h := state.g }

theorem lane_round (state : State n) (constant : UInt32) (words : Row n) (lane : Fin n) :
    (state.round constant words).lane lane = (state.lane lane).round constant (words.get lane) := by
  change _ = (state.lane lane).round constant words[lane]
  simp only [State.round, State.lane, Sha256.State.round, roundLead, roundSum, Fin.getElem_fin,
    Vector.getElem_ofFn, getElem_addRows, Sha256.State.mk.injEq, and_true, true_and]
  constructor <;> ac_rfl

/-- Turning the roles of the rows eight times brings each row back to its role. -/
theorem eightRounds_eq (state : State n) (words : Vector (Row n) 64) (group : Fin 8) :
    state.eightRounds words group =
      Fin.foldl 8
        (fun running index =>
          have inside := group.isLt
          running.round Sha256.roundConstants[8 * group.val + index.val]
            words[8 * group.val + index.val])
        state := by
  simp only [Fin.foldl_succ, Fin.foldl_zero]
  rfl

/-- A fold in groups is the fold over all members one after another. -/
theorem foldl_groups {State : Type} (count : Nat) (step : State → Fin (8 * count) → State)
    (start : State) :
    Fin.foldl count
        (fun running group =>
          Fin.foldl 8
            (fun running index =>
              step running ⟨8 * group.val + index.val, by have inside := group.isLt; omega⟩)
            running)
        start =
      Fin.foldl (8 * count) step start := by
  induction count with
  | zero => rfl
  | succ count ih =>
      rw [Fin.foldl_succ_last]
      change _ = Fin.foldl (8 * count + 8) step start
      rw [Fin.foldl_add, ← ih]
      rfl

/-- What a fold computes in one lane, when each step acts on that lane alone. -/
theorem lane_foldl (count : Nat) (wide : State n → Fin count → State n)
    (scalar : Sha256.State → Fin count → Sha256.State) (lane : Fin n)
    (step : ∀ state index, (wide state index).lane lane = scalar (state.lane lane) index)
    (start : State n) :
    (Fin.foldl count wide start).lane lane = Fin.foldl count scalar (start.lane lane) := by
  induction count generalizing start with
  | zero => rfl
  | succ count ih =>
      rw [Fin.foldl_succ, Fin.foldl_succ, ← step start 0]
      exact ih _ _ (fun state index => step state index.succ) _

@[simp] theorem lane_add (left right : State n) (lane : Fin n) :
    (left.add right).lane lane = (left.lane lane).add (right.lane lane) := by
  simp [State.add, State.lane, Sha256.State.add]

/-- Eight groups of turned rounds are the sixty-four rounds in order. -/
theorem foldl_eightRounds (state : State n) (words : Vector (Row n) 64) :
    Fin.foldl 8 (fun running group => running.eightRounds words group) state =
      Fin.foldl 64 (fun running t => running.round (Sha256.roundConstants.get t) (words.get t))
        state := by
  simp only [eightRounds_eq]
  exact foldl_groups 8
    (fun (running : State n) (t : Fin 64) =>
      running.round (Sha256.roundConstants.get t) (words.get t))
    state

/-- The wide compression function is the scalar one in every lane. -/
theorem lane_compress (state : State n) (block : Vector (Row n) 16) (lane : Fin n) :
    (state.compress block).lane lane = (state.lane lane).compress (blockLane block lane) := by
  simp only [State.compress, Sha256.State.compress, lane_add, foldl_eightRounds]
  rw [lane_foldl 64 _
    (fun running t =>
      running.round Sha256.roundConstants[t] (Sha256.schedule (blockLane block lane) 48)[t])]
  intro running t
  rw [lane_round]
  exact congrArg _ (getElem_schedule block lane 48 t t.isLt)

/-! ## Headers and digests -/

@[simp] theorem lane_initialState (lane : Fin n) :
    (initialState : State n).lane lane = Sha256.initialState := by
  simp [initialState, State.lane]

theorem map_transpose (headers : Vector HeaderBytes n) (lane : Fin n) :
    ((transpose headers).map fun row => row.get lane) =
      Sha256.headerWords (headers.get lane) := by
  ext row inside
  simp [transpose, Vector.get_eq_getElem]

theorem blockLane_headBlock (words : Vector (Row n) 20) (lane : Fin n) :
    blockLane (Sha256.headBlock words) lane =
      Sha256.headBlock (words.map fun row => row.get lane) := by
  ext index inside
  simp [Sha256.headBlock, Vector.get_eq_getElem]

theorem blockLane_tailBlock (words : Vector (Row n) 20) (lane : Fin n) :
    blockLane (Sha256.tailBlock spread words) lane =
      Sha256.tailBlock id (words.map fun row => row.get lane) := by
  simp [blockLane, Sha256.tailBlock, Vector.get_eq_getElem]

theorem blockLane_digestBlock (digest : State n) (lane : Fin n) :
    blockLane (digestBlock digest) lane = Sha256.digestBlock (digest.lane lane) := by
  simp [blockLane, digestBlock, Sha256.digestBlock, State.lane]

theorem getElem_detranspose (state : State n) (lane : Nat) (inside : lane < n) :
    (detranspose state.rows)[lane] = (state.lane ⟨lane, inside⟩).toBytes := by
  simp [detranspose, State.rows, Sha256.State.toBytes, Sha256.State.words, State.lane]

/-- The wide kernel gives each header the digest that the scalar code gives it. -/
theorem hashHeaders_eq_map (headers : Vector HeaderBytes n) :
    hashHeaders headers = headers.map Sha256.hashHeader := by
  ext1 lane inside
  rw [hashHeaders, getElem_detranspose, Vector.getElem_map]
  simp only [lane_compress, lane_initialState, blockLane_digestBlock, blockLane_tailBlock,
    blockLane_headBlock, map_transpose]
  rfl

/-! ## Each lane alone -/

theorem words_lane (state : State n) (lane : Fin n) :
    (state.lane lane).words = state.rows.map fun row => row.get lane := by
  simp [State.lane, State.rows, Sha256.State.words, Vector.get_eq_getElem]

theorem lane_ofRows (rows : Vector (Row n) 8) (lane : Fin n) :
    (State.ofRows rows).lane lane = Sha256.State.ofWords (rows.map fun row => row.get lane) := by
  simp [State.lane, State.ofRows, Sha256.State.ofWords, Sha256.buildFromEight,
    Vector.get_eq_getElem]

theorem blockLane_eq_map (block : Vector (Row n) 16) (lane : Fin n) :
    blockLane block lane = block.map fun row => row.get lane := by
  simp [blockLane, Vector.get_eq_getElem]

/-- For any number of lanes, each is a copy of the scalar code that knows nothing of the others.
What compression leaves in a lane of the eight rows is what the scalar function makes of the words
that this lane has in the rows and in the block, and the digest in a lane is the scalar digest of
the header in that lane. -/
theorem lanes_are_scalar_copies (rows : Vector (Row n) 8) (block : Vector (Row n) 16)
    (headers : Vector HeaderBytes n) (lane : Fin n) :
    (((State.ofRows rows).compress block).rows.map fun row => row.get lane) =
        ((Sha256.State.ofWords (rows.map fun row => row.get lane)).compress
          (block.map fun row => row.get lane)).words ∧
      (hashHeaders headers).get lane = Sha256.hashHeader (headers.get lane) := by
  constructor
  · rw [← words_lane, lane_compress, lane_ofRows, blockLane_eq_map]
  · rw [hashHeaders_eq_map, Vector.get_eq_getElem, Vector.getElem_map, Vector.get_eq_getElem]

end StratumMiner.Lanes
