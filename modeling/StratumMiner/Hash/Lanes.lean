import StratumMiner.Hash.HeaderKernel

/-!
# Hashing many headers side by side

The wide kernels hash one header in each of `n` lanes. State and message are held word by word: a
row holds the same word of every lane, and each operation acts on whole rows, never across lanes.
A round changes only two of the eight rows; instead of moving the others along, eight rounds are
written out with the roles of the rows turned by one place each time, after which every row has
its first role again.
-/

namespace StratumMiner.Lanes

/-- One word of every lane. -/
abbrev Row (n : Nat) := Vector UInt32 n

/-- The eight chaining words of every lane. -/
structure State (n : Nat) where
  (a b c d e f g h : Row n)
  deriving Repr, DecidableEq

/-- The same word in every lane. -/
def spread {n : Nat} (word : UInt32) : Row n :=
  Vector.replicate n word

/-- Rows added lane by lane. -/
@[inline] def addRows {n : Nat} (left right : Row n) : Row n :=
  Vector.zipWith (fun (x y : UInt32) => x + y) left right

/-- Lane `i` of row `w` is word `w` of header `i`. -/
def transpose {n : Nat} (headers : Vector HeaderBytes n) : Vector (Row n) 20 :=
  let words := headers.map Sha256.headerWords
  Vector.ofFn fun row => Vector.ofFn fun lane => words[lane.val][row.val]

/-- Digest `i` is spelled by lane `i` of the eight rows. -/
def detranspose {n : Nat} (rows : Vector (Row n) 8) : Vector Bytes32 n :=
  Vector.ofFn fun lane => Sha256.wordsToBytes (rows.map fun row => row[lane.val])

/-- The eight rows in order. -/
def State.rows {n : Nat} (state : State n) : Vector (Row n) 8 :=
  #v[state.a, state.b, state.c, state.d, state.e, state.f, state.g, state.h]

/-- The state with the given rows. -/
def State.ofRows {n : Nat} (rows : Vector (Row n) 8) : State n :=
  Sha256.buildFromEight State.mk rows

/-- The chaining words of one lane. -/
def State.lane {n : Nat} (state : State n) (lane : Fin n) : Sha256.State :=
  { a := state.a[lane], b := state.b[lane], c := state.c[lane], d := state.d[lane]
    e := state.e[lane], f := state.f[lane], g := state.g[lane], h := state.h[lane] }

/-- The block of one lane. -/
def blockLane {n : Nat} (block : Vector (Row n) 16) (lane : Fin n) : Sha256.Block :=
  block.map fun row => row[lane]

/-- The start of every hash, in every lane. -/
def initialState {n : Nat} : State n :=
  let start := Sha256.initialState
  { a := spread start.a, b := spread start.b, c := spread start.c, d := spread start.d
    e := spread start.e, f := spread start.f, g := spread start.g, h := spread start.h }

/-- The block of every lane followed by as many further schedule rows as asked for. -/
def schedule {n : Nat} (block : Vector (Row n) 16) : (steps : Nat) → Vector (Row n) (16 + steps)
  | 0 => block
  | step + 1 =>
      let rows := schedule block step
      let oldest := rows[step]
      let older := rows[step + 1]
      let newer := rows[step + 9]
      let newest := rows[step + 14]
      rows.push <| Vector.ofFn fun lane =>
        (oldest[lane] + Sha256.smallSigma0 older[lane]) +
          (newer[lane] + Sha256.smallSigma1 newest[lane])

/-- The sum that a round adds to two rows, in every lane. -/
@[inline] def roundSum {n : Nat} (e f g h : Row n) (constant : UInt32) (word : Row n) : Row n :=
  Vector.ofFn fun lane =>
    ((h[lane] + Sha256.bigSigma1 e[lane]) + Sha256.choose e[lane] f[lane] g[lane]) +
      (constant + word[lane])

/-- The row that takes the first role after a round. -/
@[inline] def roundLead {n : Nat} (sum first second third : Row n) : Row n :=
  Vector.ofFn fun lane =>
    sum[lane] +
      (Sha256.bigSigma0 first[lane] + Sha256.majority first[lane] second[lane] third[lane])

/-- Eight rounds with the roles of the rows turned by one place after each. -/
def State.eightRounds {n : Nat} (state : State n) (words : Vector (Row n) 64) (group : Fin 8) :
    State n :=
  have bound := group.isLt
  let t := 8 * group.val
  let ⟨a, b, c, d, e, f, g, h⟩ := state
  let sum := roundSum e f g h Sha256.roundConstants[t] words[t]
  let d := addRows d sum
  let h := roundLead sum a b c
  let sum := roundSum d e f g Sha256.roundConstants[t + 1] words[t + 1]
  let c := addRows c sum
  let g := roundLead sum h a b
  let sum := roundSum c d e f Sha256.roundConstants[t + 2] words[t + 2]
  let b := addRows b sum
  let f := roundLead sum g h a
  let sum := roundSum b c d e Sha256.roundConstants[t + 3] words[t + 3]
  let a := addRows a sum
  let e := roundLead sum f g h
  let sum := roundSum a b c d Sha256.roundConstants[t + 4] words[t + 4]
  let h := addRows h sum
  let d := roundLead sum e f g
  let sum := roundSum h a b c Sha256.roundConstants[t + 5] words[t + 5]
  let g := addRows g sum
  let c := roundLead sum d e f
  let sum := roundSum g h a b Sha256.roundConstants[t + 6] words[t + 6]
  let f := addRows f sum
  let b := roundLead sum c d e
  let sum := roundSum f g h a Sha256.roundConstants[t + 7] words[t + 7]
  let e := addRows e sum
  let a := roundLead sum b c d
  ⟨a, b, c, d, e, f, g, h⟩

/-- Chaining rows added place by place. -/
def State.add {n : Nat} (left right : State n) : State n :=
  { a := addRows left.a right.a, b := addRows left.b right.b
    c := addRows left.c right.c, d := addRows left.d right.d
    e := addRows left.e right.e, f := addRows left.f right.f
    g := addRows left.g right.g, h := addRows left.h right.h }

/-- The compression function in every lane. -/
def State.compress {n : Nat} (state : State n) (block : Vector (Row n) 16) : State n :=
  let words := schedule block 48
  state.add (Fin.foldl 8 (fun running group => running.eightRounds words group) state)

/-- The inner digests and the padding of a thirty-two-byte message. -/
def digestBlock {n : Nat} (digest : State n) : Vector (Row n) 16 :=
  let zero := spread 0
  #v[digest.a, digest.b, digest.c, digest.d, digest.e, digest.f, digest.g, digest.h,
    spread Sha256.paddingWord, zero, zero, zero, zero, zero, zero, spread Sha256.digestBits]

/-- The digest of the digest of each header. -/
def hashHeaders {n : Nat} (headers : Vector HeaderBytes n) : Vector Bytes32 n :=
  let rows := transpose headers
  let head := initialState.compress (Sha256.headBlock rows)
  let inner := head.compress (Sha256.tailBlock spread rows)
  detranspose (initialState.compress (digestBlock inner)).rows

end StratumMiner.Lanes
