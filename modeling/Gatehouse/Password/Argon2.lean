import Gatehouse.Password.Blake2b
import Gatehouse.Password.Memory

/-!
# Argon2

The memory-hard function from a password and a salt to a tag. Memory is divided into lanes, lanes into
four slices; each block of 1024 octets is mixed from the one before it and from another one, which the
variant chooses by the content of the memory, by a schedule of its own, or by the schedule first and by
the content later.
-/

namespace Gatehouse.Password.Argon2

/-- How blocks choose the block that they are mixed with. -/
inductive Variant
  /-- By the content of the memory. -/
  | d
  /-- By a schedule. -/
  | i
  /-- By a schedule in the first half of the first pass, then by the content. -/
  | id
  deriving Repr, DecidableEq

def Variant.code : Variant → Nat
  | d => 0
  | i => 1
  | id => 2

def Variant.name : Variant → String
  | d => "argon2d"
  | i => "argon2i"
  | id => "argon2id"

/-- In the older version later passes overwrite a block, in the newer one they are added to it. -/
inductive Version
  | older
  | newer
  deriving Repr, DecidableEq

def Version.number : Version → Nat
  | older => 16
  | newer => 19

/-- What a tag is made from. Memory is counted in blocks of 1024 octets. -/
structure Job where
  variant : Variant
  version : Version
  memory : Nat
  passes : Nat
  lanes : Nat
  data : List UInt8
  salt : List UInt8
  password : List UInt8
  /-- The length of the tag. -/
  length : Nat
  deriving Repr, DecidableEq

/-! ## Mixing a block -/

@[inline] def addMul (a b : UInt64) : UInt64 :=
  a + b + 2 * ((a &&& 0xffffffff) * (b &&& 0xffffffff))

@[inline] def mixFour {α : Type} (a b c d : UInt64)
    (next : UInt64 → UInt64 → UInt64 → UInt64 → α) : α :=
  let a := addMul a b
  let d := Blake2b.turn (d ^^^ a) 32
  let c := addMul c d
  let b := Blake2b.turn (b ^^^ c) 24
  let a := addMul a b
  let d := Blake2b.turn (d ^^^ a) 16
  let c := addMul c d
  let b := Blake2b.turn (b ^^^ c) 63
  next a b c d

/-- Mixes sixteen words, first down, then aslant, and goes on with them. -/
@[inline] def mixSixteen {α : Type}
    (w0 w1 w2 w3 w4 w5 w6 w7 w8 w9 w10 w11 w12 w13 w14 w15 : UInt64)
    (next : UInt64 → UInt64 → UInt64 → UInt64 → UInt64 → UInt64 → UInt64 → UInt64 → UInt64 →
      UInt64 → UInt64 → UInt64 → UInt64 → UInt64 → UInt64 → UInt64 → α) : α :=
  mixFour w0 w4 w8 w12 fun w0 w4 w8 w12 =>
  mixFour w1 w5 w9 w13 fun w1 w5 w9 w13 =>
  mixFour w2 w6 w10 w14 fun w2 w6 w10 w14 =>
  mixFour w3 w7 w11 w15 fun w3 w7 w11 w15 =>
  mixFour w0 w5 w10 w15 fun w0 w5 w10 w15 =>
  mixFour w1 w6 w11 w12 fun w1 w6 w11 w12 =>
  mixFour w2 w7 w8 w13 fun w2 w7 w8 w13 =>
  mixFour w3 w4 w9 w14 fun w3 w4 w9 w14 =>
  next w0 w1 w2 w3 w4 w5 w6 w7 w8 w9 w10 w11 w12 w13 w14 w15

variable {n : Nat}

def mixRow (m : Memory n) (x y z : USize) : Memory n :=
  if h : x.toNat + 128 ≤ n ∧ y.toNat + 128 ≤ n ∧ z.toNat + 128 ≤ n then
    mixSixteen
      (m.word x 0 (by omega) ^^^ m.word y 0 (by omega))
      (m.word x 8 (by omega) ^^^ m.word y 8 (by omega))
      (m.word x 16 (by omega) ^^^ m.word y 16 (by omega))
      (m.word x 24 (by omega) ^^^ m.word y 24 (by omega))
      (m.word x 32 (by omega) ^^^ m.word y 32 (by omega))
      (m.word x 40 (by omega) ^^^ m.word y 40 (by omega))
      (m.word x 48 (by omega) ^^^ m.word y 48 (by omega))
      (m.word x 56 (by omega) ^^^ m.word y 56 (by omega))
      (m.word x 64 (by omega) ^^^ m.word y 64 (by omega))
      (m.word x 72 (by omega) ^^^ m.word y 72 (by omega))
      (m.word x 80 (by omega) ^^^ m.word y 80 (by omega))
      (m.word x 88 (by omega) ^^^ m.word y 88 (by omega))
      (m.word x 96 (by omega) ^^^ m.word y 96 (by omega))
      (m.word x 104 (by omega) ^^^ m.word y 104 (by omega))
      (m.word x 112 (by omega) ^^^ m.word y 112 (by omega))
      (m.word x 120 (by omega) ^^^ m.word y 120 (by omega))
      fun w0 w1 w2 w3 w4 w5 w6 w7 w8 w9 w10 w11 w12 w13 w14 w15 =>
        let m := m.setWord z 0 w0 (by omega)
        let m := m.setWord z 8 w1 (by omega)
        let m := m.setWord z 16 w2 (by omega)
        let m := m.setWord z 24 w3 (by omega)
        let m := m.setWord z 32 w4 (by omega)
        let m := m.setWord z 40 w5 (by omega)
        let m := m.setWord z 48 w6 (by omega)
        let m := m.setWord z 56 w7 (by omega)
        let m := m.setWord z 64 w8 (by omega)
        let m := m.setWord z 72 w9 (by omega)
        let m := m.setWord z 80 w10 (by omega)
        let m := m.setWord z 88 w11 (by omega)
        let m := m.setWord z 96 w12 (by omega)
        let m := m.setWord z 104 w13 (by omega)
        let m := m.setWord z 112 w14 (by omega)
        m.setWord z 120 w15 (by omega)
  else
    m

/--
Mixes a column of the eight rows of a block, adds the sum of two blocks, and puts the column into a
fourth block, which it is added to or overwrites.
-/
def mixColumn (m : Memory n) (x y z target : USize) (isAdded : Bool) : Memory n :=
  if h : x.toNat + 912 ≤ n ∧ y.toNat + 912 ≤ n ∧ z.toNat + 912 ≤ n ∧ target.toNat + 912 ≤ n then
    let put (m : Memory n) (k : Nat) (w : UInt64) (hk : k + 8 ≤ 912) : Memory n :=
      let w := w ^^^ m.word x k (by omega) ^^^ m.word y k (by omega)
      let w := if isAdded then w ^^^ m.word target k (by omega) else w
      m.setWord target k w (by omega)
    mixSixteen
      (m.word z 0 (by omega))
      (m.word z 8 (by omega))
      (m.word z 128 (by omega))
      (m.word z 136 (by omega))
      (m.word z 256 (by omega))
      (m.word z 264 (by omega))
      (m.word z 384 (by omega))
      (m.word z 392 (by omega))
      (m.word z 512 (by omega))
      (m.word z 520 (by omega))
      (m.word z 640 (by omega))
      (m.word z 648 (by omega))
      (m.word z 768 (by omega))
      (m.word z 776 (by omega))
      (m.word z 896 (by omega))
      (m.word z 904 (by omega))
      fun w0 w1 w2 w3 w4 w5 w6 w7 w8 w9 w10 w11 w12 w13 w14 w15 =>
        let m := put m 0 w0 (by omega)
        let m := put m 8 w1 (by omega)
        let m := put m 128 w2 (by omega)
        let m := put m 136 w3 (by omega)
        let m := put m 256 w4 (by omega)
        let m := put m 264 w5 (by omega)
        let m := put m 384 w6 (by omega)
        let m := put m 392 w7 (by omega)
        let m := put m 512 w8 (by omega)
        let m := put m 520 w9 (by omega)
        let m := put m 640 w10 (by omega)
        let m := put m 648 w11 (by omega)
        let m := put m 768 w12 (by omega)
        let m := put m 776 w13 (by omega)
        let m := put m 896 w14 (by omega)
        put m 904 w15 (by omega)
  else
    m

def mixRows : Nat → Memory n → USize → USize → USize → Memory n
  | 0, m, _, _, _ => m
  | k + 1, m, x, y, z => mixRows k (mixRow m x y z) (x + 128) (y + 128) (z + 128)

def mixColumns (isAdded : Bool) : Nat → Memory n → USize → USize → USize → USize → Memory n
  | 0, m, _, _, _, _ => m
  | k + 1, m, x, y, z, target =>
    mixColumns isAdded k (mixColumn m x y z target isAdded) (x + 16) (y + 16) (z + 16) (target + 16)

/-- Mixes two blocks into a third one, using a fourth one between. Blocks are told by their places. -/
def mixBlocks (m : Memory n) (x y between target : Nat) (isAdded : Bool) : Memory n :=
  let x := USize.ofNat x
  let y := USize.ofNat y
  let between := USize.ofNat between
  mixColumns isAdded 8 (mixRows 8 m x y between) x y between (USize.ofNat target)

/-! ## Filling the memory -/

namespace Job

def segment (job : Job) : Nat :=
  job.memory / (4 * job.lanes)

def laneBlocks (job : Job) : Nat :=
  4 * job.segment

def blocks (job : Job) : Nat :=
  job.lanes * job.laneBlocks

/-- The places of four more blocks: one to mix in, one of zeros, and the schedule's seed and content. -/
def spare (job : Job) (k : Nat) : Nat :=
  1024 * (job.blocks + k)

def octets (job : Job) : Nat :=
  1024 * (job.blocks + 4)

def scheduled (job : Job) (pass slice : Nat) : Bool :=
  match job.variant with
  | .d => false
  | .i => true
  | .id => pass = 0 && slice < 2

end Job

def measured (octets : List UInt8) : List UInt8 :=
  Blake2b.littleEndian 4 octets.length ++ octets

def seed (job : Job) : List UInt8 :=
  Blake2b.hash 64
    (([job.lanes, job.length, job.memory, job.passes, job.version.number, job.variant.code].flatMap
        (Blake2b.littleEndian 4))
      ++ measured job.password ++ measured job.salt ++ measured [] ++ measured job.data)

/-- The pieces of a long hash: 32 octets of each hash, and all of the last one. -/
def longPieces (last : List UInt8) : Nat → List UInt8
  | length =>
    if _h : length ≤ 64 then
      Blake2b.hash length last
    else
      let next := Blake2b.hash 64 last
      next.take 32 ++ longPieces next (length - 32)
  termination_by length => length

def longHash (length : Nat) (octets : List UInt8) : List UInt8 :=
  longPieces (Blake2b.littleEndian 4 length ++ octets) length

def wordsOf : List UInt8 → List UInt64
  | a :: b :: c :: d :: e :: f :: g :: h :: rest =>
    Blake2b.wordOf [a, b, c, d, e, f, g, h] :: wordsOf rest
  | _ => []

def startLane (job : Job) (seed : List UInt8) (lane : Nat) (m : Memory job.octets) :
    Memory job.octets :=
  let block (k : Nat) : List UInt64 :=
    wordsOf (longHash 1024 (seed ++ Blake2b.littleEndian 4 k ++ Blake2b.littleEndian 4 lane))
  let place := 1024 * (lane * job.laneBlocks)
  (m.putWords place (block 0)).putWords (place + 1024) (block 1)

/--
The block that a word chooses for the block at `index` of a slice: of its own lane it may be any that is
complete, of another lane none of the slice in progress. Later blocks are likelier.
-/
def chosenBlock (job : Job) (pass slice lane index : Nat) (word : UInt64) : Nat :=
  let low := word.toNat % Nat.pow 2 32
  let source := if pass = 0 ∧ slice = 0 then lane else word.toNat / Nat.pow 2 32 % job.lanes
  let complete := if pass = 0 then slice * job.segment else job.laneBlocks - job.segment
  let area :=
    if source = lane then complete + index - 1
    else if index = 0 then complete - 1
    else complete
  let back := area * (low * low / Nat.pow 2 32) / Nat.pow 2 32
  let first := if pass = 0 ∨ slice = 3 then 0 else (slice + 1) * job.segment
  source * job.laneBlocks + (first + area - 1 - back) % job.laneBlocks

def makeSchedule (job : Job) (pass slice lane index : Nat) (m : Memory job.octets) :
    Memory job.octets :=
  let words :=
    [pass, lane, slice, job.blocks, job.passes, job.variant.code, index / 128 + 1].map UInt64.ofNat
  let m := m.putWords (job.spare 2) words
  let m := mixBlocks m (job.spare 1) (job.spare 2) (job.spare 0) (job.spare 3) false
  mixBlocks m (job.spare 1) (job.spare 3) (job.spare 0) (job.spare 3) false

def fillBlock (job : Job) (pass slice lane index : Nat) (m : Memory job.octets) :
    Memory job.octets :=
  let inLane := slice * job.segment + index
  let block := lane * job.laneBlocks + inLane
  let before := if inLane = 0 then block + job.laneBlocks - 1 else block - 1
  let go (m : Memory job.octets) (word : UInt64) : Memory job.octets :=
    let other := chosenBlock job pass slice lane index word
    mixBlocks m (1024 * before) (1024 * other) (job.spare 0) (1024 * block)
      (pass != 0 && job.version = .newer)
  if job.scheduled pass slice then
    let isFirst := index % 128 = 0 ∨ (pass = 0 ∧ slice = 0 ∧ index = 2)
    let m := if isFirst then makeSchedule job pass slice lane index m else m
    let word := m.wordAt (job.spare 3 + 8 * (index % 128))
    go m word
  else
    let word := m.wordAt (1024 * before)
    go m word

def fillBlocks (job : Job) (pass slice lane : Nat) :
    Nat → Nat → Memory job.octets → Memory job.octets
  | 0, _, m => m
  | count + 1, index, m =>
    fillBlocks job pass slice lane count (index + 1) (fillBlock job pass slice lane index m)

/-- Fills a slice of all lanes. The first two blocks of each lane are there from the start. -/
def fillSlice (job : Job) (pass slice : Nat) (m : Memory job.octets) : Memory job.octets :=
  job.lanes.fold
    (fun lane _ m =>
      let first := if pass = 0 ∧ slice = 0 then 2 else 0
      fillBlocks job pass slice lane (job.segment - first) first m)
    m

def fill (job : Job) (m : Memory job.octets) : Memory job.octets :=
  job.passes.fold
    (fun pass _ m => fillSlice job pass 3 (fillSlice job pass 2 (fillSlice job pass 1
      (fillSlice job pass 0 m))))
    m

def lastWord (job : Job) (m : Memory job.octets) (k : Nat) : UInt64 :=
  job.lanes.fold
    (fun lane _ w => w ^^^ m.wordAt (1024 * ((lane + 1) * job.laneBlocks - 1) + 8 * k))
    0

def tag (job : Job) : List UInt8 :=
  let start := seed job
  let m := job.lanes.fold (fun lane _ m => startLane job start lane m) (Memory.blank job.octets)
  let m := fill job m
  longHash job.length ((List.range 128).flatMap fun k => Blake2b.octetsOf (lastWord job m k))

end Gatehouse.Password.Argon2
