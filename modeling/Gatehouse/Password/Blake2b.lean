/-!
# BLAKE2b

The hash function with words of 64 bits, without a key: up to 64 octets are made of octets of any
number. Every 128 octets are mixed into the state in twelve rounds.
-/

namespace Gatehouse.Password.Blake2b

def littleEndian : Nat → Nat → List UInt8
  | 0, _ => []
  | width + 1, n => UInt8.ofNat n :: littleEndian width (n / 256)

def wordOf (octets : List UInt8) : UInt64 :=
  octets.foldr (fun o w => w <<< 8 ||| o.toUInt64) 0

def octetsOf (w : UInt64) : List UInt8 :=
  littleEndian 8 w.toNat

def start : Vector UInt64 8 :=
  #v[0x6a09e667f3bcc908, 0xbb67ae8584caa73b, 0x3c6ef372fe94f82b, 0xa54ff53a5f1d36f1,
    0x510e527fade682d1, 0x9b05688c2b3e6c1f, 0x1f83d9abfb41bd6b, 0x5be0cd19137e2179]

/-- The orders in which a round takes the words of the message. -/
def orders : List (Vector (Fin 16) 16) :=
  [#v[0, 1, 2, 3, 4, 5, 6, 7, 8, 9, 10, 11, 12, 13, 14, 15],
   #v[14, 10, 4, 8, 9, 15, 13, 6, 1, 12, 0, 2, 11, 7, 5, 3],
   #v[11, 8, 12, 0, 5, 2, 15, 13, 10, 14, 3, 6, 7, 1, 9, 4],
   #v[7, 9, 3, 1, 13, 12, 11, 14, 2, 6, 5, 10, 4, 0, 15, 8],
   #v[9, 0, 5, 7, 2, 4, 10, 15, 14, 1, 11, 12, 6, 8, 3, 13],
   #v[2, 12, 6, 10, 0, 11, 8, 3, 4, 13, 7, 5, 15, 14, 1, 9],
   #v[12, 5, 1, 15, 14, 13, 4, 10, 0, 7, 6, 3, 9, 2, 8, 11],
   #v[13, 11, 7, 14, 12, 1, 3, 9, 5, 0, 15, 4, 8, 6, 2, 10],
   #v[6, 15, 14, 9, 11, 3, 0, 8, 12, 2, 13, 7, 1, 4, 10, 5],
   #v[10, 2, 8, 4, 7, 6, 1, 5, 15, 11, 9, 14, 3, 12, 13, 0],
   #v[0, 1, 2, 3, 4, 5, 6, 7, 8, 9, 10, 11, 12, 13, 14, 15],
   #v[14, 10, 4, 8, 9, 15, 13, 6, 1, 12, 0, 2, 11, 7, 5, 3]]

/-- The four places that each of the eight steps of a round mixes. -/
def places : List (Fin 16 × Fin 16 × Fin 16 × Fin 16) :=
  [(0, 4, 8, 12), (1, 5, 9, 13), (2, 6, 10, 14), (3, 7, 11, 15),
   (0, 5, 10, 15), (1, 6, 11, 12), (2, 7, 8, 13), (3, 4, 9, 14)]

@[inline] def turn (w : UInt64) (bits : UInt64) : UInt64 :=
  w >>> bits ||| w <<< (64 - bits)

def mix (v : Vector UInt64 16) (a b c d : Fin 16) (x y : UInt64) : Vector UInt64 16 :=
  let v := v.set a (v[a] + v[b] + x)
  let v := v.set d (turn (v[d] ^^^ v[a]) 32)
  let v := v.set c (v[c] + v[d])
  let v := v.set b (turn (v[b] ^^^ v[c]) 24)
  let v := v.set a (v[a] + v[b] + y)
  let v := v.set d (turn (v[d] ^^^ v[a]) 16)
  let v := v.set c (v[c] + v[d])
  v.set b (turn (v[b] ^^^ v[c]) 63)

def steps (message : Vector UInt64 16) (v : Vector UInt64 16) :
    List (Fin 16 × Fin 16 × Fin 16 × Fin 16) → List (Fin 16) → Vector UInt64 16
  | (a, b, c, d) :: more, i :: j :: order =>
    steps message (mix v a b c d message[i] message[j]) more order
  | _, _ => v

/-- The sixteen words of a block of the message; missing octets are zero. -/
def messageWords (octets : List UInt8) : Vector UInt64 16 :=
  Vector.ofFn fun i => wordOf ((octets.drop (8 * i.val)).take 8)

def compress (h : Vector UInt64 8) (block : List UInt8) (count : Nat) (isLast : Bool) :
    Vector UInt64 8 :=
  let message := messageWords block
  let v : Vector UInt64 16 := h ++ start
  let v := v.set 12 (v[12] ^^^ UInt64.ofNat count)
  let v := v.set 13 (v[13] ^^^ UInt64.ofNat (count / Nat.pow 2 64))
  let v := if isLast then v.set 14 (v[14] ^^^ 0xffffffffffffffff) else v
  let v := orders.foldl (fun v order => steps message v places order.toList) v
  Vector.ofFn fun i => h[i] ^^^ v[i.val] ^^^ v[i.val + 8]

def absorb (h : Vector UInt64 8) (count : Nat) (octets : List UInt8) : Vector UInt64 8 :=
  if _h : octets.length ≤ 128 then
    compress h octets (count + octets.length) true
  else
    absorb (compress h (octets.take 128) (count + 128) false) (count + 128) (octets.drop 128)
  termination_by octets.length
  decreasing_by simp only [List.length_drop]; omega

/-- The hash of some octets, `length` octets long; at most 64 are made. -/
def hash (length : Nat) (octets : List UInt8) : List UInt8 :=
  let h := start.set 0 (start[0] ^^^ 0x01010000 ^^^ UInt64.ofNat length)
  ((absorb h 0 octets).toList.flatMap octetsOf).take length

end Gatehouse.Password.Blake2b
