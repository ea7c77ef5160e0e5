/-!
# Memory of words

A fixed number of octets, from which words of eight octets are taken and into which they are put, the
lowest octet first. A place is a machine word and a small distance from it; each access carries the
proof that it stays inside.
-/

namespace Gatehouse.Password

structure Memory (n : Nat) where
  octets : ByteArray
  size_eq : octets.size = n

theorem toNat_add_ofNat_le (i : USize) (k : Nat) : (i + USize.ofNat k).toNat ≤ i.toNat + k := by
  rw [USize.toNat_add, USize.toNat_ofNat']
  refine Nat.le_trans (Nat.mod_le _ _) ?_
  exact Nat.add_le_add_left (Nat.mod_le _ _) _

def zeros (n : Nat) : { octets : ByteArray // octets.size = n } :=
  if _h : n = 0 then
    ⟨ByteArray.empty, by subst _h; rfl⟩
  else
    let half := zeros (n / 2)
    if hodd : n % 2 = 1 then
      ⟨(half.val ++ half.val).push 0, by
        have := half.property
        simp only [ByteArray.size_push, ByteArray.size_append]
        omega⟩
    else
      ⟨half.val ++ half.val, by
        have := half.property
        simp only [ByteArray.size_append]
        omega⟩
  termination_by n
  decreasing_by omega

theorem size_uset (octets : ByteArray) (i : USize) (o : UInt8) (h : i.toNat < octets.size) :
    (octets.uset i o h).size = octets.size := by
  obtain ⟨data⟩ := octets
  exact Array.size_uset ..

namespace Memory

variable {n : Nat}

def blank (n : Nat) : Memory n :=
  ⟨(zeros n).val, (zeros n).property⟩

@[inline] def octet (m : Memory n) (i : USize) (k : Nat) (h : i.toNat + k < n) : UInt64 :=
  (m.octets.uget (i + USize.ofNat k)
    (Nat.lt_of_le_of_lt (toNat_add_ofNat_le i k) (Nat.lt_of_lt_of_eq h m.size_eq.symm))).toUInt64

@[inline] def setOctet (m : Memory n) (i : USize) (k : Nat) (o : UInt8) (h : i.toNat + k < n) :
    Memory n :=
  ⟨m.octets.uset (i + USize.ofNat k) o
      (Nat.lt_of_le_of_lt (toNat_add_ofNat_le i k) (Nat.lt_of_lt_of_eq h m.size_eq.symm)),
    (size_uset ..).trans m.size_eq⟩

@[inline] def word (m : Memory n) (i : USize) (k : Nat) (h : i.toNat + k + 8 ≤ n) : UInt64 :=
  m.octet i k (by omega) ||| m.octet i (k + 1) (by omega) <<< 8
    ||| m.octet i (k + 2) (by omega) <<< 16 ||| m.octet i (k + 3) (by omega) <<< 24
    ||| m.octet i (k + 4) (by omega) <<< 32 ||| m.octet i (k + 5) (by omega) <<< 40
    ||| m.octet i (k + 6) (by omega) <<< 48 ||| m.octet i (k + 7) (by omega) <<< 56

@[inline] def setWord (m : Memory n) (i : USize) (k : Nat) (w : UInt64) (h : i.toNat + k + 8 ≤ n) :
    Memory n :=
  let m := m.setOctet i k w.toUInt8 (by omega)
  let m := m.setOctet i (k + 1) (w >>> 8).toUInt8 (by omega)
  let m := m.setOctet i (k + 2) (w >>> 16).toUInt8 (by omega)
  let m := m.setOctet i (k + 3) (w >>> 24).toUInt8 (by omega)
  let m := m.setOctet i (k + 4) (w >>> 32).toUInt8 (by omega)
  let m := m.setOctet i (k + 5) (w >>> 40).toUInt8 (by omega)
  let m := m.setOctet i (k + 6) (w >>> 48).toUInt8 (by omega)
  m.setOctet i (k + 7) (w >>> 56).toUInt8 (by omega)

/-- The word at a place, or zero outside. -/
def wordAt (m : Memory n) (i : Nat) : UInt64 :=
  let place := USize.ofNat i
  if h : place.toNat + 8 ≤ n then m.word place 0 (by omega) else 0

/-- Puts a word in a place, unless it is outside. -/
def putWord (m : Memory n) (i : Nat) (w : UInt64) : Memory n :=
  let place := USize.ofNat i
  if h : place.toNat + 8 ≤ n then m.setWord place 0 w (by omega) else m

def putWords (m : Memory n) (i : Nat) : List UInt64 → Memory n
  | [] => m
  | w :: words => (m.putWord i w).putWords (i + 8) words

end Memory

end Gatehouse.Password
