import Gatehouse.Password.Argon2

/-! # Tags have the length that is asked for

A hash of up to 64 octets is cut off the eight words of the state. A longer one is put together from halves of such
hashes, and the last of them fills up what is left. So a tag is as long as its job says.
-/

namespace Gatehouse.Password

namespace Blake2b

theorem length_littleEndian (width n : Nat) : (littleEndian width n).length = width := by
  induction width generalizing n with
  | zero => rfl
  | succ width ih => rw [littleEndian, List.length_cons, ih]

theorem length_hash {length : Nat} (short : length ≤ 64) (octets : List UInt8) :
    (hash length octets).length = length := by
  have whole (state : Vector UInt64 8) : (state.toList.flatMap octetsOf).length = 64 := by
    have each : octetsOf = fun w => littleEndian 8 w.toNat := rfl
    simp [each, List.length_flatMap, length_littleEndian, List.map_const']
  rw [hash, List.length_take, whole]
  exact Nat.min_eq_left short

end Blake2b

namespace Argon2

theorem length_longPieces (last : List UInt8) (length : Nat) : (longPieces last length).length = length := by
  induction length using Nat.strongRecOn generalizing last with
  | _ length ih =>
      rw [longPieces]
      by_cases short : length ≤ 64
      · rw [dif_pos short, Blake2b.length_hash short]
      · have half : ((Blake2b.hash 64 last).take 32).length = 32 := by
          rw [List.length_take, Blake2b.length_hash (Nat.le_refl 64)]
          rfl
        rw [dif_neg short, List.length_append, half, ih (length - 32) (by omega)]
        omega

theorem length_tag (job : Job) : (tag job).length = job.length :=
  length_longPieces _ job.length

end Argon2

end Gatehouse.Password
