import Mathlib.Data.Nat.Bitwise

/-! # Flags packed eight to a byte

    Flag `i` is bit `i % 8` of byte `i / 8`.  A flag is written with a mask
    that sets or clears its bit; the other seven flags of the byte, and all
    other bytes, keep what they have. -/

namespace PackedFlags

/-- Bit `j` of a byte, shifted down and masked. -/
def bit (b : UInt8) (j : Nat) : Bool := (b >>> UInt8.ofNat j) &&& 1 != 0

/-- A byte with bit `k` set or cleared by its mask. -/
def write_bit (b : UInt8) (k : Nat) (on : Bool) : UInt8 :=
  if on then b ||| (1 <<< UInt8.ofNat k) else b &&& ~~~(1 <<< UInt8.ofNat k)

theorem toNat_index {j : Nat} (hj : j < 8) : (UInt8.ofNat j).toNat = j :=
  UInt8.toNat_ofNat_of_lt' (Nat.lt_of_lt_of_le hj (by decide))

theorem bit_eq_testBit (b : UInt8) {j : Nat} (hj : j < 8) : bit b j = b.toNat.testBit j := by
  have hval : ((b >>> UInt8.ofNat j) &&& 1).toNat = b.toNat >>> j &&& 1 := by
    rw [UInt8.toNat_and, UInt8.toNat_shiftRight, toNat_index hj, Nat.mod_eq_of_lt hj]
    rfl
  unfold bit Nat.testBit
  rw [Nat.and_comm, ← hval, Bool.eq_iff_iff, bne_iff_ne, bne_iff_ne, not_iff_not, ← UInt8.toNat_inj]
  rfl

theorem mask_toNat {k : Nat} (hk : k < 8) : ((1 : UInt8) <<< UInt8.ofNat k).toNat = 1 <<< k := by
  have hpow : 2 ^ k < 2 ^ 8 := Nat.pow_lt_pow_right (by decide) hk
  rw [UInt8.toNat_shiftLeft, toNat_index hk, Nat.mod_eq_of_lt hk]
  show 1 <<< k % 2 ^ 8 = 1 <<< k
  rw [Nat.one_shiftLeft, Nat.mod_eq_of_lt hpow]

/-- A mask moves its own bit and no other. -/
theorem bit_write_bit (b : UInt8) {j k : Nat} (hj : j < 8) (hk : k < 8) (on : Bool) :
    bit (write_bit b k on) j = if j = k then on else bit b j := by
  have hmask := mask_toNat hk
  rw [Nat.one_shiftLeft] at hmask
  rw [bit_eq_testBit _ hj, bit_eq_testBit _ hj]
  cases on with
  | true =>
    unfold write_bit
    rw [if_pos rfl, UInt8.toNat_or, hmask, Nat.testBit_or, Nat.testBit_two_pow]
    by_cases h : j = k
    · simp [h]
    · simp [h, Ne.symm h]
  | false =>
    have hlt : 2 ^ k < 2 ^ 8 := Nat.pow_lt_pow_right (by decide) hk
    have hnot : (~~~((1 : UInt8) <<< UInt8.ofNat k)).toNat = 2 ^ 8 - (2 ^ k + 1) := by
      rw [UInt8.toNat_not, hmask]
      show 2 ^ 8 - 1 - 2 ^ k = 2 ^ 8 - (2 ^ k + 1)
      omega
    unfold write_bit
    rw [if_neg (by simp), UInt8.toNat_and, hnot, Nat.testBit_and, Nat.testBit_two_pow_sub_succ hlt,
      Nat.testBit_two_pow]
    by_cases h : j = k
    · simp [h]
    · simp [h, Ne.symm h, hj]

variable {m : Nat}

/-- Flag `i` of the packed flags. -/
def flag (v : Vector UInt8 m) (i : Nat) (h : i / 8 < m) : Bool := bit v[i / 8] (i % 8)

/-- The packed flags with flag `k` written. -/
def write_flag (v : Vector UInt8 m) (k : Nat) (on : Bool) (h : k / 8 < m) : Vector UInt8 m :=
  v.set (k / 8) (write_bit v[k / 8] (k % 8) on)

/-- Writing one flag leaves all others alone. -/
theorem flag_write_flag (v : Vector UInt8 m) {i k : Nat} (on : Bool) (hi : i / 8 < m)
    (hk : k / 8 < m) : flag (write_flag v k on hk) i hi = if i = k then on else flag v i hi := by
  have hbit := bit_write_bit v[k / 8] (Nat.mod_lt i (by decide)) (Nat.mod_lt k (by decide)) on
  unfold flag write_flag
  rw [Vector.getElem_set]
  by_cases hbyte : k / 8 = i / 8
  · rw [if_pos hbyte, hbit]
    -- in one byte the two are the same flag when their bits are
    by_cases hsame : i % 8 = k % 8
    · rw [if_pos hsame, if_pos (by omega)]
    · rw [if_neg hsame, if_neg (by omega)]
      simp only [hbyte]
  · rw [if_neg hbyte, if_neg (fun h => hbyte (by rw [h]))]

end PackedFlags
