import FloorHeating.Lib.Json
import Mathlib.Data.Rat.Floor

/-! # Decimals with one fractional digit

    A number of tenths as a text, and a reader for such texts.

    * `tenths_reads`: the reader takes the text of `n` tenths for `n / 10`.
    * `tenths_inj`: so different numbers have different texts. -/

namespace Tenths

open Json

/-- The text of a natural number of tenths. -/
def unsigned (n : Nat) : List Char := Nat.toDigits 10 (n / 10) ++ '.' :: Nat.toDigits 10 (n % 10)

/-- The text of a number of tenths: a sign for a negative one, the whole part,
    the point and one digit. -/
def tenths (n : Int) : List Char := if n < 0 then '-' :: unsigned n.natAbs else unsigned n.natAbs

/-- A whole part, a point and one digit. -/
def read_unsigned : Reader ℚ := fun text => do
  let (whole, rest) ← digits text
  let rest ← expect '.' rest
  let (tenth, rest) ← digits rest
  if tenth < 10 then some (whole + tenth / 10, rest) else none

/-- A signed decimal with one fractional digit. -/
def read_tenths : Reader ℚ := fun text =>
  match expect '-' text with
  | some rest => (read_unsigned rest).map fun (q, rest) => (-q, rest)
  | none => read_unsigned text

theorem unsigned_reads (n : Nat) : Reads read_unsigned (unsigned n) (n / 10) := by
  intro rest hrest
  have hpoint : Stops ('.' :: (Nat.toDigits 10 (n % 10) ++ rest)) := stops_cons (by decide)
  have hwhole := digits_toDigits (n / 10) hpoint
  have htenth := digits_toDigits (n % 10) hrest
  have hvalue : ((n / 10 : Nat) : ℚ) + ((n % 10 : Nat) : ℚ) / 10 = n / 10 := by
    have hn : (n : ℚ) = ((n / 10 : Nat) : ℚ) * 10 + ((n % 10 : Nat) : ℚ) := by
      exact_mod_cast (Nat.div_add_mod' n 10).symm
    rw [hn]
    ring
  have hdigit : n % 10 < 10 := Nat.mod_lt n (by decide)
  unfold read_unsigned unsigned
  simp [hwhole, htenth, expect, hdigit, hvalue]

theorem tenths_reads (n : Int) : Reads read_tenths (tenths n) (n / 10) := by
  intro rest hrest
  have habs := unsigned_reads n.natAbs rest hrest
  unfold read_tenths tenths
  by_cases hn : n < 0
  · have hvalue : -((n.natAbs : ℚ) / 10) = n / 10 := by
      rw [Nat.cast_natAbs, abs_of_neg hn, Int.cast_neg]
      ring
    have hsign : expect '-' ('-' :: (unsigned n.natAbs ++ rest)) =
        some (unsigned n.natAbs ++ rest) := by simp [expect]
    rw [if_pos hn]
    simp only [List.cons_append, hsign, habs, Option.map_some, hvalue]
  · have hvalue : (n.natAbs : ℚ) = n := by
      rw [Nat.cast_natAbs, abs_of_nonneg (not_lt.mp hn)]
    -- no sign: the first character is a digit
    have hsign : expect '-' (unsigned n.natAbs ++ rest) = none := by
      obtain ⟨c, text, htext⟩ :=
        List.exists_cons_of_ne_nil (Nat.toDigits_ne_nil (n := n.natAbs / 10))
      have hc : c ≠ '-' := by
        rintro rfl
        exact absurd (toDigits_isDigit (htext ▸ List.mem_cons_self)) (by decide)
      simp [unsigned, htext, expect, hc]
    rw [if_neg hn]
    simp only [hsign, habs, hvalue]

/-- Different numbers have different texts. -/
theorem tenths_inj {n m : Int} : tenths n = tenths m ↔ n = m := by
  constructor
  · intro h
    have hn := tenths_reads n [] (by simp [Stops])
    have hm := tenths_reads m [] (by simp [Stops])
    rw [h, hm, Option.some.injEq, Prod.mk.injEq] at hn
    have hvalue : (m : ℚ) = n := by linarith [hn.1]
    exact_mod_cast hvalue.symm
  · rintro rfl
    rfl

theorem tenths_length {n : Int} {k : Nat} (hk : 0 < k) (h : n.natAbs < 10 * Nat.pow 10 k) :
    (tenths n).length ≤ k + 3 := by
  have hwhole := (Nat.length_toDigits_le_iff (b := 10) (by decide) hk).mpr
    (show n.natAbs / 10 < Nat.pow 10 k by omega)
  have htenth := (Nat.length_toDigits_le_iff (b := 10) (k := 1) (by decide) (by decide)).mpr
    (show n.natAbs % 10 < 10 ^ 1 by omega)
  unfold tenths unsigned
  split <;> simp <;> omega

end Tenths
