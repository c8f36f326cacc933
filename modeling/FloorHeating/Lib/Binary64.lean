import Mathlib.Algebra.Order.Field.Power
import Mathlib.Data.Int.Log
import Mathlib.Data.Rat.Floor
import Mathlib.Tactic.Linarith

/-! # Rounding to binary64

    The numbers a `double` can hold, with no upper end to the exponent, and
    the rounding to the nearest of them.  An operation on doubles gives the
    rounding of its exact result.

    * `round64_nearest`: no double is nearer to a number than its rounding.
    * `isBinary64_round64`: the rounding is a double. -/

namespace Binary64

/-! ## The nearest integer -/

/-- The integer nearest to `q`, the even one of two that are equally near. -/
def round_even (q : ℚ) : ℤ :=
  if 2 * Int.fract q < 1 ∨ 2 * Int.fract q = 1 ∧ ⌊q⌋ % 2 = 0 then ⌊q⌋ else ⌊q⌋ + 1

theorem round_even_half (q : ℚ) : |(round_even q : ℚ) - q| ≤ 1 / 2 := by
  have hfract := Int.self_sub_floor q
  have hnonneg := Int.fract_nonneg q
  have hlt := Int.fract_lt_one q
  unfold round_even
  split
  · rename_i hdown
    have hhalf : 2 * Int.fract q ≤ 1 := hdown.elim le_of_lt fun h => h.1.le
    rw [abs_le]
    constructor <;> linarith
  · rename_i hup
    have hhalf : 1 ≤ 2 * Int.fract q := not_lt.mp fun h => hup (Or.inl h)
    push_cast
    rw [abs_le]
    constructor <;> linarith

/-- No integer is nearer than the rounded one. -/
theorem round_even_nearest (q : ℚ) (k : ℤ) : |(round_even q : ℚ) - q| ≤ |(k : ℚ) - q| := by
  rcases eq_or_ne k (round_even q) with rfl | hne
  · exact le_rfl
  · -- two different integers are a whole step apart
    have hstep : (1 : ℚ) ≤ |(k : ℚ) - round_even q| := by
      exact_mod_cast Int.one_le_abs (sub_ne_zero.mpr hne)
    have htriangle := abs_sub_le (k : ℚ) q (round_even q)
    rw [abs_sub_comm q] at htriangle
    have hhalf := round_even_half q
    linarith

/-! ## The grid around a number -/

/-- The exponent of the spacing of the doubles around `x`: 53 binary digits,
    and none below `2 ^ -1074`. -/
def ulp_exp (x : ℚ) : ℤ := max (Int.log 2 |x| - 52) (-1074)

/-- The spacing of the doubles around `x`. -/
def ulp (x : ℚ) : ℚ := 2 ^ ulp_exp x

/-- The double nearest to `x`, the even multiple of the spacing of two that
    are equally near. -/
def round64 (x : ℚ) : ℚ := round_even (x / ulp x) * ulp x

theorem ulp_exp_min (x : ℚ) : -1074 ≤ ulp_exp x := le_max_right _ _

theorem ulp_pos (x : ℚ) : 0 < ulp x := zpow_pos (by norm_num) _

/-- A distance on the grid, in units of its spacing. -/
theorem abs_grid_sub (x : ℚ) (k : ℤ) :
    |(k : ℚ) * ulp x - x| = |(k : ℚ) - x / ulp x| * ulp x := by
  have hpos := ulp_pos x
  have hscale : (k : ℚ) * ulp x - x = ((k : ℚ) - x / ulp x) * ulp x := by
    rw [sub_mul, div_mul_cancel₀ x hpos.ne']
  rw [hscale, abs_mul, abs_of_pos hpos]

/-- The rounding is within half a spacing. -/
theorem round64_half (x : ℚ) : |round64 x - x| ≤ ulp x / 2 := by
  have hpos := ulp_pos x
  have hhalf := mul_le_mul_of_nonneg_right (round_even_half (x / ulp x)) hpos.le
  rw [round64, abs_grid_sub]
  linarith

theorem round64_grid (x : ℚ) (k : ℤ) : |round64 x - x| ≤ |(k : ℚ) * ulp x - x| := by
  rw [round64, abs_grid_sub, abs_grid_sub]
  exact mul_le_mul_of_nonneg_right (round_even_nearest _ k) (ulp_pos x).le

/-- A number is less than 2 ^ 53 spacings from zero. -/
theorem abs_lt_ulp (x : ℚ) : |x| < 2 ^ 53 * ulp x := by
  have hlog : |x| < (2 : ℚ) ^ (Int.log 2 |x| + 1) := by
    exact_mod_cast Int.lt_zpow_succ_log_self (b := 2) (by norm_num) |x|
  have hexp : Int.log 2 |x| + 1 ≤ 53 + ulp_exp x := by
    unfold ulp_exp
    omega
  calc |x| < (2 : ℚ) ^ (Int.log 2 |x| + 1) := hlog
    _ ≤ (2 : ℚ) ^ (53 + ulp_exp x) := zpow_le_zpow_right₀ (by norm_num) hexp
    _ = 2 ^ 53 * ulp x := by
      rw [zpow_add₀ (by norm_num), ulp]
      norm_num

/-- And at least 2 ^ 52 spacings, unless the spacing is the smallest. -/
theorem ulp_le_abs {x : ℚ} (hx : x ≠ 0) (h : -1074 < ulp_exp x) : 2 ^ 52 * ulp x ≤ |x| := by
  have hlog : ulp_exp x + 52 = Int.log 2 |x| := by
    unfold ulp_exp at h ⊢
    omega
  calc 2 ^ 52 * ulp x = (2 : ℚ) ^ (ulp_exp x + 52) := by
        rw [zpow_add₀ (by norm_num), ulp]
        norm_num [mul_comm]
    _ = (2 : ℚ) ^ Int.log 2 |x| := by rw [hlog]
    _ ≤ |x| := by exact_mod_cast Int.zpow_log_le_self (b := 2) (by norm_num) (abs_pos.mpr hx)

/-- The spacing around a number below `2 ^ (e + 53)`. -/
theorem ulp_le {x : ℚ} {e : ℤ} (hx : x ≠ 0) (he : -1074 ≤ e) (h : |x| < 2 ^ (e + 53)) :
    ulp x ≤ 2 ^ e := by
  have hlog : Int.log 2 |x| < e + 53 :=
    (Int.lt_zpow_iff_log_lt (by norm_num) (abs_pos.mpr hx)).mp (by exact_mod_cast h)
  have hexp : ulp_exp x ≤ e := by
    unfold ulp_exp
    omega
  exact zpow_le_zpow_right₀ (by norm_num) hexp

/-! ## The doubles -/

/-- A number that a double can hold: 53 binary digits times a power of two. -/
def IsBinary64 (y : ℚ) : Prop :=
  ∃ m e : ℤ, |m| < 2 ^ 53 ∧ -1074 ≤ e ∧ y = m * 2 ^ e

/-- A multiple of a power of two is one of every lower power. -/
theorem multiple_of_le (m : ℤ) {e e' : ℤ} (h : e ≤ e') :
    ∃ k : ℤ, (m : ℚ) * 2 ^ e' = k * 2 ^ e := by
  obtain ⟨n, rfl⟩ := Int.le.dest h
  refine ⟨m * 2 ^ n, ?_⟩
  rw [zpow_add₀ (by norm_num), zpow_natCast]
  push_cast
  ring

/-- A double is a multiple of every spacing it is not too small for. -/
theorem IsBinary64.multiple_or_small {y : ℚ} (hy : IsBinary64 y) (e : ℤ) :
    (∃ k : ℤ, y = k * 2 ^ e) ∨ |y| < 2 ^ 52 * 2 ^ e := by
  obtain ⟨m, e', hm, -, rfl⟩ := hy
  rcases le_or_gt e e' with hle | hlt
  · exact Or.inl (multiple_of_le m hle)
  · right
    have hm' : |(m : ℚ)| < 2 ^ 53 := by exact_mod_cast hm
    have hpow : (2 : ℚ) ^ e' ≤ 2 ^ (e - 1) := zpow_le_zpow_right₀ (by norm_num) (by omega)
    have hpos : (0 : ℚ) < 2 ^ e' := zpow_pos (by norm_num) _
    rw [abs_mul, abs_of_pos hpos]
    calc |(m : ℚ)| * 2 ^ e' < 2 ^ 53 * 2 ^ e' := mul_lt_mul_of_pos_right hm' hpos
      _ ≤ 2 ^ 53 * 2 ^ (e - 1) := by linarith
      _ = 2 ^ 52 * 2 ^ e := by
        rw [zpow_sub_one₀ (by norm_num)]
        ring

/-- A double nearer to zero than `x` is no nearer to `x` than the edge of the
    binade between them. -/
theorem edge_nearer {x y : ℚ} {edge : ℚ} (hx : edge ≤ |x|) (hy : |y| < edge) :
    ∃ s : ℤ, |(s : ℚ) * edge - x| ≤ |y - x| := by
  rw [abs_lt] at hy
  rcases abs_cases x with ⟨habs, -⟩ | ⟨habs, -⟩
  · refine ⟨1, ?_⟩
    rw [abs_of_nonpos (by push_cast; linarith), abs_of_nonpos (by linarith)]
    push_cast
    linarith
  · refine ⟨-1, ?_⟩
    rw [abs_of_nonneg (by push_cast; linarith), abs_of_nonneg (by linarith)]
    push_cast
    linarith

/-- **Rounding to nearest.**  No double is nearer to `x` than `round64 x`. -/
theorem round64_nearest (x : ℚ) {y : ℚ} (hy : IsBinary64 y) : |round64 x - x| ≤ |y - x| := by
  rcases hy.multiple_or_small (ulp_exp x) with ⟨k, rfl⟩ | hsmall
  · exact round64_grid x k
  · rcases eq_or_ne x 0 with rfl | hx
    · simp [round64, round_even]
    rcases eq_or_lt_of_le (ulp_exp_min x) with hmin | hexp
    · -- every double is a multiple of the smallest spacing
      obtain ⟨m, e, -, he, rfl⟩ := hy
      obtain ⟨k, hk⟩ := multiple_of_le m (hmin ▸ he)
      rw [hk]
      exact round64_grid x k
    · obtain ⟨s, hedge⟩ := edge_nearer (ulp_le_abs hx hexp) hsmall
      have hgrid := round64_grid x (s * 2 ^ 52)
      push_cast at hgrid
      rw [mul_assoc] at hgrid
      exact le_trans hgrid hedge

/-- The rounding is a double. -/
theorem isBinary64_round64 (x : ℚ) : IsBinary64 (round64 x) := by
  have hpos := ulp_pos x
  have hlt := abs_lt_ulp x
  have hquot : |x / ulp x| < 2 ^ 53 := by
    rwa [abs_div, abs_of_pos hpos, div_lt_iff₀ hpos]
  -- the next power of two is at most as far as the rounding may go
  have hbound : |round_even (x / ulp x)| ≤ 2 ^ 53 := by
    have hhalf := round_even_half (x / ulp x)
    have hlt' : |(round_even (x / ulp x) : ℚ)| < 2 ^ 53 + 1 := by
      have htriangle := abs_sub_abs_le_abs_sub (round_even (x / ulp x) : ℚ) (x / ulp x)
      linarith
    have hlt'' : |round_even (x / ulp x)| < 2 ^ 53 + 1 := by exact_mod_cast hlt'
    omega
  rcases lt_or_eq_of_le hbound with hbelow | hedge
  · exact ⟨_, _, hbelow, ulp_exp_min x, rfl⟩
  · -- rounded up to 2 ^ 53: one digit less, with the next exponent
    have hhalve : ∃ m : ℤ, |m| < 2 ^ 53 ∧ round_even (x / ulp x) = 2 * m := by
      rcases abs_eq (by norm_num) |>.mp hedge with h | h
      · exact ⟨2 ^ 52, by norm_num, by rw [h]; norm_num⟩
      · exact ⟨-2 ^ 52, by norm_num, by rw [h]; norm_num⟩
    obtain ⟨m, hm, heq⟩ := hhalve
    refine ⟨m, ulp_exp x + 1, hm, by linarith [ulp_exp_min x], ?_⟩
    rw [round64, heq, ulp, zpow_add_one₀ (by norm_num)]
    push_cast
    ring

/-- A double rounds to itself. -/
theorem IsBinary64.round64_eq {y : ℚ} (hy : IsBinary64 y) : round64 y = y := by
  have h := round64_nearest y hy
  rw [sub_self, abs_zero] at h
  exact sub_eq_zero.mp (abs_nonpos_iff.mp h)

/-- Rounding never passes a double. -/
theorem IsBinary64.le_round64 {x y : ℚ} (hy : IsBinary64 y) (h : y ≤ x) : y ≤ round64 x := by
  by_contra hlt
  have hnear := round64_nearest x hy
  rw [abs_of_neg (by linarith), abs_of_nonpos (by linarith)] at hnear
  linarith

theorem isBinary64_intCast {m : ℤ} (h : |m| < 2 ^ 53) : IsBinary64 m :=
  ⟨m, 0, h, by norm_num, by simp⟩

/-- A double below a multiple of a spacing is a whole spacing below it, where
    the multiple has all 53 digits. -/
theorem IsBinary64.le_pred {y : ℚ} (hy : IsBinary64 y) {n e : ℤ} (hn : 2 ^ 52 < n)
    (h : y < n * 2 ^ e) : y ≤ (n - 1) * 2 ^ e := by
  have hpos : (0 : ℚ) < 2 ^ e := zpow_pos (by norm_num) _
  rcases hy.multiple_or_small e with ⟨k, rfl⟩ | hsmall
  · have hk : k < n := by exact_mod_cast lt_of_mul_lt_mul_right h hpos.le
    have hk' : (k : ℚ) ≤ n - 1 := by exact_mod_cast Int.le_sub_one_of_lt hk
    exact mul_le_mul_of_nonneg_right hk' hpos.le
  · have hn' : (2 : ℚ) ^ 52 ≤ n - 1 := by exact_mod_cast Int.le_sub_one_of_lt hn
    have hle := mul_le_mul_of_nonneg_right hn' hpos.le
    linarith [le_abs_self y]

end Binary64
