import Mathlib.Algebra.Order.Group.Unbundled.Abs
import Mathlib.Data.Finset.Max
import Mathlib.Data.Fintype.Basic
import Mathlib.Data.List.Chain
import Mathlib.Tactic.Linarith
import Mathlib.Tactic.Ring

/-! # Times on a grid

    A grid of a period has a mark every `period`, from some phase on.  Times
    that lie one after the other between its marks never leave the exact
    multiples of the period by a whole one, and times that do not are on such
    a grid (`exists_phase_iff`). -/

namespace Periodic

variable {period phase : Int}

/-- The mark before `x`, counted from the phase. -/
def slot (period phase x : Int) : Int := (x - phase) / period

/-- `b` lies between the two marks after those around `a`. -/
def Next (period phase a b : Int) : Prop := slot period phase b = slot period phase a + 1

instance (period phase a b : Int) : Decidable (Next period phase a b) :=
  inferInstanceAs (Decidable (_ = _))

/-- The times lie one after the other between the marks. -/
def OnGrid (period phase : Int) (times : List Int) : Prop := times.IsChain (Next period phase)

instance (period phase : Int) (times : List Int) : Decidable (OnGrid period phase times) :=
  inferInstanceAs (Decidable (times.IsChain (Next period phase)))

/-- `b` is off from `n` periods after `a` by less than one. -/
def Keeps (period : Int) (n : Nat) (a b : Int) : Prop := |b - a - n * period| < period

/-- Any two of the times are off from the periods between them by less than one. -/
def KeepsAll (period : Int) (times : List Int) : Prop :=
  ∀ (i n : Nat) (a b : Int), times[i]? = some a → times[i + n]? = some b → Keeps period n a b

theorem keeps_self (hperiod : 0 < period) (a : Int) : Keeps period 0 a a := by
  simpa [Keeps] using hperiod

theorem keepsAll_of_length_le (hperiod : 0 < period) {times : List Int} (h : times.length ≤ 1) :
    KeepsAll period times := by
  intro i n a b ha hb
  obtain ⟨hlt, -⟩ := List.getElem?_eq_some_iff.mp hb
  obtain rfl : n = 0 := by omega
  obtain rfl := Option.some.inj (ha.symm.trans hb)
  exact keeps_self hperiod a

/-- One more time, to which those before it keep. -/
theorem KeepsAll.concat {times : List Int} {t : Int} (h : KeepsAll period times)
    (hlast : ∀ (i n : Nat) (a : Int), (times ++ [t])[i]? = some a →
      i + n + 1 = (times ++ [t]).length → Keeps period n a t) :
    KeepsAll period (times ++ [t]) := by
  intro i n a b ha hb
  by_cases hold : i + n < times.length
  · rw [List.getElem?_append_left (by omega)] at ha hb
    exact h i n a b ha hb
  · obtain ⟨hlt, -⟩ := List.getElem?_eq_some_iff.mp hb
    rw [List.length_append, List.length_singleton] at hlt
    have hend : i + n = times.length := by omega
    obtain rfl : t = b := by simpa [hend] using hb
    exact hlast i n a ha (by rw [List.length_append, List.length_singleton, hend])

theorem OnGrid.slot_eq {times : List Int} (h : OnGrid period phase times) {i n : Nat} {a b : Int}
    (ha : times[i]? = some a) (hb : times[i + n]? = some b) :
    slot period phase b = slot period phase a + n := by
  induction n generalizing b with
  | zero =>
    obtain rfl := Option.some.inj (ha.symm.trans hb)
    simp
  | succ n ih =>
    obtain ⟨hlt, rfl⟩ := List.getElem?_eq_some_iff.mp hb
    have hlt' : i + n < times.length := by omega
    have hnext : Next period phase times[i + n] times[i + n + 1] :=
      List.isChain_iff_getElem.mp h (i + n) hlt
    have hbefore := ih (List.getElem?_eq_getElem hlt')
    rw [show times[i + (n + 1)] = times[i + n + 1] from rfl, hnext, hbefore]
    push_cast
    ring

/-- Times that many marks apart keep to that many periods. -/
theorem keeps_of_slot (hperiod : 0 < period) {n : Nat} {a b : Int}
    (h : slot period phase b = slot period phase a + n) : Keeps period n a b := by
  have hlow := Int.emod_add_mul_ediv (a - phase) period
  have hhigh := Int.emod_add_mul_ediv (b - phase) period
  have ha := Int.emod_nonneg (a - phase) hperiod.ne'
  have ha' := Int.emod_lt_of_pos (a - phase) hperiod
  have hb := Int.emod_nonneg (b - phase) hperiod.ne'
  have hb' := Int.emod_lt_of_pos (b - phase) hperiod
  unfold slot at h
  rw [h, mul_add] at hhigh
  unfold Keeps
  rw [abs_lt]
  constructor <;> linarith [mul_comm period (n : Int)]

/-- Times that keep to the periods lie after their own marks from the earliest
    of them on, each taken back by the periods before it. -/
theorem exists_slots (hperiod : 0 < period) {times : List Int} (hne : times ≠ [])
    (h : KeepsAll period times) :
    ∃ phase, ∀ (i : Nat) (a : Int), times[i]? = some a → slot period phase a = i := by
  have hpos : 0 < times.length := List.length_pos_of_ne_nil hne
  obtain ⟨k, -, hmin⟩ := Finset.exists_min_image Finset.univ
    (fun i : Fin times.length => times[i] - i.val * period) ⟨⟨0, hpos⟩, Finset.mem_univ _⟩
  refine ⟨times[k] - k.val * period, ?_⟩
  intro i a ha
  obtain ⟨hi, rfl⟩ := List.getElem?_eq_some_iff.mp ha
  have hlow : times[k] - k.val * period ≤ times[i] - i * period :=
    hmin ⟨i, hi⟩ (Finset.mem_univ _)
  have hhigh : times[i] - (times[k] - k.val * period) - i * period < period := by
    rcases le_total k.val i with hle | hle
    · obtain ⟨n, rfl⟩ := Nat.le.dest hle
      have hkeeps := h k n times[k] times[k.val + n] (by simp) (by simp [hi])
      unfold Keeps at hkeeps
      rw [abs_lt] at hkeeps
      push_cast
      linarith [hkeeps.2]
    · obtain ⟨n, hn⟩ := Nat.le.dest hle
      have hkeeps := h i n times[i] times[k] (by simp [hi]) (by simp [hn])
      have hcast : (k.val : Int) = i + n := by exact_mod_cast hn.symm
      unfold Keeps at hkeeps
      rw [abs_lt] at hkeeps
      rw [hcast]
      linarith [hkeeps.1]
  unfold slot
  rw [Int.ediv_eq_iff_of_pos hperiod]
  constructor <;> linarith

/-- **Times on a grid.**  Times lie one after the other on some grid exactly if
    every two of them are off from their number of periods by less than one. -/
theorem exists_phase_iff (hperiod : 0 < period) {times : List Int} :
    (∃ phase, OnGrid period phase times) ↔ KeepsAll period times := by
  refine ⟨fun ⟨_, h⟩ _ _ _ _ ha hb => keeps_of_slot hperiod (h.slot_eq ha hb), ?_⟩
  intro h
  rcases eq_or_ne times [] with rfl | hne
  · exact ⟨0, List.isChain_nil⟩
  obtain ⟨phase, hslot⟩ := exists_slots hperiod hne h
  refine ⟨phase, List.isChain_iff_getElem.mpr ?_⟩
  intro i hi
  rw [Next, hslot i _ (List.getElem?_eq_getElem _), hslot (i + 1) _ (List.getElem?_eq_getElem hi)]
  push_cast
  ring

end Periodic
