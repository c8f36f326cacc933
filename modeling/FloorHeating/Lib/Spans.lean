import Mathlib.Data.List.Basic
import Mathlib.Data.List.Range
import Mathlib.Tactic.Common

/-! # The runs of a marking

    A scan over the indices below `n` that takes the marked ones together as
    long as they follow each other.  It finds the maximal runs, all of them
    and nothing else, in order (`mem_spans_iff`, `spans_sorted`).  A pen that
    is lifted at every index without a mark draws one stroke for each of them
    (`pen_strokes`). -/

namespace Spans

universe u

section scan
variable (on : Nat → Bool) (n : Nat)

/-- The end of the run that has come to `j`. -/
def run_end : Nat → Nat → Nat
  | 0, j => j
  | fuel + 1, j => if j + 1 < n ∧ on (j + 1) = true then run_end fuel (j + 1) else j

/-- The runs from index `i` on. -/
def spans_from : Nat → Nat → List (Nat × Nat)
  | 0, _ => []
  | fuel + 1, i =>
    if i < n then
      if on i then (i, run_end on n n i) :: spans_from fuel (run_end on n n i + 1)
      else spans_from fuel (i + 1)
    else []

/-- The runs below `n`. -/
def spans : List (Nat × Nat) := spans_from on n n 0

/-- A run that can be made longer at neither end. -/
structure IsRun (a b : Nat) : Prop where
  le : a ≤ b
  lt : b < n
  marked : ∀ k, a ≤ k → k ≤ b → on k = true
  left : a = 0 ∨ on (a - 1) = false
  right : b + 1 = n ∨ on (b + 1) = false

end scan

variable {on : Nat → Bool} {n : Nat}

/-- What the inner loop has gone over, and why it stopped. -/
theorem run_end_spec (on : Nat → Bool) (fuel : Nat) {j : Nat} (hfuel : n ≤ fuel + j + 1)
    (hj : j < n) :
    j ≤ run_end on n fuel j ∧ run_end on n fuel j < n ∧
      (∀ k, j < k → k ≤ run_end on n fuel j → on k = true) ∧
      (run_end on n fuel j + 1 = n ∨ on (run_end on n fuel j + 1) = false) := by
  induction fuel generalizing j with
  | zero => exact ⟨le_rfl, hj, fun k hlow hhigh => absurd hlow (by simpa [run_end] using hhigh),
      Or.inl (by simp only [run_end]; omega)⟩
  | succ fuel ih =>
    unfold run_end
    split
    · rename_i hnext
      obtain ⟨hle, hlt, hon, hstop⟩ := ih (j := j + 1) (by omega) hnext.1
      refine ⟨by omega, hlt, ?_, hstop⟩
      intro k hlow hhigh
      rcases Nat.eq_or_lt_of_le hlow with rfl | hlow
      · exact hnext.2
      · exact hon k hlow hhigh
    · rename_i hnext
      refine ⟨le_rfl, hj, fun k hlow hhigh => absurd hlow (by omega), ?_⟩
      by_cases hend : j + 1 < n
      · exact Or.inr (Bool.eq_false_iff.mpr fun hon => hnext ⟨hend, hon⟩)
      · exact Or.inl (by omega)

/-- No run starts before `i` and goes on at it. -/
def Fresh (on : Nat → Bool) (n i : Nat) : Prop :=
  i = 0 ∨ on (i - 1) = false ∨ on i = false ∨ n ≤ i

/-- The scan from a fresh index. -/
structure Scanned (on : Nat → Bool) (n i : Nat) (found : List (Nat × Nat)) : Prop where
  run : ∀ s ∈ found, IsRun on n s.1 s.2 ∧ i ≤ s.1
  all : ∀ k, i ≤ k → k < n → on k = true → ∃ s ∈ found, s.1 ≤ k ∧ k ≤ s.2
  sorted : found.Pairwise fun s t => s.2 + 1 < t.1

theorem spans_from_scanned (fuel : Nat) {i : Nat} (hfuel : n ≤ fuel + i) (hi : Fresh on n i) :
    Scanned on n i (spans_from on n fuel i) := by
  induction fuel generalizing i with
  | zero => exact ⟨by simp [spans_from], fun k hlow hhigh => absurd hhigh (by omega),
      by simp [spans_from]⟩
  | succ fuel ih =>
    unfold spans_from
    by_cases hlt : i < n
    · rw [if_pos hlt]
      cases hon : on i with
      | true =>
        obtain ⟨hle, hend, hrun, hstop⟩ := run_end_spec on n (by omega) hlt
        have hfresh : Fresh on n (run_end on n n i + 1) := by
          rcases hstop with hstop | hstop
          · exact Or.inr (Or.inr (Or.inr (by omega)))
          · exact Or.inr (Or.inr (Or.inl hstop))
        obtain ⟨hruns, hall, hsorted⟩ := ih (by omega) hfresh
        rw [if_pos rfl]
        refine ⟨?_, ?_, ?_⟩
        · intro s hs
          rcases List.mem_cons.mp hs with rfl | hs
          · refine ⟨⟨hle, hend, ?_, ?_, hstop⟩, le_rfl⟩
            · intro k hlow hhigh
              rcases Nat.eq_or_lt_of_le hlow with rfl | hlow
              · exact hon
              · exact hrun k hlow hhigh
            · rcases hi with hzero | hleft | hoff | hn
              · exact Or.inl hzero
              · exact Or.inr hleft
              · exact absurd hon (by rw [hoff]; decide)
              · omega
          · exact ⟨(hruns s hs).1, by have := (hruns s hs).2; omega⟩
        · intro k hlow hhigh hk
          by_cases hin : k ≤ run_end on n n i
          · exact ⟨_, List.mem_cons_self, hlow, hin⟩
          · obtain ⟨s, hs, hin⟩ := hall k (by omega) hhigh hk
            exact ⟨s, List.mem_cons_of_mem _ hs, hin⟩
        · refine List.pairwise_cons.mpr ⟨?_, hsorted⟩
          -- the index that stopped the run is in no later one
          intro t ht
          obtain ⟨hrun', hlow⟩ := hruns t ht
          have hne : run_end on n n i + 1 ≠ t.1 := by
            intro heq
            have hton := hrun'.marked t.1 le_rfl hrun'.le
            rcases hstop with hstop | hstop
            · have hle' := hrun'.le
              have hlt' := hrun'.lt
              omega
            · rw [← heq, hstop] at hton
              exact absurd hton (by decide)
          show run_end on n n i + 1 < t.1
          omega
      | false =>
        obtain ⟨hruns, hall, hsorted⟩ := ih (i := i + 1) (by omega) (Or.inr (Or.inl hon))
        rw [if_neg (by decide)]
        refine ⟨fun s hs => ⟨(hruns s hs).1, by have := (hruns s hs).2; omega⟩, ?_, hsorted⟩
        intro k hlow hhigh hk
        rcases Nat.eq_or_lt_of_le hlow with rfl | hlow
        · exact absurd hk (by rw [hon]; decide)
        · exact hall k hlow hhigh hk
    · rw [if_neg hlt]
      exact ⟨by simp, fun k hlow hhigh => absurd hhigh (by omega), List.Pairwise.nil⟩

theorem spans_scanned (on : Nat → Bool) (n : Nat) : Scanned on n 0 (spans on n) :=
  spans_from_scanned n (by omega) (Or.inl rfl)

/-- Two maximal runs with a common index are one. -/
theorem IsRun.unique {a b a' b' k : Nat} (h : IsRun on n a b) (h' : IsRun on n a' b')
    (hk : a ≤ k ∧ k ≤ b) (hk' : a' ≤ k ∧ k ≤ b') : a = a' ∧ b = b' := by
  have hleft : ∀ {a b a' b' : Nat}, IsRun on n a b → IsRun on n a' b' → a ≤ k → k ≤ b →
      a' ≤ k → k ≤ b' → a' ≤ a := by
    intro a b a' b' h h' hak hkb hak' hkb'
    by_contra hlt
    rcases h'.left with hzero | hoff
    · omega
    · have hon := h.marked (a' - 1) (by omega) (by omega)
      rw [hoff] at hon
      exact absurd hon (by decide)
  have hright : ∀ {a b a' b' : Nat}, IsRun on n a b → IsRun on n a' b' → a ≤ k → k ≤ b →
      a' ≤ k → k ≤ b' → b ≤ b' := by
    intro a b a' b' h h' hak hkb hak' hkb'
    by_contra hlt
    rcases h'.right with hend | hoff
    · have hb := h.lt
      omega
    · have hon := h.marked (b' + 1) (by omega) (by omega)
      rw [hoff] at hon
      exact absurd hon (by decide)
  exact ⟨Nat.le_antisymm (hleft h' h hk'.1 hk'.2 hk.1 hk.2) (hleft h h' hk.1 hk.2 hk'.1 hk'.2),
    Nat.le_antisymm (hright h h' hk.1 hk.2 hk'.1 hk'.2) (hright h' h hk'.1 hk'.2 hk.1 hk.2)⟩

/-- **The scan finds the maximal runs.** -/
theorem mem_spans_iff (a b : Nat) : (a, b) ∈ spans on n ↔ IsRun on n a b := by
  have hscan := spans_scanned on n
  constructor
  · exact fun h => (hscan.run (a, b) h).1
  · intro h
    obtain ⟨⟨a', b'⟩, hs, hlow, hhigh⟩ :=
      hscan.all a (Nat.zero_le a) (Nat.lt_of_le_of_lt h.le h.lt) (h.marked a le_rfl h.le)
    obtain ⟨rfl, rfl⟩ := h.unique (hscan.run _ hs).1 ⟨le_rfl, h.le⟩ ⟨hlow, hhigh⟩
    exact hs

/-- An index is in a run exactly if it is marked. -/
theorem mem_span_iff (k : Nat) :
    (∃ s ∈ spans on n, s.1 ≤ k ∧ k ≤ s.2) ↔ k < n ∧ on k = true := by
  have hscan := spans_scanned on n
  constructor
  · rintro ⟨s, hs, hlow, hhigh⟩
    have hrun := (hscan.run s hs).1
    exact ⟨Nat.lt_of_le_of_lt hhigh hrun.lt, hrun.marked k hlow hhigh⟩
  · rintro ⟨hlt, hon⟩
    exact hscan.all k (Nat.zero_le k) hlt hon

theorem spans_sorted (on : Nat → Bool) (n : Nat) :
    (spans on n).Pairwise fun s t => s.2 + 1 < t.1 :=
  (spans_scanned on n).sorted

/-! ## A pen over the indices -/

section pen
variable {α : Type u}

/-- `k` indices from `i` on, with the pen down or not. -/
def pen_loop (on : Nat → Bool) (piece : Bool → Nat → List α) : Nat → Bool → Nat → List α
  | 0, _, _ => []
  | k + 1, pen, i =>
    if on i then piece pen i ++ pen_loop on piece k true (i + 1)
    else pen_loop on piece k false (i + 1)

/-- One stroke: the pen is set down at `a` and drawn up to `b`. -/
def stroke (piece : Bool → Nat → List α) (s : Nat × Nat) : List α :=
  piece false s.1 ++ (List.range' (s.1 + 1) (s.2 - s.1)).flatMap (piece true)

variable (piece : Bool → Nat → List α)

/-- Where a run ends nothing is left to draw with the pen down. -/
theorem pen_lift {i : Nat} (h : i = n ∨ on i = false) :
    pen_loop on piece (n - i) true i = pen_loop on piece (n - i) false i := by
  rcases h with rfl | hoff
  · rw [Nat.sub_self]
    rfl
  · cases hk : n - i with
    | zero => rfl
    | succ k => simp [pen_loop, hoff]

/-- A pen that is down goes to the end of the run, and is lifted. -/
theorem pen_loop_run (fuel : Nat) {j : Nat} (hfuel : n ≤ fuel + j + 1) (hj : j < n) :
    pen_loop on piece (n - (j + 1)) true (j + 1) =
      (List.range' (j + 1) (run_end on n fuel j - j)).flatMap (piece true) ++
        pen_loop on piece (n - (run_end on n fuel j + 1)) false (run_end on n fuel j + 1) := by
  induction fuel generalizing j with
  | zero =>
    rw [run_end, Nat.sub_self]
    exact pen_lift piece (Or.inl (by omega))
  | succ fuel ih =>
    unfold run_end
    by_cases hnext : j + 1 < n ∧ on (j + 1) = true
    · obtain ⟨hlt, hon⟩ := hnext
      have hle := (run_end_spec on fuel (j := j + 1) (by omega) hlt).1
      rw [if_pos ⟨hlt, hon⟩]
      obtain ⟨k, hk⟩ : ∃ k, run_end on n fuel (j + 1) - j = k + 1 :=
        ⟨run_end on n fuel (j + 1) - (j + 1), by omega⟩
      obtain ⟨m, hm⟩ : ∃ m, n - (j + 1) = m + 1 := ⟨n - (j + 1 + 1), by omega⟩
      have hrest : m = n - (j + 1 + 1) := by omega
      have hk' : k = run_end on n fuel (j + 1) - (j + 1) := by omega
      rw [hk, List.range'_succ, List.flatMap_cons, List.append_assoc, hm, pen_loop, if_pos hon,
        hrest, hk', ih (by omega) hlt]
    · rw [if_neg hnext, Nat.sub_self]
      refine pen_lift piece ?_
      by_cases hend : j + 1 < n
      · exact Or.inr (Bool.eq_false_iff.mpr fun hon => hnext ⟨hend, hon⟩)
      · exact Or.inl (by omega)

theorem pen_loop_from (fuel : Nat) {i : Nat} (hfuel : n ≤ fuel + i) :
    pen_loop on piece (n - i) false i = (spans_from on n fuel i).flatMap (stroke piece) := by
  induction fuel generalizing i with
  | zero =>
    rw [Nat.sub_eq_zero_of_le (by omega)]
    rfl
  | succ fuel ih =>
    unfold spans_from
    by_cases hlt : i < n
    · obtain ⟨m, hm⟩ : ∃ m, n - i = m + 1 := ⟨n - (i + 1), by omega⟩
      have hrest : m = n - (i + 1) := by omega
      rw [if_pos hlt, hm, pen_loop, hrest]
      by_cases hon : on i = true
      · rw [if_pos hon, if_pos hon, pen_loop_run piece n (by omega) hlt, List.flatMap_cons,
          ih (by have := (run_end_spec on n (by omega) hlt).1; omega), stroke,
          List.append_assoc]
      · rw [if_neg hon, if_neg hon]
        exact ih (by omega)
    · rw [if_neg hlt, Nat.sub_eq_zero_of_le (by omega)]
      rfl

/-- **The pen draws one stroke for each run.** -/
theorem pen_strokes : pen_loop on piece n false 0 = (spans on n).flatMap (stroke piece) :=
  pen_loop_from piece n (i := 0) (by omega)

end pen

end Spans
