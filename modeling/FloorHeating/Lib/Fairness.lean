import FloorHeating.Lib.Transition
import Mathlib.Data.Nat.Find
import Mathlib.Order.Filter.AtTopBot.Basic

/-! # Progress and fairness

    What must happen in a system, by a measure of what is left to do.

    * `exec_work`: over a finite stretch, where some labels lower the measure
      and the others do not raise it, only so many of them can be taken.
    * `exec_completes`: what can always come closer to its end can reach it.
    * `Execution`: an infinite run.  It is `Fair` to a set of labels when one
      of them is taken again and again, if again and again one of them could
      be: strong fairness, for the labels of one party together.
    * `Execution.Fair.leaves`: in a fair execution, a party that is ready
      again and again as long as it stays in a region, and comes closer to
      the end of it with every step of its own, leaves the region.
    * `Execution.entered`: the step into a predicate that did not hold
      before.
    * `Execution.Fair.next`: the next step of a party that is ready again and
      again.
    * `System.follow`, `Execution.follow`: the execution that a schedule makes;
      `scripted` begins a schedule with a given run, and `Execution.carry_on`
      carries on a run by a schedule.
    * `eventually_of_stays`: what comes about again and again and is not lost
      any more holds for ever; `eventually_ge_of_grows`: so a measure that
      grows again and again passes every bound; `eventually_zero_of_falls`:
      and one that falls again and again is zero in the end. -/

namespace LTS

universe u v

variable {State : Type u} {Label : Type v} {sys : System State Label}

/-! ## Finite stretches -/

/-- Every label that works lowers the measure, and the others keep it. -/
theorem exec_work (P : State → Prop) {ok : Label → Prop} (works : Label → Bool)
    (left : State → Nat)
    (hkeep : ∀ s a s', ok a → P s → sys.step s a = some s' → P s')
    (hwork : ∀ s a s', ok a → P s → sys.step s a = some s' →
      left s' + (if works a then 1 else 0) ≤ left s)
    {acts : List Label} {s s' : State} (hs : P s) (hexec : sys.exec s acts = some s')
    (hok : ∀ a ∈ acts, ok a) : left s' + acts.countP works ≤ left s := by
  induction acts generalizing s with
  | nil =>
    obtain rfl : s = s' := by simpa [System.exec] using hexec
    simp
  | cons a acts ih =>
    obtain ⟨s₁, ha, hrest⟩ := Option.bind_eq_some_iff.mp hexec
    have hok_a : ok a := hok a (by simp)
    have hlater := ih (hkeep s a s₁ hok_a hs ha) hrest fun b hb => hok b (by simp [hb])
    have hfirst := hwork s a s₁ hok_a hs ha
    rw [List.countP_cons]
    omega

/-- Where less can be left as long as it is not done, it can be done. -/
theorem exec_completes {P : State → Prop} {ok : Label → Prop} {Done : State → Prop}
    {left : State → Nat}
    (hstep : ∀ s, P s → ¬ Done s →
      ∃ a s', ok a ∧ sys.step s a = some s' ∧ P s' ∧ left s' < left s)
    {s : State} (hs : P s) :
    ∃ acts s', sys.exec s acts = some s' ∧ (∀ a ∈ acts, ok a) ∧ acts.length ≤ left s ∧
      P s' ∧ Done s' := by
  induction hn : left s using Nat.strong_induction_on generalizing s with
  | _ n ih =>
    by_cases hdone : Done s
    · exact ⟨[], s, rfl, by simp, Nat.zero_le _, hs, hdone⟩
    · obtain ⟨a, s₁, hok, ha, hs₁, hlt⟩ := hstep s hs hdone
      obtain ⟨acts, s', hexec, hall, hlen, hs', hdone'⟩ := ih (left s₁) (hn ▸ hlt) hs₁ rfl
      refine ⟨a :: acts, s', ?_, ?_, ?_, hs', hdone'⟩
      · show (sys.step s a).bind _ = some s'
        rw [ha]
        exact hexec
      · intro b hb
        rcases List.mem_cons.mp hb with rfl | hb
        · exact hok
        · exact hall b hb
      · rw [List.length_cons]
        omega

/-! ## Infinite runs -/

/-- The first time from `n` on. -/
theorem exists_first {P : Nat → Prop} {n : Nat} (h : ∃ m ≥ n, P m) :
    ∃ m ≥ n, P m ∧ ∀ k, n ≤ k → k < m → ¬ P k := by
  classical
  obtain ⟨hm, hP⟩ := Nat.find_spec h
  exact ⟨Nat.find h, hm, hP, fun k hk hlt hPk => Nat.find_min h hlt ⟨hk, hPk⟩⟩

/-- An infinite run of the system. -/
@[ext]
structure Execution (sys : System State Label) where
  states : Nat → State
  labels : Nat → Label
  init : sys.init (states 0)
  step : ∀ n, sys.step (states n) (labels n) = some (states (n + 1))

/-- One of the labels can be taken. -/
def System.Ready (sys : System State Label) (mine : Label → Prop) (s : State) : Prop :=
  ∃ a s', mine a ∧ sys.step s a = some s'

namespace Execution

variable (e : Execution sys)

/-- The labels of the first `n` steps. -/
def past (n : Nat) : List Label := (List.range n).map e.labels

theorem past_succ (n : Nat) : e.past (n + 1) = e.past n ++ [e.labels n] := by
  simp [past, List.range_succ]

theorem exec (n : Nat) : sys.exec (e.states 0) (e.past n) = some (e.states n) := by
  induction n with
  | zero => rfl
  | succ n ih =>
    rw [past_succ, exec_append, ih]
    show (sys.step (e.states n) (e.labels n)).bind _ = some (e.states (n + 1))
    rw [e.step n]
    rfl

/-- Every state of an execution is reached by a run. -/
theorem run (n : Nat) : Run sys (e.past n) (e.states n) := .of_exec e.init (e.exec n)

/-- If one of the labels can be taken infinitely often, then one of them is,
    infinitely often. -/
def Fair (mine : Label → Prop) : Prop :=
  (∀ n, ∃ m ≥ n, sys.Ready mine (e.states m)) → ∀ n, ∃ m ≥ n, mine (e.labels m)

/-- The step with which a predicate begins to hold. -/
theorem entered (P : State → Prop) {n : Nat} (hn : ¬ P (e.states n)) {m : Nat} (hm : n ≤ m)
    (hP : P (e.states m)) :
    ∃ k, n ≤ k ∧ k < m ∧ ¬ P (e.states k) ∧ P (e.states (k + 1)) := by
  induction m, hm using Nat.le_induction with
  | base => exact absurd hP hn
  | succ m hm ih =>
    by_cases hprev : P (e.states m)
    · obtain ⟨k, hk, hlt, hnot, hthen⟩ := ih hprev
      exact ⟨k, hk, by omega, hnot, hthen⟩
    · exact ⟨m, hm, by omega, hprev, hP⟩

variable {e}

/-- **The rule of fair progress.**  Within `Q` the steps of others keep the
    measure and those of `mine` lower it, and a party that stays in `Q` is
    ready again and again.  Then it does not stay in `Q`. -/
theorem Fair.leaves {mine : Label → Prop} (hfair : e.Fair mine) (Q : State → Prop)
    (left : State → Nat)
    (hothers : ∀ n, Q (e.states n) → ¬ mine (e.labels n) → Q (e.states (n + 1)) →
      left (e.states (n + 1)) ≤ left (e.states n))
    (hmine : ∀ n, Q (e.states n) → mine (e.labels n) → Q (e.states (n + 1)) →
      left (e.states (n + 1)) < left (e.states n))
    (hready : ∀ n, (∀ m ≥ n, Q (e.states m)) → ∃ m ≥ n, sys.Ready mine (e.states m)) (n : Nat) :
    ∃ m ≥ n, ¬ Q (e.states m) := by
  by_contra hstays
  have hQ : ∀ m ≥ n, Q (e.states m) := by
    intro m hm
    by_contra hnot
    exact hstays ⟨m, hm, hnot⟩
  -- it moves again and again, and each time less is left
  have hmoves : ∀ k, ∃ m ≥ k, mine (e.labels m) := by
    refine hfair fun k => ?_
    obtain ⟨m, hm, hready⟩ := hready (max n k) fun m hm => hQ m (le_trans (le_max_left _ _) hm)
    exact ⟨m, le_trans (le_max_right _ _) hm, hready⟩
  have hmono : ∀ m ≥ n, ∀ k ≥ m, left (e.states k) ≤ left (e.states m) := by
    intro m hm k hk
    induction k, hk using Nat.le_induction with
    | base => exact le_rfl
    | succ k hk ih =>
      have hstay := hQ k (le_trans hm hk)
      have hnext := hQ (k + 1) (by omega)
      by_cases hk' : mine (e.labels k)
      · exact le_trans (Nat.le_of_lt (hmine k hstay hk' hnext)) ih
      · exact le_trans (hothers k hstay hk' hnext) ih
  have hfalls : ∀ bound m, n ≤ m → left (e.states m) < bound → False := by
    intro bound
    induction bound with
    | zero => exact fun _ _ hlt => absurd hlt (Nat.not_lt_zero _)
    | succ bound ih =>
      intro m hm hlt
      obtain ⟨k, hk, hmove⟩ := hmoves m
      have hlower := hmine k (hQ k (by omega)) hmove (hQ (k + 1) (by omega))
      have hbefore := hmono m hm k hk
      exact ih (k + 1) (by omega) (by omega)
  exact hfalls _ n le_rfl (Nat.lt_succ_self _)

/-- The next step of `mine`, and none of them before. -/
theorem Fair.next {mine : Label → Prop} (hfair : e.Fair mine)
    (hready : ∀ n, ∃ m ≥ n, sys.Ready mine (e.states m)) (n : Nat) :
    ∃ m ≥ n, mine (e.labels m) ∧ ∀ k, n ≤ k → k < m → ¬ mine (e.labels k) :=
  exists_first (hfair hready n)

end Execution

/-! ## Executions by a schedule -/

/-- The states a schedule leads through.  It stays where its label cannot be
    taken. -/
def System.follow (sys : System State Label) (schedule : Nat → State → Label) (s : State) :
    Nat → State
  | 0 => s
  | n + 1 => (sys.step (sys.follow schedule s n) (schedule n (sys.follow schedule s n))).getD
      (sys.follow schedule s n)

/-- The labels of the schedule can always be taken. -/
def System.Follows (sys : System State Label) (schedule : Nat → State → Label) (s : State) : Prop :=
  ∀ n, ∃ s', sys.step (sys.follow schedule s n) (schedule n (sys.follow schedule s n)) = some s'

/-- A run first, then a schedule. -/
def scripted (pre : List Label) (schedule : Nat → State → Label) (n : Nat) (s : State) : Label :=
  pre[n]?.getD (schedule (n - pre.length) s)

section schedule
variable {schedule : Nat → State → Label} {s s' : State} {pre : List Label}

theorem System.Follows.step (h : sys.Follows schedule s) (n : Nat) :
    sys.step (sys.follow schedule s n) (schedule n (sys.follow schedule s n)) =
      some (sys.follow schedule s (n + 1)) := by
  obtain ⟨s', hs'⟩ := h n
  rw [System.follow, hs', Option.getD_some]

def Execution.follow (hinit : sys.init s) (h : sys.Follows schedule s) : Execution sys where
  states := sys.follow schedule s
  labels n := schedule n (sys.follow schedule s n)
  init := hinit
  step := h.step

/-- An invariant under which the schedule can go on. -/
theorem follows_of_invariant {P : Nat → State → Prop} (hs : P 0 s)
    (hstep : ∀ n s, P n s → ∃ s', sys.step s (schedule n s) = some s' ∧ P (n + 1) s') :
    sys.Follows schedule s ∧ ∀ n, P n (sys.follow schedule s n) := by
  have hall : ∀ n, P n (sys.follow schedule s n) := by
    intro n
    induction n with
    | zero => exact hs
    | succ n ih =>
      obtain ⟨s', hs', hP⟩ := hstep n _ ih
      rw [System.follow, hs', Option.getD_some]
      exact hP
  refine ⟨fun n => ?_, hall⟩
  obtain ⟨s', hs', -⟩ := hstep n _ (hall n)
  exact ⟨s', hs'⟩

/-- The schedule from its second label on. -/
theorem follow_succ (n : Nat) : sys.follow schedule s (n + 1) =
    sys.follow (fun n => schedule (n + 1)) ((sys.step s (schedule 0 s)).getD s) n := by
  induction n with
  | zero => rfl
  | succ n ih => rw [System.follow, ih, System.follow]

theorem follow_scripted_succ {a : Label} {s₁ : State} (ha : sys.step s a = some s₁) (n : Nat) :
    sys.follow (scripted (a :: pre) schedule) s (n + 1) =
      sys.follow (scripted pre schedule) s₁ n := by
  have hrest : (fun n => scripted (a :: pre) schedule (n + 1)) = scripted pre schedule := by
    funext n s
    simp [scripted]
  rw [follow_succ, hrest, show scripted (a :: pre) schedule 0 s = a from rfl, ha, Option.getD_some]

theorem follow_scripted (hpre : sys.exec s pre = some s') (n : Nat) :
    sys.follow (scripted pre schedule) s (pre.length + n) = sys.follow schedule s' n := by
  induction pre generalizing s with
  | nil =>
    obtain rfl : s = s' := by simpa [System.exec] using hpre
    rw [List.length_nil, Nat.zero_add]
    rfl
  | cons a pre ih =>
    obtain ⟨s₁, ha, hrest⟩ := Option.bind_eq_some_iff.mp hpre
    rw [List.length_cons, Nat.add_right_comm, follow_scripted_succ ha]
    exact ih hrest

theorem follows_scripted (hpre : sys.exec s pre = some s') (h : sys.Follows schedule s') :
    sys.Follows (scripted pre schedule) s := by
  induction pre generalizing s with
  | nil =>
    obtain rfl : s = s' := by simpa [System.exec] using hpre
    exact h
  | cons a pre ih =>
    obtain ⟨s₁, ha, hrest⟩ := Option.bind_eq_some_iff.mp hpre
    intro n
    cases n with
    | zero => exact ⟨s₁, ha⟩
    | succ n =>
      rw [follow_scripted_succ ha]
      have hlabel : ∀ s, scripted (a :: pre) schedule (n + 1) s = scripted pre schedule n s := by
        intro s
        simp [scripted]
      rw [hlabel]
      exact ih hrest n

/-- **A run carried on.**  After a run the schedule can go on for ever, where it
    can go on under an invariant that the run ends in. -/
theorem Execution.carry_on (hpre : sys.exec s pre = some s') (hinit : sys.init s)
    (schedule : Nat → State → Label) {P : Nat → State → Prop} (hs' : P 0 s')
    (hstep : ∀ n s, P n s → ∃ s', sys.step s (schedule n s) = some s' ∧ P (n + 1) s') :
    ∃ e : Execution sys, (∀ n ≤ pre.length, sys.exec s (pre.take n) = some (e.states n)) ∧
      ∀ n, P n (e.states (pre.length + n)) ∧
        e.labels (pre.length + n) = schedule n (e.states (pre.length + n)) := by
  obtain ⟨hgoes, hstates⟩ := follows_of_invariant hs' hstep
  let e : Execution sys := .follow hinit (follows_scripted hpre hgoes)
  refine ⟨e, ?_, ?_⟩
  · intro n hn
    have hpast : e.past n = pre.take n := by
      refine List.ext_getElem (by simp [past, hn]) ?_
      intro i hi hi'
      have hlt : i < pre.length := (List.length_take_le' n pre).trans_lt' hi'
      simp [past, e, Execution.follow, scripted, List.getElem?_eq_getElem hlt]
    rw [← hpast]
    exact e.exec n
  · intro n
    have hlater : e.states (pre.length + n) = sys.follow schedule s' n := follow_scripted hpre n
    refine ⟨by rw [hlater]; exact hstates n, ?_⟩
    show pre[pre.length + n]?.getD (schedule (pre.length + n - pre.length) _) = _
    rw [List.getElem?_eq_none (Nat.le_add_right _ _), Nat.add_sub_cancel_left, Option.getD_none]
    rfl

end schedule

section eventually
open Filter

/-- What comes about again and again, and stays from some step on, holds from
    some step on. -/
theorem eventually_of_stays {P : Nat → Prop} (hstays : ∀ᶠ n in atTop, P n → P (n + 1))
    (hcomes : ∃ᶠ n in atTop, P n) : ∀ᶠ n in atTop, P n := by
  obtain ⟨n, hstays⟩ := eventually_atTop.mp hstays
  obtain ⟨m, hm, hP⟩ := frequently_atTop.mp hcomes n
  refine eventually_atTop.mpr ⟨m, ?_⟩
  intro k hk
  induction k, hk using Nat.le_induction with
  | base => exact hP
  | succ k hk ih => exact hstays k (le_trans hm hk) ih

/-- A measure that grows again and again, and does not fall any more, passes
    every bound. -/
theorem eventually_ge_of_grows {f : Nat → Nat} (hmono : ∀ᶠ n in atTop, f n ≤ f (n + 1))
    (hgrows : ∃ᶠ n in atTop, f n < f (n + 1)) (bound : Nat) : ∀ᶠ n in atTop, bound ≤ f n := by
  induction bound with
  | zero => exact Eventually.of_forall fun n => Nat.zero_le _
  | succ bound ih =>
    refine eventually_of_stays (hmono.mono fun n hn hle => hle.trans hn) ?_
    refine (tendsto_add_atTop_nat 1).frequently ?_
    exact (hgrows.and_eventually ih).mono fun n ⟨hlt, hle⟩ => Nat.lt_of_le_of_lt hle hlt

/-- A measure that falls again and again, and does not grow any more, is zero
    for good. -/
theorem eventually_zero_of_falls {f : Nat → Nat} (hmono : ∀ᶠ n in atTop, f (n + 1) ≤ f n)
    (hfalls : ∃ᶠ n in atTop, f n = 0 ∨ f (n + 1) < f n) : ∀ᶠ n in atTop, f n = 0 := by
  have hstays : ∀ bound, (∃ᶠ n in atTop, f n ≤ bound) → ∀ᶠ n in atTop, f n ≤ bound := fun _ =>
    eventually_of_stays (hmono.mono fun n hn hle => hn.trans hle)
  have hbelow : ∀ bound, (∃ᶠ n in atTop, f n ≤ bound) → ∀ᶠ n in atTop, f n = 0 := by
    intro bound
    induction bound with
    | zero => exact fun hcomes => (hstays 0 hcomes).mono fun n hn => Nat.le_zero.mp hn
    | succ bound ih =>
      intro hcomes
      refine ih ((tendsto_add_atTop_nat 1).frequently ?_)
      refine (hfalls.and_eventually ((hstays (bound + 1) hcomes).and hmono)).mono ?_
      rintro n ⟨hzero | hlt, hle, hnext⟩
      · show f (n + 1) ≤ bound
        omega
      · show f (n + 1) ≤ bound
        omega
  obtain ⟨n, hn⟩ := eventually_atTop.mp hmono
  refine hbelow (f n) (frequently_atTop.mpr fun m => ⟨max n m, le_max_right _ _, ?_⟩)
  have hsince : ∀ k ≥ n, f k ≤ f n := by
    intro k hk
    induction k, hk using Nat.le_induction with
    | base => exact le_rfl
    | succ k hk ih => exact (hn k hk).trans ih
  exact hsince _ (le_max_left _ _)

end eventually

end LTS
