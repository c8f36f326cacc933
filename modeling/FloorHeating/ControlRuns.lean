import FloorHeating.ControlLogic
import FloorHeating.Lib.PastTime

/-! # Runs of the control logic

    `control_logic.c` alone: a run is any sequence of calls of `ctl_sensor`,
    `ctl_manual` and `ctl_decide` on one state, from `ctl_init`, each with
    its own configuration, its own timestamp and a zeroed result. -/

namespace FloorHeating

open PastTime

/-- One call on the state. -/
inductive CtlOp where
  | sensor (cfg : CtlConfig) (now_s : Int) (valid : Bool) (temp_x10 : Int16)
  | manual (manual : CtlManual) (duration_s : UInt32) (now_s : Int)
  | decide (cfg : CtlConfig) (now_s : Int)
  deriving DecidableEq, Repr

/-- The timestamp of the call. -/
def CtlOp.now_s : CtlOp → Int
  | .sensor _ now_s _ _ => now_s
  | .manual _ _ now_s => now_s
  | .decide _ now_s => now_s

/-- The state after the call. -/
def ctl_step (s : CtlState) : CtlOp → CtlState
  | .sensor cfg now_s valid temp_x10 => (ctl_sensor s cfg now_s valid temp_x10 {}).1
  | .manual manual duration_s now_s => (ctl_manual s manual duration_s now_s).getD s
  | .decide cfg now_s => (ctl_decide s cfg now_s {}).1

/-- The state after all the calls, from `ctl_init` at `boot_s`. -/
def ctl_run (boot_s : Int) (ops : List CtlOp) : CtlState :=
  ops.foldl ctl_step (ctl_init boot_s)

@[simp] theorem ctl_run_nil (boot_s : Int) : ctl_run boot_s [] = ctl_init boot_s := rfl

@[simp] theorem ctl_run_concat (boot_s : Int) (ops : List CtlOp) (op : CtlOp) :
    ctl_run boot_s (ops ++ [op]) = ctl_step (ctl_run boot_s ops) op := by
  simp [ctl_run]

/-! ## One call, field by field -/

@[simp] theorem ctl_step_bad (s : CtlState) (cfg : CtlConfig) (now_s : Int) (t : Int16) :
    ctl_step s (.sensor cfg now_s false t) = { s with
      failures := bump_failures s.failures
      sensor_failed :=
        s.sensor_failed || decide (bump_failures s.failures ≥ cfg.sensor_fail_reads) } := by
  rw [ctl_step, ctl_sensor_bad]

@[simp] theorem ctl_step_good (s : CtlState) (cfg : CtlConfig) (now_s : Int) (t : Int16) :
    ctl_step s (.sensor cfg now_s true t) = { s with
      sensor_failed := false
      failures := 0
      have_temp := true
      temp_x10 := t
      temp_s := now_s
      overheat := overheat_next cfg t s.overheat
      hot := hot_next cfg t s.hot } := by
  rw [ctl_step, ctl_sensor_good]

theorem ctl_step_manual (s : CtlState) (m : CtlManual) (d : UInt32) (now_s : Int) :
    ctl_step s (.manual m d now_s) =
      if m = .stop ∧ s.overheat then s
      else { s with
        manual := m
        manual_until_s := if m = .none then 0 else now_s + d.toNat } := by
  rw [ctl_step, ctl_manual]
  split <;> rfl

theorem ctl_step_decide (s : CtlState) (cfg : CtlConfig) (now_s : Int) :
    ctl_step s (.decide cfg now_s) = { flags_next s cfg now_s with
      on := (ctl_rule (flags_next s cfg now_s)).1
      reason := (ctl_rule (flags_next s cfg now_s)).2
      changed_s := if (ctl_rule (flags_next s cfg now_s)).1 = s.on then s.changed_s else now_s
      last_on_s :=
        if (ctl_rule (flags_next s cfg now_s)).1 || s.on then now_s else s.last_on_s } := by
  rw [ctl_step, ctl_decide_eq]

/-- A command touches the override, nothing else. -/
theorem ctl_step_manual_frame (s : CtlState) (m : CtlManual) (d : UInt32) (now_s : Int) :
    ∃ m' u, ctl_step s (.manual m d now_s) = { s with manual := m', manual_until_s := u } := by
  rw [ctl_step_manual]
  split
  · exact ⟨s.manual, s.manual_until_s, rfl⟩
  · exact ⟨_, _, rfl⟩

/-! ## The latches -/

/-- A valid reading and the configuration it was judged by. -/
structure Reading where
  cfg : CtlConfig
  temp_x10 : Int16
  deriving DecidableEq, Repr

/-- The valid readings of a run. -/
def readings (ops : List CtlOp) : List Reading :=
  ops.filterMap fun
    | .sensor cfg _ true t => some ⟨cfg, t⟩
    | _ => none

/-- The outcomes of all reads of a run: valid or not. -/
def reads (ops : List CtlOp) : List Bool :=
  ops.filterMap fun
    | .sensor _ _ valid _ => some valid
    | _ => none

/-- At or above the critical threshold of its read. -/
def Reading.critical (r : Reading) : Prop := r.temp_x10.toInt ≥ r.cfg.critical_x10.toInt

/-- More than 2 °C below the critical threshold of its read. -/
def Reading.clears (r : Reading) : Prop :=
  r.temp_x10.toInt < r.cfg.critical_x10.toInt - OVERHEAT_CLEAR_X10

/-- Strictly above the start threshold of its read. -/
def Reading.above_start (r : Reading) : Prop := r.temp_x10.toInt > r.cfg.start_x10.toInt

/-- Strictly below the stop threshold of its read. -/
def Reading.below_stop (r : Reading) : Prop := r.temp_x10.toInt < r.cfg.stop_x10.toInt

instance (r : Reading) : Decidable r.critical := inferInstanceAs (Decidable (_ ≥ _))
instance (r : Reading) : Decidable r.clears := inferInstanceAs (Decidable (_ < _))
instance (r : Reading) : Decidable r.above_start := inferInstanceAs (Decidable (_ > _))
instance (r : Reading) : Decidable r.below_stop := inferInstanceAs (Decidable (_ < _))

/-- Only valid readings move the two latches. -/
theorem ctl_run_latches (boot_s : Int) (ops : List CtlOp) :
    (ctl_run boot_s ops).overheat =
        (readings ops).foldl (fun b r => overheat_next r.cfg r.temp_x10 b) false ∧
      (ctl_run boot_s ops).hot =
        (readings ops).foldl (fun b r => hot_next r.cfg r.temp_x10 b) false := by
  induction ops using List.reverseRecOn with
  | nil => exact ⟨rfl, rfl⟩
  | append_singleton ops op ih =>
    rw [ctl_run_concat, readings, List.filterMap_append]
    -- only the valid read adds a reading; everything else leaves both latches alone
    cases op with
    | sensor cfg now_s valid t =>
      cases valid with
      | false => simpa [readings] using ih
      | true => simp [readings, ih, List.foldl_append]
    | manual m d now_s =>
      obtain ⟨m', u, hstep⟩ := ctl_step_manual_frame (ctl_run boot_s ops) m d now_s
      rw [hstep]
      simpa [readings] using ih
    | decide cfg now_s =>
      rw [ctl_step_decide]
      simpa [readings, flags_next] using ih

/-- **The overheat latch.**  Overheat is the memory of a critical reading that
    no later reading has cleared, each judged by its own thresholds. -/
theorem overheat_iff_since (boot_s : Int) (ops : List CtlOp) :
    (ctl_run boot_s ops).overheat = true ↔
      Since Reading.critical (fun _ r => ¬ r.clears) (readings ops) := by
  have hlatch := foldl_latch (fun r : Reading => decide r.critical)
    (fun r => decide r.clears) (readings ops)
  simp only [decide_eq_true_eq, decide_eq_false_iff_not] at hlatch
  rw [(ctl_run_latches boot_s ops).1]
  exact hlatch

/-- **The hysteresis memory.**  The memory is set by a reading above start and
    kept until a later reading is below stop, each judged by its own
    thresholds. -/
theorem hot_iff_since (boot_s : Int) (ops : List CtlOp) :
    (ctl_run boot_s ops).hot = true ↔
      Since Reading.above_start (fun _ r => ¬ r.below_stop) (readings ops) := by
  have hlatch := foldl_latch (fun r : Reading => decide r.above_start)
    (fun r => decide r.below_stop) (readings ops)
  simp only [decide_eq_true_eq, decide_eq_false_iff_not] at hlatch
  rw [(ctl_run_latches boot_s ops).2]
  exact hlatch

/-! ## The decisions of a run -/

/-- A decision: what it was given and what it did to the pump. -/
structure Decision where
  now_s : Int
  cfg : CtlConfig
  was_on : Bool
  on : Bool
  reason : CtlReason
  maintenance_started : Bool
  deriving DecidableEq, Repr

/-- The decision found the pump on, or left it on. -/
def Decision.ran (d : Decision) : Bool := d.was_on || d.on

/-- The decision switched the pump off. -/
def Decision.switched_off (d : Decision) : Bool := d.was_on && !d.on

/-- The decision a call makes, if it is one. -/
def decision_of (s : CtlState) : CtlOp → Option Decision
  | .decide cfg now_s =>
    let (s', r) := ctl_decide s cfg now_s {}
    some ⟨now_s, cfg, s.on, s'.on, s'.reason, r.maintenance_started⟩
  | _ => none

/-- The decisions of a run, in order. -/
def decisions (boot_s : Int) (ops : List CtlOp) : List Decision :=
  (outputs ctl_step decision_of (ctl_init boot_s) ops).filterMap id

@[simp] theorem decisions_nil (boot_s : Int) : decisions boot_s [] = [] := rfl

theorem decisions_concat (boot_s : Int) (ops : List CtlOp) (op : CtlOp) :
    decisions boot_s (ops ++ [op]) =
      decisions boot_s ops ++ (decision_of (ctl_run boot_s ops) op).toList := by
  unfold decisions
  rw [outputs_concat, List.filterMap_append]
  show _ ++ List.filterMap id [decision_of (ctl_run boot_s ops) op] = _
  cases decision_of (ctl_run boot_s ops) op <;> rfl

theorem decision_of_decide (s : CtlState) (cfg : CtlConfig) (now_s : Int) :
    decision_of s (.decide cfg now_s) = some {
      now_s
      cfg
      was_on := s.on
      on := (ctl_rule (flags_next s cfg now_s)).1
      reason := (ctl_rule (flags_next s cfg now_s)).2
      maintenance_started := maintenance_starts s cfg now_s } := by
  simp only [decision_of, ctl_decide_eq, Bool.false_or]

/-- Each decision carries the timestamp of its call. -/
theorem decisions_now_s {boot_s : Int} {ops : List CtlOp} {d : Decision}
    (h : d ∈ decisions boot_s ops) : ∃ op ∈ ops, op.now_s = d.now_s := by
  induction ops using List.reverseRecOn with
  | nil => simp at h
  | append_singleton ops op ih =>
    rw [decisions_concat, List.mem_append] at h
    rcases h with h | h
    · -- made by an earlier call
      obtain ⟨op', hmem, hnow⟩ := ih h
      exact ⟨op', by simp [hmem], hnow⟩
    · refine ⟨op, by simp, ?_⟩
      cases op with
      | decide cfg now_s =>
        rw [decision_of_decide] at h
        obtain rfl := List.mem_singleton.mp h
        rfl
      | sensor _ _ _ _ => simp [decision_of] at h
      | manual _ _ _ => simp [decision_of] at h

/-- The calls have non-decreasing timestamps, from boot on. -/
def NonDecreasing (boot_s : Int) (ops : List CtlOp) : Prop :=
  (boot_s :: ops.map CtlOp.now_s).Pairwise (· ≤ ·)

theorem nonDecreasing_concat {boot_s : Int} {ops : List CtlOp} {op : CtlOp}
    (h : NonDecreasing boot_s (ops ++ [op])) :
    NonDecreasing boot_s ops ∧ boot_s ≤ op.now_s ∧ ∀ o ∈ ops, o.now_s ≤ op.now_s := by
  unfold NonDecreasing at h
  rw [List.map_append, ← List.cons_append, List.pairwise_append] at h
  obtain ⟨hops, -, hlast⟩ := h
  refine ⟨hops, hlast boot_s (by simp) op.now_s (by simp), ?_⟩
  intro o ho
  exact hlast o.now_s (by simp; exact Or.inr ⟨o, ho, rfl⟩) op.now_s (by simp)

end FloorHeating
