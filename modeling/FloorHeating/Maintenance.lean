import FloorHeating.Api
import FloorHeating.ControlRuns

/-! # Maintenance runs

    Two results about the idle clock `last_on_s`.

    * The pump is never left idle: a decision that leaves it off with nothing
      against a maintenance run leaves it off for less than the interval.
    * Maintenance runs are bounded and spaced: each start leaves the pump on,
      comes a whole interval after the pump last ran, and carries the pump
      for no longer than the length of the run.

    Both rest on what `last_on_s` is: the time of the last decision that
    found or left the pump on. -/

namespace FloorHeating

open PastTime

/-! ## The idle clock -/

/-- The idle clock and `changed_s`, in terms of the decisions so far. -/
structure IdleInv (boot_s : Int) (ds : List Decision) (s : CtlState) : Prop where
  on_now : s.on = true → ∃ d, latest (fun _ => true) ds = some d ∧ d.on = true ∧
    s.last_on_s = d.now_s
  off_since : s.on = false → s.last_on_s = s.changed_s ∧
    s.changed_s = ((latest Decision.switched_off ds).map Decision.now_s).getD boot_s

theorem idleInv_init (boot_s : Int) : IdleInv boot_s [] (ctl_init boot_s) where
  on_now := by simp [ctl_init]
  off_since := by simp [ctl_init]

/-- What decides nothing leaves the pump, its clocks and the maintenance run
    alone. -/
theorem ctl_step_no_decision {s : CtlState} {op : CtlOp} (h : decision_of s op = none) :
    (ctl_step s op).on = s.on ∧ (ctl_step s op).last_on_s = s.last_on_s ∧
      (ctl_step s op).changed_s = s.changed_s ∧ (ctl_step s op).maintenance = s.maintenance ∧
      (ctl_step s op).maintenance_until_s = s.maintenance_until_s := by
  cases op with
  | decide cfg now_s => simp [decision_of] at h
  | manual m d now_s =>
    obtain ⟨m', u, hstep⟩ := ctl_step_manual_frame s m d now_s
    rw [hstep]
    exact ⟨rfl, rfl, rfl, rfl, rfl⟩
  | sensor cfg now_s valid t =>
    cases valid with
    | false =>
      rw [ctl_step_bad]
      exact ⟨rfl, rfl, rfl, rfl, rfl⟩
    | true =>
      rw [ctl_step_good]
      exact ⟨rfl, rfl, rfl, rfl, rfl⟩

theorem idleInv_no_decision {boot_s : Int} {ds : List Decision} {s : CtlState} {op : CtlOp}
    (h : IdleInv boot_s ds s) (hnone : decision_of s op = none) :
    IdleInv boot_s (ds ++ (decision_of s op).toList) (ctl_step s op) := by
  obtain ⟨hon, hlast, hchanged, -⟩ := ctl_step_no_decision hnone
  rw [hnone, Option.toList_none, List.append_nil]
  refine ⟨?_, ?_⟩
  · rw [hon, hlast]
    exact h.on_now
  · rw [hon, hlast, hchanged]
    exact h.off_since

theorem idleInv_decide {boot_s : Int} {ds : List Decision} {s : CtlState}
    (h : IdleInv boot_s ds s) (cfg : CtlConfig) (now_s : Int) :
    IdleInv boot_s (ds ++ (decision_of s (.decide cfg now_s)).toList)
      (ctl_step s (.decide cfg now_s)) := by
  rw [decision_of_decide, ctl_step_decide]
  generalize hrule : ctl_rule (flags_next s cfg now_s) = rule
  obtain ⟨on, reason⟩ := rule
  refine ⟨?_, ?_⟩
  · -- on: this decision is the latest, and has set the clock
    intro hon
    have hon' : on = true := hon
    simp [latest_concat, hon']
  · intro hoff
    have hoff' : on = false := hoff
    subst hoff'
    cases hwas : s.on with
    | true =>
      -- switched off now: both clocks are at this decision
      simp [latest_concat, Decision.switched_off]
    | false =>
      -- the pump stays off: both clocks keep their value
      obtain ⟨hlast, hchanged⟩ := h.off_since hwas
      simp only [Option.toList_some, latest_concat, Decision.switched_off]
      simp [hlast, ← hchanged]

theorem idleInv_run (boot_s : Int) (ops : List CtlOp) :
    IdleInv boot_s (decisions boot_s ops) (ctl_run boot_s ops) := by
  induction ops using List.reverseRecOn with
  | nil => exact idleInv_init boot_s
  | append_singleton ops op ih =>
    rw [ctl_run_concat, decisions_concat]
    cases op with
    | decide cfg now_s => exact idleInv_decide ih cfg now_s
    | manual | sensor => exact idleInv_no_decision ih rfl

/-! ## The pump is never left idle -/

/-- A pump the rules leave off has no maintenance run in force. -/
theorem ctl_rule_off {s : CtlState} (hoff : (ctl_rule s).1 = false) (hmanual : s.manual = .none) :
    s.maintenance = false := by
  unfold ctl_rule at hoff
  rw [hmanual] at hoff
  cases hm : s.maintenance with
  | false => rfl
  | true =>
    cases ho : s.overheat <;> cases hf : s.sensor_failed <;> cases hh : s.hot <;>
      simp [hm, ho, hf, hh] at hoff

/-- Where nothing stands against a maintenance run, a decision that leaves the
    pump off found it on, or idle for less than the interval. -/
theorem decide_off_idle {s : CtlState} {cfg : CtlConfig} {now_s : Int}
    (hoff : (ctl_rule (flags_next s cfg now_s)).1 = false)
    (hmanual : (flags_next s cfg now_s).manual = .none) (hfailed : s.sensor_failed = false)
    (htemp : s.have_temp = true) (hcold : s.temp_x10.toInt < cfg.stop_x10.toInt) :
    s.on = true ∨ now_s - s.last_on_s < cfg.maintenance_interval_s.toNat := by
  have hnone : maintenance_kept s now_s = false ∧ maintenance_starts s cfg now_s = false := by
    have hmaintenance := ctl_rule_off hoff hmanual
    exact Bool.or_eq_false_iff.mp hmaintenance
  obtain ⟨hkept, hstarts⟩ := hnone
  have hmanual' : manual_next s now_s = .none := hmanual
  cases hon : s.on with
  | true => exact Or.inl rfl
  | false =>
    right
    -- everything else that a start asks for is there
    by_contra hidle
    have hstart : maintenance_starts s cfg now_s = true :=
      (maintenance_starts_iff s cfg now_s).mpr
        ⟨hkept, hon, hmanual', hfailed, htemp, hcold, by omega⟩
    rw [hstarts] at hstart
    exact Bool.false_ne_true hstart

/-- **The pump is never left idle.**  After a decision that leaves the pump
    off with no override, a working sensor and a reading below stop, the pump
    has been off for less than the maintenance interval.  In every state, a
    pump that is off was last switched off at `changed_s`, or never ran since
    boot, and the idle time the API reports is the time in that state; a pump
    that is on was left on by the latest decision, at `last_on_s`. -/
theorem never_left_idle (boot_s : Int) (ops : List CtlOp) :
    (∀ (cfg : CtlConfig) (now_s : Int) (s : CtlState), 1 ≤ cfg.maintenance_interval_s.toNat →
        s = ctl_run boot_s (ops ++ [.decide cfg now_s]) → s.on = false → s.manual = .none →
        s.sensor_failed = false → s.have_temp = true →
        s.temp_x10.toInt < cfg.stop_x10.toInt →
        now_s - s.changed_s < cfg.maintenance_interval_s.toNat) ∧
      ((ctl_run boot_s ops).on = false →
        (ctl_run boot_s ops).last_on_s = (ctl_run boot_s ops).changed_s ∧
        (ctl_run boot_s ops).changed_s =
          ((latest Decision.switched_off (decisions boot_s ops)).map Decision.now_s).getD boot_s ∧
        ∀ now_mono_s, status_idle_s (ctl_run boot_s ops) now_mono_s =
          status_state_s (ctl_run boot_s ops) now_mono_s) ∧
      ((ctl_run boot_s ops).on = true → ∃ d, latest (fun _ => true) (decisions boot_s ops) = some d ∧
        d.on = true ∧ (ctl_run boot_s ops).last_on_s = d.now_s) := by
  have hinv := idleInv_run boot_s ops
  refine ⟨?_, ?_, hinv.on_now⟩
  · intro cfg now_s s hinterval hs hoff hmanual hfailed htemp hcold
    rw [ctl_run_concat, ctl_step_decide] at hs
    subst hs
    have hidle := decide_off_idle hoff hmanual hfailed htemp hcold
    simp only at hoff ⊢
    rw [hoff]
    cases hon : (ctl_run boot_s ops).on with
    | true =>
      -- switched off just now
      rw [if_neg (by simp)]
      omega
    | false =>
      obtain ⟨hlast, -⟩ := hinv.off_since hon
      rcases hidle with hidle | hidle
      · simp [hon] at hidle
      · -- off before as well: idle since `changed_s`
        rw [if_pos rfl]
        show now_s - (ctl_run boot_s ops).changed_s < _
        omega
  · intro hoff
    obtain ⟨hlast, hchanged⟩ := hinv.off_since hoff
    refine ⟨hlast, hchanged, ?_⟩
    intro now_mono_s
    simp [status_idle_s, status_state_s, hoff, hlast]

/-- A cold reading, and the last second before a maintenance run is due. -/
theorem never_left_idle_week :
    604799 - (ctl_run 0 ([.sensor ⟨300, 250, 450, 604800, 60, 3⟩ 5 true 200] ++
      [.decide ⟨300, 250, 450, 604800, 60, 3⟩ 604799])).changed_s < 604800 :=
  (never_left_idle 0 [.sensor ⟨300, 250, 450, 604800, 60, 3⟩ 5 true 200]).1
    ⟨300, 250, 450, 604800, 60, 3⟩ 604799 _ (by decide) rfl (by decide) (by decide) (by decide)
    (by decide) (by decide)

/-! ## Maintenance runs are bounded and spaced -/

/-- What the state knows of the decisions so far: none found or left the pump
    on after `last_on_s`, and a maintenance run in force was started by one
    of them. -/
structure MaintenanceInv (boot_s : Int) (ds : List Decision) (s : CtlState) : Prop where
  boot_le : boot_s ≤ s.last_on_s
  ran_le : ∀ e ∈ ds, e.ran = true → e.now_s ≤ s.last_on_s
  started : s.maintenance = true → ∃ e ∈ ds, e.maintenance_started = true ∧
    s.maintenance_until_s = e.now_s + e.cfg.maintenance_run_s.toNat

/-- What holds of a decision, given those before it. -/
structure MaintenanceBounded (boot_s : Int) (before : List Decision) (d : Decision) : Prop where
  /-- A start leaves the pump on. -/
  start_on : d.maintenance_started = true → d.on = true
  /-- Starts are an interval apart. -/
  spaced : d.maintenance_started = true → ∀ e ∈ before, e.maintenance_started = true →
    e.now_s + d.cfg.maintenance_interval_s.toNat ≤ d.now_s
  /-- A start comes an interval after boot, and after the pump last ran. -/
  idle : d.maintenance_started = true →
    boot_s + d.cfg.maintenance_interval_s.toNat ≤ d.now_s ∧
    ∀ e ∈ before, e.ran = true → e.now_s + d.cfg.maintenance_interval_s.toNat ≤ d.now_s
  /-- Maintenance carries the pump only within a run. -/
  bounded : d.reason = .maintenance → d.maintenance_started = true ∨
    ∃ e ∈ before, e.maintenance_started = true ∧ e.now_s ≤ d.now_s ∧
      d.now_s < e.now_s + e.cfg.maintenance_run_s.toNat

/-- With the maintenance flag up and no override, the rules run the pump. -/
theorem ctl_rule_maintenance {s : CtlState} (h : s.maintenance = true) (hm : s.manual = .none) :
    (ctl_rule s).1 = true := by
  cases hon : (ctl_rule s).1 with
  | true => rfl
  | false =>
    have hoff := ctl_rule_off hon hm
    simp [h] at hoff

/-- The maintenance rule wins only with the flag up. -/
theorem ctl_rule_reason_maintenance {s : CtlState} (h : (ctl_rule s).2 = .maintenance) :
    s.maintenance = true := by
  unfold ctl_rule at h
  cases hm : s.maintenance with
  | true => rfl
  | false =>
    rw [hm] at h
    repeat' split at h
    all_goals simp_all

/-- The decision that comes next meets its bounds. -/
theorem maintenanceBounded_next {boot_s : Int} {ds : List Decision} {s : CtlState}
    (h : MaintenanceInv boot_s ds s) {cfg : CtlConfig} {now_s : Int}
    (htime : ∀ e ∈ ds, e.now_s ≤ now_s) {d : Decision}
    (hd : decision_of s (.decide cfg now_s) = some d)
    (hran : ∀ e ∈ ds, e.maintenance_started = true → e.ran = true) :
    MaintenanceBounded boot_s ds d := by
  rw [decision_of_decide] at hd
  obtain rfl := Option.some.inj hd
  have hidle : maintenance_starts s cfg now_s = true →
      boot_s + cfg.maintenance_interval_s.toNat ≤ now_s ∧
      ∀ e ∈ ds, e.ran = true → e.now_s + cfg.maintenance_interval_s.toNat ≤ now_s := by
    intro hstart
    obtain ⟨-, -, -, -, -, -, hinterval⟩ := (maintenance_starts_iff s cfg now_s).mp hstart
    have hboot' := h.boot_le
    refine ⟨by omega, ?_⟩
    intro e he hr
    have hle := h.ran_le e he hr
    omega
  refine ⟨?_, ?_, hidle, ?_⟩
  · -- no override is left at a start, so the rules come to the maintenance flag
    intro hstart
    obtain ⟨-, -, hmanual, -⟩ := (maintenance_starts_iff s cfg now_s).mp hstart
    apply ctl_rule_maintenance
    · show (maintenance_kept s now_s || maintenance_starts s cfg now_s) = true
      rw [show maintenance_starts s cfg now_s = true from hstart, Bool.or_true]
    · exact hmanual
  · -- an earlier start has run the pump, so it is one of the decisions that did
    intro hstart e he hes
    exact (hidle hstart).2 e he (hran e he hes)
  · intro hreason
    have hflag : (maintenance_kept s now_s || maintenance_starts s cfg now_s) = true :=
      ctl_rule_reason_maintenance hreason
    rcases Bool.or_eq_true_iff.mp hflag with hkept | hstart
    · -- a run kept from before: its start is among the decisions, its end is ahead
      right
      unfold maintenance_kept at hkept
      simp only [Bool.and_eq_true, Bool.not_eq_true', decide_eq_false_iff_not, not_le, ge_iff_le]
        at hkept
      obtain ⟨hmaintenance, huntil⟩ := hkept
      obtain ⟨e, he, hes, hend⟩ := h.started hmaintenance
      exact ⟨e, he, hes, htime e he, by show now_s < _; omega⟩
    · exact Or.inl hstart

theorem maintenanceInv_no_decision {boot_s : Int} {ds : List Decision} {s : CtlState}
    {op : CtlOp} (h : MaintenanceInv boot_s ds s) (hnone : decision_of s op = none) :
    MaintenanceInv boot_s (ds ++ (decision_of s op).toList) (ctl_step s op) := by
  obtain ⟨-, hlast, -, hmaintenance, huntil⟩ := ctl_step_no_decision hnone
  rw [hnone, Option.toList_none, List.append_nil]
  refine ⟨?_, ?_, ?_⟩
  · rw [hlast]
    exact h.boot_le
  · rw [hlast]
    exact h.ran_le
  · rw [hmaintenance, huntil]
    exact h.started

/-- The decision keeps the invariant, with itself appended. -/
theorem maintenanceInv_decide {boot_s : Int} {ds : List Decision} {s : CtlState}
    (h : MaintenanceInv boot_s ds s) {cfg : CtlConfig} {now_s : Int} (hboot : boot_s ≤ now_s)
    (htime : ∀ e ∈ ds, e.now_s ≤ now_s) :
    MaintenanceInv boot_s (ds ++ (decision_of s (.decide cfg now_s)).toList)
      (ctl_step s (.decide cfg now_s)) := by
  rw [decision_of_decide, ctl_step_decide]
  generalize hrule : ctl_rule (flags_next s cfg now_s) = rule
  obtain ⟨on, reason⟩ := rule
  refine ⟨?_, ?_, ?_⟩
  · show boot_s ≤ if on || s.on then now_s else s.last_on_s
    have hboot' := h.boot_le
    split <;> omega
  · intro e he hr
    show e.now_s ≤ if on || s.on then now_s else s.last_on_s
    rcases List.mem_append.mp he with he | he
    · have hle := h.ran_le e he hr
      have hnow := htime e he
      split <;> omega
    · obtain rfl := List.mem_singleton.mp he
      have hor : (on || s.on) = true := by
        rw [Bool.or_comm]
        exact hr
      rw [if_pos hor]
  · intro hmaintenance
    show ∃ e ∈ (ds ++ [_] : List Decision), e.maintenance_started = true ∧
      (if maintenance_starts s cfg now_s then now_s + cfg.maintenance_run_s.toNat
        else s.maintenance_until_s) = _
    cases hstart : maintenance_starts s cfg now_s with
    | true => exact ⟨_, List.mem_append_right _ (List.mem_singleton.mpr rfl), rfl, by simp⟩
    | false =>
      -- kept from before, with its start and its end
      have hkept : maintenance_kept s now_s = true := by
        have hflag : (maintenance_kept s now_s || maintenance_starts s cfg now_s) = true :=
          hmaintenance
        simpa [hstart] using hflag
      have hbefore : s.maintenance = true := by
        unfold maintenance_kept at hkept
        exact (Bool.and_eq_true_iff.mp hkept).1
      obtain ⟨e, he, hes, hend⟩ := h.started hbefore
      exact ⟨e, List.mem_append_left _ he, hes, by simpa using hend⟩

theorem maintenanceInv_run {boot_s : Int} {ops : List CtlOp} (hmono : NonDecreasing boot_s ops) :
    MaintenanceInv boot_s (decisions boot_s ops) (ctl_run boot_s ops) ∧
      Historically (MaintenanceBounded boot_s) (decisions boot_s ops) := by
  induction ops using List.reverseRecOn with
  | nil => exact ⟨⟨le_refl _, by simp, by simp [ctl_init]⟩, historically_nil _⟩
  | append_singleton ops op ih =>
    obtain ⟨hops, hboot, htime⟩ := nonDecreasing_concat hmono
    obtain ⟨hinv, hpast⟩ := ih hops
    rw [ctl_run_concat, decisions_concat]
    cases op with
    | decide cfg now_s =>
      have htime' : ∀ e ∈ decisions boot_s ops, e.now_s ≤ now_s := by
        intro e he
        obtain ⟨o, ho, hnow⟩ := decisions_now_s he
        rw [← hnow]
        exact htime o ho
      refine ⟨maintenanceInv_decide hinv hboot htime', ?_⟩
      have hran : ∀ e ∈ decisions boot_s ops, e.maintenance_started = true → e.ran = true := by
        intro e he hes
        obtain ⟨pre, post, hl⟩ := List.append_of_mem he
        have hon := (hpast pre e post hl).start_on hes
        simp [Decision.ran, hon]
      have hd := decision_of_decide (ctl_run boot_s ops) cfg now_s
      rw [hd, Option.toList_some, historically_concat]
      exact ⟨hpast, maintenanceBounded_next hinv htime' hd hran⟩
    | manual | sensor =>
      refine ⟨maintenanceInv_no_decision hinv rfl, ?_⟩
      simpa [decision_of] using hpast

/-- **Maintenance runs are bounded and spaced.**  In a run with non-decreasing
    timestamps every decision meets `MaintenanceBounded`, whatever intervals
    and run lengths the decisions were given: a start leaves the pump on,
    comes an interval after boot, after the previous start and after the last
    decision that found or left the pump on, and no decision runs the pump
    for maintenance except within a run that was started. -/
theorem maintenance_bounded (boot_s : Int) (ops : List CtlOp) (hmono : NonDecreasing boot_s ops) :
    Historically (MaintenanceBounded boot_s) (decisions boot_s ops) :=
  (maintenanceInv_run hmono).2

/-- A cold reading, then a decision a week after boot: the one start. -/
theorem maintenance_bounded_week :
    MaintenanceBounded 0 [] ⟨604800, ⟨300, 250, 450, 604800, 60, 3⟩, false, true, .maintenance,
      true⟩ :=
  maintenance_bounded 0
    [.sensor ⟨300, 250, 450, 604800, 60, 3⟩ 5 true 200,
      .decide ⟨300, 250, 450, 604800, 60, 3⟩ 604800]
    (by unfold NonDecreasing; decide) [] _ [] (by decide)

end FloorHeating
