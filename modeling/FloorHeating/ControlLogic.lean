import Mathlib.Data.Int.Notation

/-! # The pump decisions (`control_logic.c`)

    Translation of `ctl_init`, `ctl_sensor`, `ctl_manual` and `ctl_decide`.

    Temperatures are in 0.1 °C and keep the C widths: `int16_t` is `Int16`,
    and every comparison is made on `toInt`, after the integer promotion of
    C.  Times are monotonic seconds.  `int64_t` is `Int`: a device would have
    to run for 10^11 years before one of these sums left the type.

    A `ctl_result_t *res` that a function updates is passed in and returned.
    The two long functions are cut at the blank lines of the source into one
    definition for each block. -/

namespace FloorHeating

/-! ## Data -/

/-- `ctl_reason_t`: which rule decided the pump state. -/
inductive CtlReason where
  | auto_cold
  | auto_hot
  | manual_on
  | manual_off
  | maintenance
  | sensor_fail
  | overheat
  deriving DecidableEq, Repr

/-- `ctl_manual_t`: the manual override in force. -/
inductive CtlManual where
  | none
  | start
  | stop
  deriving DecidableEq, Repr

/-- `ctl_config_t`. -/
structure CtlConfig where
  start_x10 : Int16
  stop_x10 : Int16
  critical_x10 : Int16
  maintenance_interval_s : UInt32
  maintenance_run_s : UInt32
  sensor_fail_reads : UInt8
  deriving DecidableEq, Repr

/-- `ctl_state_t`. -/
structure CtlState where
  on : Bool
  reason : CtlReason
  changed_s : Int
  have_temp : Bool
  temp_x10 : Int16
  temp_s : Int
  failures : UInt8
  sensor_failed : Bool
  overheat : Bool
  hot : Bool
  manual : CtlManual
  manual_until_s : Int
  maintenance : Bool
  maintenance_until_s : Int
  last_on_s : Int
  deriving DecidableEq, Repr

/-- `ctl_result_t`: what happened in one step.  The defaults are the zeroed
    result (`memset(&r, 0, sizeof(r))`) every caller starts from. -/
structure CtlResult where
  changed : Bool := false
  prev_reason : CtlReason := .auto_cold
  sensor_failed : Bool := false
  sensor_recovered : Bool := false
  overheat_started : Bool := false
  overheat_ended : Bool := false
  manual_expired : Bool := false
  manual_cancelled : Bool := false
  maintenance_started : Bool := false
  deriving DecidableEq, Repr

/-- Overheat ends 2 °C below the critical threshold. -/
def OVERHEAT_CLEAR_X10 : Int := 20

def UINT8_MAX : UInt8 := 255

/-- `ctl_init`. -/
def ctl_init (now_s : Int) : CtlState where
  on := false
  reason := .auto_cold
  changed_s := now_s
  have_temp := false
  temp_x10 := 0
  temp_s := 0
  failures := 0
  sensor_failed := false
  overheat := false
  hot := false
  manual := .none
  manual_until_s := 0
  maintenance := false
  maintenance_until_s := 0
  last_on_s := now_s

/-! ## `ctl_sensor` -/

/-- The saturating counter of consecutive bad reads. -/
def bump_failures (failures : UInt8) : UInt8 :=
  if failures < UINT8_MAX then failures + 1 else failures

/-- The failed read: count it, and raise the fail-safe once. -/
def ctl_bad_read (s : CtlState) (cfg : CtlConfig) (res : CtlResult) : CtlState × CtlResult :=
  let failures := bump_failures s.failures
  -- once in an outage: the flag goes down again only with a valid read
  if !s.sensor_failed ∧ failures ≥ cfg.sensor_fail_reads then
    ({ s with failures, sensor_failed := true }, { res with sensor_failed := true })
  else
    ({ s with failures }, res)

/-- The overheat latch of a valid read. -/
def ctl_overheat (s : CtlState) (cfg : CtlConfig) (temp_x10 : Int16) (res : CtlResult) :
    CtlState × CtlResult :=
  if !s.overheat ∧ temp_x10.toInt ≥ cfg.critical_x10.toInt then
    ({ s with overheat := true }, { res with overheat_started := true })
  else if s.overheat ∧ temp_x10.toInt < cfg.critical_x10.toInt - OVERHEAT_CLEAR_X10 then
    ({ s with overheat := false }, { res with overheat_ended := true })
  else
    -- between the two bounds the flag stays as it is
    (s, res)

/-- The hysteresis memory of a valid read. -/
def ctl_hot (s : CtlState) (cfg : CtlConfig) (temp_x10 : Int16) : CtlState :=
  if temp_x10.toInt > cfg.start_x10.toInt then { s with hot := true }
  else if temp_x10.toInt < cfg.stop_x10.toInt then { s with hot := false }
  else s

/-- `ctl_sensor`: one sensor read, valid with a temperature or a failure. -/
def ctl_sensor (s : CtlState) (cfg : CtlConfig) (now_s : Int) (valid : Bool) (temp_x10 : Int16)
    (res : CtlResult) : CtlState × CtlResult :=
  if !valid then
    ctl_bad_read s cfg res
  else
    let res := if s.sensor_failed then { res with sensor_recovered := true } else res
    let s := { s with
      sensor_failed := false
      failures := 0
      have_temp := true
      temp_x10
      temp_s := now_s }
    let (s, res) := ctl_overheat s cfg temp_x10 res
    (ctl_hot s cfg temp_x10, res)

/-! ## `ctl_manual` -/

/-- `ctl_manual`: `none` is the refused stop (`return false`, nothing written). -/
def ctl_manual (s : CtlState) (manual : CtlManual) (duration_s : UInt32) (now_s : Int) :
    Option CtlState :=
  if manual = .stop ∧ s.overheat then none
  else some { s with
    manual
    manual_until_s := if manual = .none then 0 else now_s + duration_s.toNat }

/-! ## `ctl_decide` -/

/-- The override expires, or overheat drops a manual stop. -/
def ctl_end_manual (s : CtlState) (now_s : Int) (res : CtlResult) : CtlState × CtlResult :=
  let (s, res) :=
    if s.manual ≠ .none ∧ now_s ≥ s.manual_until_s then
      ({ s with manual := .none }, { res with manual_expired := true })
    else (s, res)
  -- an override that has just expired is gone, and cannot be cancelled as well
  if s.manual = .stop ∧ s.overheat then
    ({ s with manual := .none }, { res with manual_cancelled := true })
  else (s, res)

/-- `if (s->on) s->last_on_s = now_s`: a running pump is not idle. -/
def ctl_seen_on (s : CtlState) (now_s : Int) : CtlState :=
  if s.on then { s with last_on_s := now_s } else s

/-- The guard of a new maintenance run. -/
def ctl_maintenance_due (s : CtlState) (cfg : CtlConfig) (now_s : Int) : Bool :=
  !s.maintenance && !s.on && s.manual = .none && !s.sensor_failed && s.have_temp
    && s.temp_x10.toInt < cfg.stop_x10.toInt
    && now_s - s.last_on_s ≥ (cfg.maintenance_interval_s.toNat : Int)

/-- A maintenance run ends, or a new one starts. -/
def ctl_maintenance (s : CtlState) (cfg : CtlConfig) (now_s : Int) (res : CtlResult) :
    CtlState × CtlResult :=
  let s := ctl_seen_on s now_s
  -- a run that ends here no longer stands in the way of a new one
  let s := if s.maintenance ∧ now_s ≥ s.maintenance_until_s then
      { s with maintenance := false } else s
  if ctl_maintenance_due s cfg now_s then
    ({ s with
        maintenance := true
        maintenance_until_s := now_s + cfg.maintenance_run_s.toNat },
      { res with maintenance_started := true })
  else (s, res)

/-- The cascade of rules: the new pump state and the rule that won. -/
def ctl_rule (s : CtlState) : Bool × CtlReason :=
  if s.overheat then (true, .overheat)
  else if s.manual = .start then (true, .manual_on)
  else if s.manual = .stop then (false, .manual_off)
  else if s.sensor_failed then (true, .sensor_fail)
  else if s.hot then (true, .auto_hot)
  else if s.maintenance then (true, .maintenance)
  else (false, .auto_cold)

/-- The pump state and the reason are written back. -/
def ctl_switch (s : CtlState) (on : Bool) (reason : CtlReason) (now_s : Int) (res : CtlResult) :
    CtlState × CtlResult :=
  let res := { res with prev_reason := s.reason }
  -- `changed_s` moves when the pump switches, the reason in every decision
  let (s, res) :=
    if on ≠ s.on then ({ s with on, changed_s := now_s }, { res with changed := true })
    else (s, res)
  let s := if on then { s with last_on_s := now_s } else s
  ({ s with reason }, res)

/-- `ctl_decide`. -/
def ctl_decide (s : CtlState) (cfg : CtlConfig) (now_s : Int) (res : CtlResult) :
    CtlState × CtlResult :=
  let (s, res) := ctl_end_manual s now_s res
  let (s, res) := ctl_maintenance s cfg now_s res
  let (on, reason) := ctl_rule s
  ctl_switch s on reason now_s res

/-! ## What a sensor read does, field by field -/

/-- The overheat flag after a valid reading. -/
def overheat_next (cfg : CtlConfig) (temp_x10 : Int16) (overheat : Bool) : Bool :=
  cfg.critical_x10.toInt ≤ temp_x10.toInt ||
    overheat && !decide (temp_x10.toInt < cfg.critical_x10.toInt - OVERHEAT_CLEAR_X10)

/-- The hysteresis memory after a valid reading. -/
def hot_next (cfg : CtlConfig) (temp_x10 : Int16) (hot : Bool) : Bool :=
  cfg.start_x10.toInt < temp_x10.toInt || hot && !decide (temp_x10.toInt < cfg.stop_x10.toInt)

theorem overheat_next_iff (cfg : CtlConfig) (t : Int16) (overheat : Bool) :
    overheat_next cfg t overheat = true ↔ cfg.critical_x10.toInt ≤ t.toInt ∨
      overheat = true ∧ ¬ t.toInt < cfg.critical_x10.toInt - OVERHEAT_CLEAR_X10 := by
  simp [overheat_next]

theorem hot_next_iff (cfg : CtlConfig) (t : Int16) (hot : Bool) :
    hot_next cfg t hot = true ↔ cfg.start_x10.toInt < t.toInt ∨
      hot = true ∧ ¬ t.toInt < cfg.stop_x10.toInt := by
  simp [hot_next]

theorem ctl_bad_read_eq (s : CtlState) (cfg : CtlConfig) (res : CtlResult) :
    ctl_bad_read s cfg res =
      ({ s with
          failures := bump_failures s.failures
          sensor_failed :=
            s.sensor_failed || decide (bump_failures s.failures ≥ cfg.sensor_fail_reads) },
        { res with sensor_failed := res.sensor_failed ||
            !s.sensor_failed && decide (bump_failures s.failures ≥ cfg.sensor_fail_reads) }) := by
  unfold ctl_bad_read
  rcases s with ⟨⟩
  rcases res with ⟨⟩
  dsimp only
  split
  · simp_all
  · simp only [Prod.mk.injEq, CtlState.mk.injEq, CtlResult.mk.injEq, true_and, and_true]
    grind

theorem ctl_overheat_eq (s : CtlState) (cfg : CtlConfig) (t : Int16) (res : CtlResult) :
    ctl_overheat s cfg t res =
      ({ s with overheat := overheat_next cfg t s.overheat },
        { res with
          overheat_started := res.overheat_started ||
            !s.overheat && decide (t.toInt ≥ cfg.critical_x10.toInt)
          overheat_ended := res.overheat_ended ||
            s.overheat && decide (t.toInt < cfg.critical_x10.toInt - OVERHEAT_CLEAR_X10) }) := by
  unfold ctl_overheat overheat_next OVERHEAT_CLEAR_X10
  rcases s with ⟨⟩
  rcases res with ⟨⟩
  dsimp only
  split
  · -- the overheat starts
    simp_all
  · split
    · -- it ends, and the reading is nowhere near critical
      simp_all; omega
    · simp only [Prod.mk.injEq, CtlState.mk.injEq, CtlResult.mk.injEq, true_and, and_true]
      grind

theorem ctl_hot_eq (s : CtlState) (cfg : CtlConfig) (t : Int16) :
    ctl_hot s cfg t = { s with hot := hot_next cfg t s.hot } := by
  unfold ctl_hot hot_next
  cases s with
  | mk =>
    dsimp only
    split
    · simp_all
    · split
      · simp_all
      · simp only [CtlState.mk.injEq, true_and, and_true]
        grind

/-- A failed read touches the failure counter and the fail-safe, nothing else. -/
theorem ctl_sensor_bad (s : CtlState) (cfg : CtlConfig) (now_s : Int) (t : Int16)
    (res : CtlResult) : ctl_sensor s cfg now_s false t res =
      ({ s with
          failures := bump_failures s.failures
          sensor_failed :=
            s.sensor_failed || decide (bump_failures s.failures ≥ cfg.sensor_fail_reads) },
        { res with sensor_failed := res.sensor_failed ||
            !s.sensor_failed && decide (bump_failures s.failures ≥ cfg.sensor_fail_reads) }) :=
  ctl_bad_read_eq s cfg res

/-- A valid read stores the reading, ends an outage and moves the two latches. -/
theorem ctl_sensor_good (s : CtlState) (cfg : CtlConfig) (now_s : Int) (t : Int16)
    (res : CtlResult) : ctl_sensor s cfg now_s true t res =
      ({ s with
          sensor_failed := false
          failures := 0
          have_temp := true
          temp_x10 := t
          temp_s := now_s
          overheat := overheat_next cfg t s.overheat
          hot := hot_next cfg t s.hot },
        { res with
          sensor_recovered := res.sensor_recovered || s.sensor_failed
          overheat_started := res.overheat_started ||
            !s.overheat && decide (t.toInt ≥ cfg.critical_x10.toInt)
          overheat_ended := res.overheat_ended ||
            s.overheat && decide (t.toInt < cfg.critical_x10.toInt - OVERHEAT_CLEAR_X10) }) := by
  simp only [ctl_sensor, Bool.not_true, Bool.false_eq_true, if_false, ctl_overheat_eq, ctl_hot_eq]
  cases s.sensor_failed <;> simp

/-! ## What a decision does, field by field -/

/-- The override has run out. -/
def manual_expires (s : CtlState) (now_s : Int) : Bool :=
  s.manual ≠ .none && now_s ≥ s.manual_until_s

/-- A manual stop still running is dropped by the overheat. -/
def manual_cancels (s : CtlState) (now_s : Int) : Bool :=
  !manual_expires s now_s && s.manual = .stop && s.overheat

/-- The override left after the two. -/
def manual_next (s : CtlState) (now_s : Int) : CtlManual :=
  if manual_expires s now_s || manual_cancels s now_s then .none else s.manual

/-- The maintenance run is still within its time. -/
def maintenance_kept (s : CtlState) (now_s : Int) : Bool :=
  s.maintenance && !decide (now_s ≥ s.maintenance_until_s)

/-- The decision starts a maintenance run. -/
def maintenance_starts (s : CtlState) (cfg : CtlConfig) (now_s : Int) : Bool :=
  ctl_maintenance_due
    { s with manual := manual_next s now_s, maintenance := maintenance_kept s now_s } cfg now_s

/-- The flags as `ctl_rule` finds them. -/
def flags_next (s : CtlState) (cfg : CtlConfig) (now_s : Int) : CtlState :=
  { s with
    manual := manual_next s now_s
    maintenance := maintenance_kept s now_s || maintenance_starts s cfg now_s
    maintenance_until_s :=
      if maintenance_starts s cfg now_s then now_s + cfg.maintenance_run_s.toNat
      else s.maintenance_until_s }

theorem manual_expires_iff (s : CtlState) (now_s : Int) :
    manual_expires s now_s = true ↔ s.manual ≠ .none ∧ s.manual_until_s ≤ now_s := by
  simp [manual_expires]

theorem manual_cancels_iff (s : CtlState) (now_s : Int) :
    manual_cancels s now_s = true ↔
      ¬ manual_expires s now_s = true ∧ s.manual = .stop ∧ s.overheat = true := by
  simp [manual_cancels, and_assoc]

/-- An override that neither runs out nor is dropped stays. -/
theorem manual_next_kept {s : CtlState} {now_s : Int} (hexpires : manual_expires s now_s = false)
    (hcancels : manual_cancels s now_s = false) : manual_next s now_s = s.manual := by
  simp [manual_next, hexpires, hcancels]

/-- All that the start of a maintenance run asks of the state before. -/
theorem maintenance_starts_iff (s : CtlState) (cfg : CtlConfig) (now_s : Int) :
    maintenance_starts s cfg now_s = true ↔
      maintenance_kept s now_s = false ∧ s.on = false ∧ manual_next s now_s = .none ∧
        s.sensor_failed = false ∧ s.have_temp = true ∧
        s.temp_x10.toInt < cfg.stop_x10.toInt ∧
        (cfg.maintenance_interval_s.toNat : Int) ≤ now_s - s.last_on_s := by
  simp [maintenance_starts, ctl_maintenance_due, and_assoc]

theorem ctl_end_manual_eq (s : CtlState) (now_s : Int) (res : CtlResult) :
    ctl_end_manual s now_s res =
      ({ s with manual := manual_next s now_s },
        { res with
          manual_expired := res.manual_expired || manual_expires s now_s
          manual_cancelled := res.manual_cancelled || manual_cancels s now_s }) := by
  unfold ctl_end_manual manual_next manual_cancels manual_expires
  rcases s with ⟨⟩
  rcases res with ⟨⟩
  dsimp only
  split
  · -- expired
    simp_all
  · rename_i hrun
    split
    · -- still running, and dropped by the overheat
      rename_i hstop
      obtain ⟨rfl, rfl⟩ := hstop
      simp only [ne_eq, reduceCtorEq, not_false_eq_true, true_and] at hrun
      simp [hrun]
    · simp only [Prod.mk.injEq, CtlState.mk.injEq, CtlResult.mk.injEq, true_and, and_true]
      grind

/-- Only a pump that is off can start a maintenance run. -/
theorem ctl_maintenance_due_on {s : CtlState} (h : s.on = true) (cfg : CtlConfig) (now_s : Int) :
    ctl_maintenance_due s cfg now_s = false := by
  simp [ctl_maintenance_due, h]

theorem ctl_maintenance_eq (s : CtlState) (cfg : CtlConfig) (now_s : Int) (res : CtlResult) :
    ctl_maintenance s cfg now_s res =
      let due := ctl_maintenance_due { s with maintenance := maintenance_kept s now_s } cfg now_s
      ({ s with
          last_on_s := if s.on then now_s else s.last_on_s
          maintenance := maintenance_kept s now_s || due
          maintenance_until_s :=
            if due then now_s + cfg.maintenance_run_s.toNat else s.maintenance_until_s },
        { res with maintenance_started := res.maintenance_started || due }) := by
  have hkept : (if (ctl_seen_on s now_s).maintenance ∧
        now_s ≥ (ctl_seen_on s now_s).maintenance_until_s then
      { ctl_seen_on s now_s with maintenance := false } else ctl_seen_on s now_s) =
      { s with
        last_on_s := if s.on then now_s else s.last_on_s
        maintenance := maintenance_kept s now_s } := by
    unfold ctl_seen_on maintenance_kept
    cases s with
    | mk => dsimp only; split <;> split <;> simp_all
  -- the idle clock just written matters only for a pump that is on, where no run starts
  have hdue : ctl_maintenance_due { s with
        last_on_s := if s.on then now_s else s.last_on_s
        maintenance := maintenance_kept s now_s } cfg now_s =
      ctl_maintenance_due { s with maintenance := maintenance_kept s now_s } cfg now_s := by
    cases h : s.on
    · simp [ctl_maintenance_due]
    · rw [ctl_maintenance_due_on rfl, ctl_maintenance_due_on rfl]
  simp only [ctl_maintenance, hkept, hdue]
  split <;> simp_all

theorem ctl_switch_eq (s : CtlState) (on : Bool) (reason : CtlReason) (now_s : Int)
    (res : CtlResult) : ctl_switch s on reason now_s res =
      ({ s with
          on
          reason
          changed_s := if on = s.on then s.changed_s else now_s
          last_on_s := if on then now_s else s.last_on_s },
        { res with
          changed := res.changed || on != s.on
          prev_reason := s.reason }) := by
  unfold ctl_switch
  cases s with
  | mk =>
    dsimp only
    split <;> split <;> simp_all

/-- One decision, every field at once. -/
theorem ctl_decide_eq (s : CtlState) (cfg : CtlConfig) (now_s : Int) (res : CtlResult) :
    ctl_decide s cfg now_s res =
      let f := flags_next s cfg now_s
      ({ f with
          on := (ctl_rule f).1
          reason := (ctl_rule f).2
          changed_s := if (ctl_rule f).1 = s.on then s.changed_s else now_s
          last_on_s := if (ctl_rule f).1 || s.on then now_s else s.last_on_s },
        { res with
          changed := res.changed || (ctl_rule f).1 != s.on
          prev_reason := s.reason
          manual_expired := res.manual_expired || manual_expires s now_s
          manual_cancelled := res.manual_cancelled || manual_cancels s now_s
          maintenance_started := res.maintenance_started || maintenance_starts s cfg now_s }) := by
  have hflags : ctl_maintenance (ctl_end_manual s now_s res).1 cfg now_s
        (ctl_end_manual s now_s res).2 =
      ({ flags_next s cfg now_s with last_on_s := if s.on then now_s else s.last_on_s },
        { res with
          manual_expired := res.manual_expired || manual_expires s now_s
          manual_cancelled := res.manual_cancelled || manual_cancels s now_s
          maintenance_started := res.maintenance_started || maintenance_starts s cfg now_s }) := by
    rw [ctl_end_manual_eq, ctl_maintenance_eq]
    rfl
  -- `ctl_rule` does not look at the idle clock that `ctl_maintenance` has written
  have hrule : ∀ (u : CtlState) (t : Int), ctl_rule { u with last_on_s := t } = ctl_rule u :=
    fun _ _ => rfl
  have hon : (flags_next s cfg now_s).on = s.on := rfl
  simp only [ctl_decide]
  rw [hflags, ctl_switch_eq, hrule]
  dsimp only
  rw [hon]
  cases (ctl_rule (flags_next s cfg now_s)).1 <;> cases s.on <;> rfl

end FloorHeating
