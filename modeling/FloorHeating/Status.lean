import FloorHeating.Api
import FloorHeating.ClockOrder
import FloorHeating.EventLog
import FloorHeating.HistoryDocument
import FloorHeating.Persistence
import FloorHeating.SensorFailSafe

/-! # The status and events documents

    `control_status` copies the state under `s_lock` and reads the clock
    after it; `status_json` makes a document of the copy, of the settings it
    reads later still, and of the wall clock.  Whatever goes on in between,
    the document is the picture of one moment between two critical sections,
    and its fields agree with each other.

    Source: `control_status`, `control_alive` (`control.c`),
    `ctl_reason_name` (`control_logic.c`), `celsius`, `manual_name`,
    `status_json`, `events_handler` (`api.c`).  `hi_httpd_add_system_status`
    is not part of this repository. -/

namespace FloorHeating

open LTS

/-! ## `control_status` -/

/-- `control_status_t`. -/
structure ControlStatus where
  state : CtlState
  now_mono_s : Int
  heartbeat_mono_s : Int
  runtime_today_s : UInt32
  starts_today : UInt32
  runtime_boot_s : UInt32
  starts_boot : UInt32
  deriving DecidableEq, Repr

/-- `control_status`, with the clock as it is read after the release. -/
def control_status (d : Device) (now_mono_s : Int) : ControlStatus where
  state := d.s_state
  now_mono_s
  heartbeat_mono_s := d.s_heartbeat_s
  runtime_today_s := d.s_runtime_today_s
  starts_today := d.s_starts_today
  runtime_boot_s := d.s_runtime_boot_s
  starts_boot := d.s_starts_boot

/-- `control_alive` on its copy. -/
def control_alive (c : ControlStatus) : Bool :=
  c.now_mono_s - c.heartbeat_mono_s ≤ 3 * CONTROL_READ_PERIOD_S

/-! ## Names -/

/-- `ctl_reason_name`. -/
def ctl_reason_name : CtlReason → CStr
  | .auto_cold => "auto_cold".toList
  | .auto_hot => "auto_hot".toList
  | .manual_on => "manual_on".toList
  | .manual_off => "manual_off".toList
  | .maintenance => "maintenance".toList
  | .sensor_fail => "sensor_fail".toList
  | .overheat => "overheat".toList

/-- `manual_name`. -/
def manual_name : CtlManual → CStr
  | .start => "start".toList
  | .stop => "stop".toList
  | .none => "none".toList

/-- `TYPES[e->type]` of `events_handler`. -/
def event_type_name : EventType → CStr
  | .pump => "pump".toList
  | .overheat => "overheat".toList
  | .sensor => "sensor".toList
  | .manual_end => "manual_end".toList

theorem ctl_reason_name_inj {r r' : CtlReason} : ctl_reason_name r = ctl_reason_name r' ↔ r = r' := by
  cases r <;> cases r' <;> decide

theorem manual_name_inj {m m' : CtlManual} : manual_name m = manual_name m' ↔ m = m' := by
  cases m <;> cases m' <;> decide

/-- `celsius`. -/
def celsius (x10 : Int16) : ℚ := x10.toInt / 10

/-! ## `status_json` -/

/-- The `"pump"` object. -/
structure PumpStatus where
  on : Bool
  reason : CStr
  since : Int
  state_s : Int
  manual : CStr
  manual_left_s : Int
  maintenance : Bool
  idle_s : Int
  control_alive : Bool
  deriving DecidableEq, Repr

/-- The `"temp"` object; `c` is `none` for `null`. -/
structure TempStatus where
  c : Option ℚ
  age_s : Int
  failures : UInt8
  sensor_failed : Bool
  overheat : Bool
  deriving DecidableEq, Repr

/-- The `"today"` and `"since_boot"` objects. -/
structure CounterStatus where
  runtime_s : UInt32
  starts : UInt32
  deriving DecidableEq, Repr

/-- The `"settings"` object. -/
structure SettingsStatus where
  start_c : ℚ
  stop_c : ℚ
  critical_c : ℚ
  start_min_c : ℚ
  start_max_c : ℚ
  stop_min_c : ℚ
  hysteresis_min_c : ℚ
  critical_margin_min_c : ℚ
  critical_max_c : ℚ
  maintenance_interval_s : UInt32
  maintenance_run_s : UInt32
  manual_max_s : UInt32
  deriving DecidableEq, Repr

/-- The document, less its `"system"` object. -/
structure StatusJson where
  pump : PumpStatus
  temp : TempStatus
  today : CounterStatus
  since_boot : CounterStatus
  settings : SettingsStatus
  deriving DecidableEq, Repr

/-- The `"settings"` object of the settings that `settings_get` returned. -/
def settings_status (s : Settings) : SettingsStatus where
  start_c := celsius s.start_x10
  stop_c := celsius s.stop_x10
  critical_c := celsius s.critical_x10
  start_min_c := celsius (Int16.ofInt START_MIN_X10)
  start_max_c := celsius (Int16.ofInt START_MAX_X10)
  stop_min_c := celsius (Int16.ofInt STOP_MIN_X10)
  hysteresis_min_c := celsius (Int16.ofInt HYSTERESIS_MIN_X10)
  critical_margin_min_c := celsius (Int16.ofInt CRITICAL_MARGIN_MIN_X10)
  critical_max_c := celsius (Int16.ofInt CRITICAL_MAX_X10)
  maintenance_interval_s := MAINTENANCE_INTERVAL_S
  maintenance_run_s := MAINTENANCE_RUN_S
  manual_max_s := MANUAL_MAX_S

/-- `status_json`: the copy, the settings, and what `events_unix_time` finds. -/
def status_json (c : ControlStatus) (s : Settings) (clock : HandlerClock) : StatusJson where
  pump := {
    on := c.state.on
    reason := ctl_reason_name c.state.reason
    since := events_unix_time clock c.state.changed_s
    state_s := status_state_s c.state c.now_mono_s
    manual := manual_name c.state.manual
    manual_left_s :=
      if c.state.manual = .none then 0 else c.state.manual_until_s - c.now_mono_s
    maintenance := c.state.maintenance
    idle_s := status_idle_s c.state c.now_mono_s
    control_alive := control_alive c }
  temp := {
    c := if c.state.have_temp then some (celsius c.state.temp_x10) else none
    age_s := if c.state.have_temp then c.now_mono_s - c.state.temp_s else -1
    failures := c.state.failures
    sensor_failed := c.state.sensor_failed
    overheat := c.state.overheat }
  today := ⟨c.runtime_today_s, c.starts_today⟩
  since_boot := ⟨c.runtime_boot_s, c.starts_boot⟩
  settings := settings_status s

/-! ## `events_handler` -/

/-- One object of the `"events"` array. -/
structure EventJson where
  ts : Int
  type : CStr
  on : Bool
  reason : CStr
  prev_reason : CStr
  temp_c : Option ℚ
  detail : CStr
  deriving DecidableEq, Repr

/-- An event as `events_handler` writes it; every event reads the clocks anew. -/
def event_json (e : Event) (clock : HandlerClock) : EventJson where
  ts := events_unix_time clock e.mono_s
  type := event_type_name e.type
  on := e.on
  reason := ctl_reason_name e.reason
  prev_reason := ctl_reason_name e.prev_reason
  temp_c := if e.has_temp then some (celsius e.temp_x10) else none
  detail := e.detail

/-- The `"events"` array, with the clocks as each event finds them. -/
def events_json (log : EventLog) (clocks : Nat → HandlerClock) : List EventJson :=
  (events_recent log EVENTS_RING_SIZE).mapIdx fun i e => event_json e (clocks i)

/-! ## Timestamps of a run of the control logic -/

/-- The call is made by `b`, and what it starts runs no longer than the
    constants of `config.h` allow. -/
def CtlOp.By (b : Int) : CtlOp → Prop
  | .sensor _ now_s _ _ => now_s ≤ b
  | .manual _ duration_s now_s => now_s ≤ b ∧ duration_s.toNat ≤ MANUAL_MAX_S.toNat
  | .decide cfg now_s => now_s ≤ b ∧ cfg.maintenance_run_s = MAINTENANCE_RUN_S

/-- Nothing in the state lies after `b`, and nothing runs longer than it may. -/
structure StateBy (b : Int) (s : CtlState) : Prop where
  changed : s.changed_s ≤ b
  reading : s.have_temp = true → s.temp_s ≤ b
  last_on : s.last_on_s ≤ b
  manual : s.manual ≠ .none → s.manual_until_s ≤ b + MANUAL_MAX_S.toNat
  maintenance : s.maintenance = true → s.maintenance_until_s ≤ b + MAINTENANCE_RUN_S.toNat
  /-- An idle pump was last seen running when it was switched off. -/
  idle : s.on = false → s.last_on_s = s.changed_s

theorem stateBy_init {b boot_s : Int} (h : boot_s ≤ b) : StateBy b (ctl_init boot_s) where
  changed := h
  reading := fun h => absurd h Bool.false_ne_true
  last_on := h
  manual := fun h => absurd rfl h
  maintenance := fun h => absurd h Bool.false_ne_true
  idle := fun _ => rfl

theorem stateBy_sensor {b : Int} {s : CtlState} (h : StateBy b s) (cfg : CtlConfig) {now_s : Int}
    (hnow : now_s ≤ b) (valid : Bool) (t : Int16) :
    StateBy b (ctl_step s (.sensor cfg now_s valid t)) := by
  cases valid with
  | false =>
    rw [ctl_step_bad]
    exact ⟨h.changed, h.reading, h.last_on, h.manual, h.maintenance, h.idle⟩
  | true =>
    rw [ctl_step_good]
    exact ⟨h.changed, fun _ => hnow, h.last_on, h.manual, h.maintenance, h.idle⟩

theorem stateBy_manual {b : Int} {s : CtlState} (h : StateBy b s) (m : CtlManual) {d : UInt32}
    {now_s : Int} (hnow : now_s ≤ b) (hd : d.toNat ≤ MANUAL_MAX_S.toNat) :
    StateBy b (ctl_step s (.manual m d now_s)) := by
  rw [ctl_step_manual]
  split
  · exact h
  · refine ⟨h.changed, h.reading, h.last_on, ?_, h.maintenance, h.idle⟩
    intro hm
    show (if m = .none then 0 else now_s + d.toNat) ≤ _
    rw [if_neg hm]
    omega

theorem stateBy_decide {b : Int} {s : CtlState} (h : StateBy b s) {cfg : CtlConfig} {now_s : Int}
    (hnow : now_s ≤ b) (hrun : cfg.maintenance_run_s = MAINTENANCE_RUN_S) :
    StateBy b (ctl_step s (.decide cfg now_s)) := by
  rw [ctl_step_decide]
  refine ⟨?_, h.reading, ?_, ?_, ?_, ?_⟩
  · dsimp only
    split
    · exact h.changed
    · exact hnow
  · dsimp only
    split
    · exact hnow
    · exact h.last_on
  · -- a decision ends overrides, it starts none
    intro hm
    have hkept : s.manual ≠ .none := by
      intro hnone
      have : manual_next s now_s = .none := by simp [manual_next, hnone]
      exact hm this
    exact h.manual hkept
  · intro hm
    show (if maintenance_starts s cfg now_s then now_s + cfg.maintenance_run_s.toNat
      else s.maintenance_until_s) ≤ _
    split
    · rw [hrun]
      omega
    · -- it was running before
      rename_i hnot
      have hkept : maintenance_kept s now_s = true := by
        have hm' : (maintenance_kept s now_s || maintenance_starts s cfg now_s) = true := hm
        simpa [hnot] using hm'
      refine h.maintenance ?_
      simp only [maintenance_kept, Bool.and_eq_true] at hkept
      exact hkept.1
  · -- switched off in this decision, or idle for longer
    intro hoff
    have hoff' : (ctl_rule (flags_next s cfg now_s)).1 = false := hoff
    dsimp only
    rw [hoff', Bool.false_or]
    cases hon : s.on with
    | false => simpa using h.idle hon
    | true => simp

/-- A call made by `b` leaves nothing after `b`. -/
theorem stateBy_step {b : Int} {s : CtlState} (h : StateBy b s) {op : CtlOp} (hop : op.By b) :
    StateBy b (ctl_step s op) := by
  cases op with
  | sensor cfg now_s valid t => exact stateBy_sensor h cfg hop valid t
  | manual m d now_s => exact stateBy_manual h m hop.1 hop.2
  | decide cfg now_s => exact stateBy_decide h hop.1 hop.2

theorem stateBy_run {b boot_s : Int} (hboot : boot_s ≤ b) {ops : List CtlOp}
    (hops : ∀ op ∈ ops, op.By b) : StateBy b (ctl_run boot_s ops) := by
  induction ops using List.reverseRecOn with
  | nil => exact stateBy_init hboot
  | append_singleton ops op ih =>
    rw [ctl_run_concat]
    exact stateBy_step (ih fun op' h => hops op' (by simp [h])) (hops op (by simp))

/-! ## Timestamps of a run of the firmware -/

/-- The timestamp the control task carries. -/
def TaskPc.time : TaskPc → Option Int
  | .ready now_s _ | .locked now_s _ | .sensed now_s _ _ => some now_s
  | .decided it | .relayed it | .released it _ => some it.now_s
  | .top | .reading => none

/-- The timestamp a caller carries. -/
def CallerPc.time : CallerPc → Option Int
  | .manual_accepted _ now_s | .manual_refused _ now_s => some now_s
  | .manual_decided cmd => some cmd.now_s
  | _ => none

/-- The timestamp of a section. -/
def Section.now_s : Section → Int
  | .iteration it => it.now_s
  | .command c => c.now_s
  | .refused _ now_s => now_s

/-- No timestamp is ahead of the clock. -/
structure TimesInv (acts : List Label) (s : Firmware) : Prop where
  task : ∀ t, s.task.time = some t → t ≤ s.mono_s
  caller : ∀ c t, (s.callers c).time = some t → t ≤ s.mono_s
  secs : ∀ sec ∈ sections_of acts, sec.now_s ≤ s.mono_s
  events : ∀ e ∈ s.dev.events.notified, e.mono_s ≤ s.mono_s

/-- What a step leaves of the timestamps: those it finds, or the time of now. -/
structure TimesStep (s : Firmware) (a : Label) (s' : Firmware) : Prop where
  clock : s.mono_s ≤ s'.mono_s
  task : ∀ t, s'.task.time = some t → s.task.time = some t ∨ t = s.mono_s
  caller : ∀ c t, (s'.callers c).time = some t → (s.callers c).time = some t ∨ t = s.mono_s
  released : ∀ sec, a.released = some sec →
    s.task.time = some sec.now_s ∨ ∃ c, (s.callers c).time = some sec.now_s
  events : ∀ e ∈ step_events s a,
    s.task.time = some e.mono_s ∨ ∃ c, (s.callers c).time = some e.mono_s

theorem TaskStep.times {s s' : Firmware} {act : TaskAct} (h : TaskStep s act s') :
    TimesStep s (.task act) s' := by
  have hcallers := h.callers
  have hcaller : ∀ c t, (s'.callers c).time = some t →
      (s.callers c).time = some t ∨ t = s.mono_s := by
    intro c t ht
    rw [hcallers] at ht
    exact Or.inl ht
  cases h with
  | start pc =>
    refine ⟨?_, ?_, hcaller, by simp [Label.released], by simp [step_events]⟩
    · unfold Firmware.task_start
      split <;> exact le_rfl
    · intro t ht
      unfold Firmware.task_start at ht
      split at ht
      · simp [TaskPc.time] at ht
      · exact Or.inr (Option.some.inj ht).symm
  | sample smp pc =>
    refine ⟨le_rfl, ?_, hcaller, by simp [Label.released], by simp [step_events]⟩
    exact fun t ht => Or.inr (Option.some.inj ht).symm
  | lock now_s smp pc _ | sensor now_s smp pc =>
    refine ⟨le_rfl, ?_, hcaller, by simp [Label.released], by simp [step_events]⟩
    exact fun t ht => Or.inl (by rw [pc]; exact ht)
  | decide now_s rd r wall pc =>
    refine ⟨le_rfl, fun t ht => Or.inl (by rw [pc]; exact ht), hcaller, by simp [Label.released], ?_⟩
    intro e he
    simp only [step_events, pc] at he
    have hmono := decide_events_mono _ _ _ _ e he
    exact Or.inl (by rw [pc, hmono]; rfl)
  | relay it pc =>
    refine ⟨le_rfl, ?_, hcaller, by simp [Label.released], by simp [step_events]⟩
    exact fun t ht => Or.inl (by rw [pc]; exact ht)
  | unlock it pc =>
    refine ⟨le_rfl, fun t ht => Or.inl (by rw [pc]; exact ht), hcaller, ?_, by simp [step_events]⟩
    intro sec hsec
    obtain rfl : Section.iteration it = sec := by simpa [Label.released] using hsec
    exact Or.inl (by rw [pc]; rfl)
  | history it on pc =>
    refine ⟨?_, ?_, hcaller, by simp [Label.released], by simp [step_events]⟩
    · unfold Firmware.task_history
      split
      · split <;> exact le_rfl
      · exact le_rfl
    · intro t ht
      unfold Firmware.task_history at ht
      split at ht
      · split at ht <;> simp [TaskPc.time] at ht
      · simp [TaskPc.time] at ht

/-- A caller goes on with the timestamp it has, with the time of now, or with
    none. -/
theorem caller_times {s s' : Firmware} {c : Nat} {pc : CallerPc}
    (hpc : ∀ t, pc.time = some t → (s.callers c).time = some t ∨ t = s.mono_s)
    (hcallers : s'.callers = s.callers := by rfl) :
    ∀ c' t, ((s'.set_caller c pc).callers c').time = some t →
      (s.callers c').time = some t ∨ t = s.mono_s := by
  intro c' t ht
  by_cases hc : c' = c
  · rw [hc, set_caller_same] at ht
    rw [hc]
    exact hpc t ht
  · rw [set_caller_other s' hc, hcallers] at ht
    exact Or.inl ht

theorem ManualStep.times {s s' : Firmware} {c : Nat} {act : ManualAct}
    (h : ManualStep s c act s') : TimesStep s (.manual c act) s' := by
  have htask : ∀ t, s.task.time = some t → s.task.time = some t ∨ t = s.mono_s :=
    fun t ht => Or.inl ht
  cases h with
  | call q pc | lock q pc _ | leave _ pc =>
    exact ⟨le_rfl, htask, caller_times (by simp [CallerPc.time]), by simp [Label.released],
      by simp [step_events]⟩
  | accept q st pc _ | reject q pc _ =>
    refine ⟨le_rfl, htask, caller_times ?_, by simp [Label.released], by simp [step_events]⟩
    exact fun t ht => Or.inr (Option.some.inj ht).symm
  | decide q now_s wall pc =>
    refine ⟨le_rfl, htask, caller_times ?_, by simp [Label.released], ?_⟩
    · exact fun t ht => Or.inl (by rw [pc]; exact ht)
    · intro e he
      simp only [step_events, pc] at he
      have hmono := decide_events_mono _ _ _ _ e he
      exact Or.inr ⟨c, by rw [pc, hmono]; rfl⟩
  | unlock cmd pc =>
    refine ⟨le_rfl, htask, caller_times (by simp [CallerPc.time]), ?_, by simp [step_events]⟩
    intro sec hsec
    obtain rfl : Section.command cmd = sec := by simpa [Label.released] using hsec
    exact Or.inr ⟨c, by rw [pc]; rfl⟩
  | refuse q now_s pc =>
    refine ⟨le_rfl, htask, caller_times (by simp [CallerPc.time]), ?_, by simp [step_events]⟩
    intro sec hsec
    obtain rfl : Section.refused q now_s = sec := by simpa [Label.released] using hsec
    exact Or.inr ⟨c, by rw [pc]; rfl⟩

theorem SetStep.times {s s' : Firmware} {c : Nat} {act : SetAct} (h : SetStep s c act s') :
    TimesStep s (.settings c act) s' := by
  have htask : ∀ t, s.task.time = some t → s.task.time = some t ∨ t = s.mono_s :=
    fun t ht => Or.inl ht
  cases h with
  | call _ _ | lock _ _ _ | apply _ _ | nvs_commit _ _ _ _ | unlock _ _ _ | leave _ _ _ =>
    exact ⟨le_rfl, htask, caller_times (by simp [CallerPc.time]), by simp [Label.released],
      by simp [step_events]⟩
  | nvs_open _ ok _ | nvs_set_blob _ ok _ _ =>
    exact ⟨le_rfl, htask, caller_times (by cases ok <;> simp [CallerPc.time]),
      by simp [Label.released], by simp [step_events]⟩

theorem step_times {s s' : Firmware} {a : Label} (h : step s a = some s') : TimesStep s a s' := by
  cases a with
  | tick us =>
    obtain rfl := Option.some.inj h
    refine ⟨?_, fun t ht => Or.inl ht, fun c t ht => Or.inl ht, by simp [Label.released],
      by simp [step_events]⟩
    show ((s.clock_us / 1000000 : Nat) : Int) ≤ ((s.clock_us + us) / 1000000 : Nat)
    omega
  | disturb _ =>
    obtain rfl := Option.some.inj h
    exact ⟨le_rfl, fun t ht => Or.inl ht, fun c t ht => Or.inl ht, by simp [Label.released],
      by simp [step_events]⟩
  | task act => exact (task_step_inv h).times
  | manual c act => exact (manual_step_inv h).times
  | settings c act => exact (settings_step_inv h).times

theorem TimesInv.step {acts : List Label} {s s' : Firmware} {a : Label} (hs : TimesInv acts s)
    (h : step s a = some s') : TimesInv (acts ++ [a]) s' := by
  have ht := step_times h
  have hcarried : ∀ t, (s.task.time = some t ∨ ∃ c, (s.callers c).time = some t) →
      t ≤ s'.mono_s := by
    rintro t (htask | ⟨c, hcaller⟩)
    · exact le_trans (hs.task t htask) ht.clock
    · exact le_trans (hs.caller c t hcaller) ht.clock
  refine ⟨?_, ?_, ?_, ?_⟩
  · intro t h'
    rcases ht.task t h' with hold | rfl
    · exact le_trans (hs.task t hold) ht.clock
    · exact ht.clock
  · intro c t h'
    rcases ht.caller c t h' with hold | rfl
    · exact le_trans (hs.caller c t hold) ht.clock
    · exact ht.clock
  · intro sec hsec
    rw [sections_of, List.filterMap_append, List.mem_append] at hsec
    rcases hsec with hsec | hsec
    · exact le_trans (hs.secs sec hsec) ht.clock
    · have hlast : a.released = some sec := by simpa using hsec
      exact hcarried _ (ht.released sec hlast)
  · intro e he
    rw [step_notified h, List.mem_append] at he
    rcases he with he | he
    · exact le_trans (hs.events e he) ht.clock
    · exact hcarried _ (ht.events e he)

theorem firmware_times {nvs : NvsBlob} {clock_us : Nat} {acts : List Label} {s : Firmware}
    (h : firmware.exec (boot nvs clock_us) acts = some s) :
    TimesInv acts s ∧ (boot nvs clock_us).mono_s ≤ s.mono_s := by
  refine history_invariant (P := fun acts s =>
    TimesInv acts s ∧ (boot nvs clock_us).mono_s ≤ s.mono_s) ⟨?_, le_rfl⟩ ?_ h
  · refine ⟨?_, ?_, ?_, ?_⟩ <;>
      simp [boot, TaskPc.time, CallerPc.time, sections_of, control_start, events_init]
  · intro past s a s' _ hs hstep
    exact ⟨hs.1.step hstep, le_trans hs.2 (step_times hstep).clock⟩

/-! ## What the sections leave -/

theorem ops_by {secs : List Section} {b : Int} (h : ∀ sec ∈ secs, sec.now_s ≤ b) :
    ∀ op ∈ ops_of secs, op.By b := by
  intro op hop
  obtain ⟨sec, hsec, hop⟩ := List.mem_flatMap.mp hop
  have hnow := h sec hsec
  cases sec with
  | iteration it =>
    rcases List.mem_append.mp hop with hread | hdecide
    · unfold Iteration.read_ops at hread
      split at hread
      · simp at hread
      · obtain rfl := List.mem_singleton.mp hread
        exact hnow
    · obtain rfl := List.mem_singleton.mp hdecide
      exact ⟨hnow, rfl⟩
  | command c =>
    rcases List.mem_cons.mp hop with rfl | hdecide
    · refine ⟨hnow, ?_⟩
      have hmax : MANUAL_MAX_S.toNat = 43200 := rfl
      rw [clamped_s_toNat, hmax]
      omega
    · obtain rfl := List.mem_singleton.mp hdecide
      exact ⟨hnow, rfl⟩
  | refused q now_s => simp [Section.ops] at hop

theorem ops_fail_reads (secs : List Section) : FailReads SENSOR_FAIL_READS (ops_of secs) := by
  intro cfg now_s valid t hop
  obtain ⟨sec, -, hop⟩ := List.mem_flatMap.mp hop
  cases sec with
  | iteration it =>
    rcases List.mem_append.mp hop with hread | hdecide
    · unfold Iteration.read_ops at hread
      split at hread
      · simp at hread
      · obtain ⟨rfl, -⟩ := CtlOp.sensor.inj (List.mem_singleton.mp hread)
        rfl
    · simp at hdecide
  | command c => simp [Section.ops] at hop
  | refused q now_s => simp [Section.ops] at hop

/-- What only a reading can raise. -/
structure FromReading (s : CtlState) : Prop where
  overheat : s.overheat = true → s.have_temp = true
  hot : s.hot = true → s.have_temp = true
  maintenance : s.maintenance = true → s.have_temp = true

theorem fromReading_step {s : CtlState} (h : FromReading s) (op : CtlOp) :
    FromReading (ctl_step s op) := by
  cases op with
  | sensor cfg now_s valid t =>
    cases valid with
    | false =>
      rw [ctl_step_bad]
      exact ⟨h.overheat, h.hot, h.maintenance⟩
    | true =>
      rw [ctl_step_good]
      exact ⟨fun _ => rfl, fun _ => rfl, fun _ => rfl⟩
  | manual m d now_s =>
    obtain ⟨m', u, hstep⟩ := ctl_step_manual_frame s m d now_s
    rw [hstep]
    exact ⟨h.overheat, h.hot, h.maintenance⟩
  | decide cfg now_s =>
    rw [ctl_step_decide]
    refine ⟨h.overheat, h.hot, ?_⟩
    intro hm
    -- kept from before, or started, which asks for a reading
    have hm' : maintenance_kept s now_s = true ∨ maintenance_starts s cfg now_s = true := by
      simpa [flags_next] using hm
    rcases hm' with hkept | hstarts
    · simp only [maintenance_kept, Bool.and_eq_true] at hkept
      exact h.maintenance hkept.1
    · exact ((maintenance_starts_iff s cfg now_s).mp hstarts).2.2.2.2.1

theorem fromReading_run (boot_s : Int) (ops : List CtlOp) : FromReading (ctl_run boot_s ops) := by
  induction ops using List.reverseRecOn with
  | nil => exact ⟨by simp [ctl_init], by simp [ctl_init], by simp [ctl_init]⟩
  | append_singleton ops op ih =>
    rw [ctl_run_concat]
    exact fromReading_step ih op

/-- The timestamps of the loop's completed iterations. -/
def iteration_times (secs : List Section) : List Int :=
  secs.filterMap fun
    | .iteration it => some it.now_s
    | _ => none

/-- The heartbeat is the timestamp of the last completed iteration: no command
    moves it. -/
theorem sections_heartbeat {secs : List Section} {d : Device} (h : Run sections secs d) :
    d.s_heartbeat_s = (iteration_times secs).getLast?.getD 0 := by
  induction h with
  | init hinit =>
    obtain ⟨now_s, rfl⟩ := hinit
    rfl
  | @snoc secs d sec d' _ hstep ih =>
    rw [iteration_times, List.filterMap_append, ← iteration_times]
    cases (section_step_inv hstep).2 with
    | iteration it => simp [control_iteration_eq]
    | command c st _ =>
      have hsame : ∀ d : Device, (decide_locked d c.settings c.wall c.now_s {}
          (some c.request.detail)).1.s_heartbeat_s = d.s_heartbeat_s := by
        intro d
        simp [decide_locked_eq, count_start_eq, count_runtime_locked_eq]
      rw [hsame]
      simpa using ih
    | refused q now_s _ => simpa using ih

/-! ## The picture of one moment -/

/-- Everything a copy of the device says is true of one moment, `now_s`. -/
structure Pictured (d : Device) (now_s : Int) : Prop where
  settled : Settled d.s_state
  times : StateBy now_s d.s_state
  reading : FromReading d.s_state
  failed : d.s_state.sensor_failed = true ↔ 3 ≤ d.s_state.failures.toNat

/-- Whenever `s_lock` is free, from that moment on. -/
theorem firmware_pictured {acts : List Label} {s : Firmware} (h : Run firmware acts s)
    (hfree : s.s_lock = none) {now_s : Int} (hnow : s.mono_s ≤ now_s) : Pictured s.dev now_s := by
  obtain ⟨s₀, ⟨nvs, clock_us, rfl⟩, hexec⟩ := h.exists_exec
  obtain ⟨htimes, hboot⟩ := firmware_times hexec
  have hsecs := firmware_free_exec hexec hfree
  have hrun := sections_ctl_run hsecs
  refine ⟨sections_settled (firmware_free h hfree), ?_, ?_, ?_⟩
  · rw [hrun]
    exact stateBy_run (le_trans hboot hnow)
      (ops_by fun sec hsec => le_trans (htimes.secs sec hsec) hnow)
  · rw [hrun]
    exact fromReading_run _ _
  · -- the counter saturates far above the three reads of the limit
    have hinv := failSafeInv_run (n := SENSOR_FAIL_READS) (by decide) (boot nvs clock_us).mono_s
      (ops_fail_reads (sections_of acts))
    have hlimit : SENSOR_FAIL_READS.toNat = 3 := rfl
    rw [hrun, hinv.failed, hinv.failures, hlimit]
    omega

/-- The fields of a status document agree with each other and keep the bounds
    it gives. -/
structure StatusJson.Consistent (st : StatusJson) : Prop where
  /-- The pump runs exactly for the reasons to run. -/
  running : st.pump.on = true ↔
    st.pump.reason ≠ "auto_cold".toList ∧ st.pump.reason ≠ "manual_off".toList
  /-- The overheat wins over every other rule. -/
  overheat : st.temp.overheat = true ↔ st.pump.reason = "overheat".toList
  /-- A stop in force keeps the pump off; a start in force is what it runs for,
      unless the water is too hot. -/
  stopped : st.pump.manual = "stop".toList ↔ st.pump.reason = "manual_off".toList
  started : st.pump.reason = "manual_on".toList ↔
    st.pump.manual = "start".toList ∧ st.temp.overheat = false
  failed : st.temp.sensor_failed = true ↔ 3 ≤ st.temp.failures.toNat
  unread : st.temp.c = none ↔ st.temp.age_s = -1
  /-- Before the first reading the pump runs by hand or as a precaution only. -/
  blind : st.temp.c = none → st.pump.on = true →
    st.pump.reason = "manual_on".toList ∨ st.pump.reason = "sensor_fail".toList
  ages : 0 ≤ st.pump.state_s ∧ 0 ≤ st.pump.idle_s ∧ -1 ≤ st.temp.age_s
  idle : st.pump.idle_s = if st.pump.on then 0 else st.pump.state_s
  left : st.pump.manual_left_s ≤ st.settings.manual_max_s.toNat ∧
    (st.pump.manual = "none".toList → st.pump.manual_left_s = 0)
  thresholds : st.settings.start_min_c ≤ st.settings.start_c ∧
    st.settings.start_c ≤ st.settings.start_max_c ∧
    st.settings.stop_min_c ≤ st.settings.stop_c ∧
    st.settings.stop_c + st.settings.hysteresis_min_c ≤ st.settings.start_c ∧
    st.settings.start_c + st.settings.critical_margin_min_c ≤ st.settings.critical_c ∧
    st.settings.critical_c ≤ st.settings.critical_max_c

theorem settings_status_bounds {s : Settings} (h : s.Valid) :
    let st := settings_status s
    st.start_min_c ≤ st.start_c ∧ st.start_c ≤ st.start_max_c ∧ st.stop_min_c ≤ st.stop_c ∧
      st.stop_c + st.hysteresis_min_c ≤ st.start_c ∧
      st.start_c + st.critical_margin_min_c ≤ st.critical_c ∧
      st.critical_c ≤ st.critical_max_c := by
  have hstart_min : ((START_MIN_X10 : Int) : ℚ) ≤ s.start_x10.toInt := by exact_mod_cast h.start_min
  have hstart_max : (s.start_x10.toInt : ℚ) ≤ (START_MAX_X10 : Int) := by exact_mod_cast h.start_max
  have hstop_min : ((STOP_MIN_X10 : Int) : ℚ) ≤ s.stop_x10.toInt := by exact_mod_cast h.stop_min
  have hstop_max : (s.stop_x10.toInt : ℚ) ≤ s.start_x10.toInt - (HYSTERESIS_MIN_X10 : Int) := by
    exact_mod_cast h.stop_max
  have hcritical_min : (s.start_x10.toInt : ℚ) + (CRITICAL_MARGIN_MIN_X10 : Int) ≤
      s.critical_x10.toInt := by exact_mod_cast h.critical_min
  have hcritical_max : (s.critical_x10.toInt : ℚ) ≤ (CRITICAL_MAX_X10 : Int) := by
    exact_mod_cast h.critical_max
  simp only [START_MIN_X10, START_MAX_X10, STOP_MIN_X10, HYSTERESIS_MIN_X10,
    CRITICAL_MARGIN_MIN_X10, CRITICAL_MAX_X10] at *
  have hconst : ∀ n : Int, -32768 ≤ n → n < 32768 → celsius (Int16.ofInt n) = (n : ℚ) / 10 := by
    intro n hlo hhi
    rw [celsius, Int16.toInt_ofInt_of_le (by omega) (by omega)]
  simp only [settings_status, START_MIN_X10, START_MAX_X10, STOP_MIN_X10, HYSTERESIS_MIN_X10,
    CRITICAL_MARGIN_MIN_X10, CRITICAL_MAX_X10]
  rw [hconst 200 (by omega) (by omega), hconst 600 (by omega) (by omega),
    hconst 100 (by omega) (by omega), hconst 20 (by omega) (by omega),
    hconst 50 (by omega) (by omega), hconst 800 (by omega) (by omega)]
  unfold celsius
  push_cast at *
  refine ⟨?_, ?_, ?_, ?_, ?_, ?_⟩ <;> linarith

/-- What the rules make of the flags, in the words of the document. -/
theorem ctl_rule_names (s : CtlState) (hstop : s.manual = .stop → s.overheat = false) :
    ((ctl_rule s).1 = true ↔ (ctl_rule s).2 ≠ .auto_cold ∧ (ctl_rule s).2 ≠ .manual_off) ∧
      (s.overheat = true ↔ (ctl_rule s).2 = .overheat) ∧
      (s.manual = .stop ↔ (ctl_rule s).2 = .manual_off) ∧
      ((ctl_rule s).2 = .manual_on ↔ s.manual = .start ∧ s.overheat = false) := by
  unfold ctl_rule
  cases hover : s.overheat with
  | true =>
    have hmanual : s.manual ≠ .stop := by
      intro h
      rw [hstop h] at hover
      exact absurd hover Bool.false_ne_true
    simp [hmanual]
  | false =>
    cases s.manual with
    | start | stop => simp
    | none => cases s.sensor_failed <;> cases s.hot <;> cases s.maintenance <;> simp

/-- A pump that runs without any reading runs by hand or as a precaution. -/
theorem ctl_rule_blind {s : CtlState} (h : FromReading s) (hblind : s.have_temp = false)
    (hon : (ctl_rule s).1 = true) :
    (ctl_rule s).2 = .manual_on ∨ (ctl_rule s).2 = .sensor_fail := by
  have hnot : ∀ {b : Bool}, (b = true → s.have_temp = true) → b = false := by
    intro b hb
    cases b with
    | false => rfl
    | true => exact absurd ((hb rfl).symm.trans hblind) (by simp)
  have hover := hnot h.overheat
  have hhot := hnot h.hot
  have hmaintenance := hnot h.maintenance
  unfold ctl_rule at hon ⊢
  rw [hover, hhot, hmaintenance] at hon ⊢
  cases hm : s.manual with
  | start => simp
  | stop => simp [hm] at hon
  | none => cases hf : s.sensor_failed <;> simp_all

/-- **A document of one moment is consistent**, whatever the settings and the
    wall clock are when they are read. -/
theorem Pictured.consistent {d : Device} {now_s : Int} (h : Pictured d now_s) {s : Settings}
    (hs : s.Valid) (clock : HandlerClock) :
    (status_json (control_status d now_s) s clock).Consistent := by
  obtain ⟨hrun, hover, hstopped, hstarted⟩ := ctl_rule_names d.s_state h.settled.stop
  have hon : d.s_state.on = (ctl_rule d.s_state).1 := congrArg Prod.fst h.settled.rule
  have hreason : d.s_state.reason = (ctl_rule d.s_state).2 := congrArg Prod.snd h.settled.rule
  rw [← hon, ← hreason] at hrun
  rw [← hreason] at hover hstopped hstarted
  have hname : ∀ r, ctl_reason_name d.s_state.reason = ctl_reason_name r ↔ d.s_state.reason = r :=
    fun r => ctl_reason_name_inj
  have hmanual : ∀ m, manual_name d.s_state.manual = manual_name m ↔ d.s_state.manual = m :=
    fun m => manual_name_inj
  refine ⟨?_, ?_, ?_, ?_, h.failed, ?_, ?_, ⟨?_, ?_, ?_⟩, ?_, ⟨?_, ?_⟩, settings_status_bounds hs⟩
  · exact hrun.trans (and_congr (not_congr (hname .auto_cold)) (not_congr (hname .manual_off))).symm
  · exact hover.trans (hname .overheat).symm
  · exact (hmanual .stop).trans (hstopped.trans (hname .manual_off).symm)
  · exact (hname .manual_on).trans (hstarted.trans (and_congr_left' (hmanual .start)).symm)
  · -- an age is never negative
    show (if d.s_state.have_temp then some (celsius d.s_state.temp_x10) else none) = none ↔
      (if d.s_state.have_temp then now_s - d.s_state.temp_s else -1) = -1
    cases htemp : d.s_state.have_temp with
    | false => simp
    | true =>
      have hpast := h.times.reading htemp
      simp only [if_true, reduceCtorEq, false_iff]
      omega
  · intro hnone hrunning
    have hblind : d.s_state.have_temp = false := by
      cases htemp : d.s_state.have_temp with
      | false => rfl
      | true => simp [status_json, control_status, htemp] at hnone
    rcases ctl_rule_blind h.reading hblind (hon ▸ hrunning) with hr | hr
    · exact Or.inl ((hname .manual_on).mpr (hreason.trans hr))
    · exact Or.inr ((hname .sensor_fail).mpr (hreason.trans hr))
  · exact Int.sub_nonneg_of_le h.times.changed
  · show 0 ≤ if d.s_state.on then 0 else now_s - d.s_state.last_on_s
    have hpast := h.times.last_on
    split <;> omega
  · show -1 ≤ if d.s_state.have_temp then now_s - d.s_state.temp_s else -1
    split
    · rename_i htemp
      have hpast := h.times.reading htemp
      omega
    · exact le_rfl
  · show (if d.s_state.on then 0 else now_s - d.s_state.last_on_s) =
      if d.s_state.on then 0 else now_s - d.s_state.changed_s
    cases hoff : d.s_state.on with
    | true => rfl
    | false => simp [h.times.idle hoff]
  · show (if d.s_state.manual = .none then 0 else d.s_state.manual_until_s - now_s) ≤
      (MANUAL_MAX_S.toNat : Int)
    split
    · exact Int.natCast_nonneg _
    · rename_i hm
      have huntil := h.times.manual hm
      omega
  · intro hnone
    show (if d.s_state.manual = .none then 0 else d.s_state.manual_until_s - now_s) = 0
    rw [if_pos ((hmanual .none).mp hnone)]

end FloorHeating
