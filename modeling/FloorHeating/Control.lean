import FloorHeating.Events
import FloorHeating.Settings

/-! # The control task's functions (`control.c`)

    Everything `s_lock` guards is one record, `Device`.  The two functions
    that change it under the lock are the critical section of a loop
    iteration (`control_iteration`) and `control_manual`; both end in
    `decide_locked`.

    The relay is not part of the record: nothing but the wire keeps its
    level, so `decide_relay` and `relay_check` say what the code writes to
    the pin. -/

namespace FloorHeating

def MANUAL_MIN_S : UInt32 := 60
def MANUAL_MAX_S : UInt32 := 12 * 3600

/-- What `hi_ntp_synced` and `localtime_r` answer during one call. -/
structure WallClock where
  synced : Bool
  tm_yday : Int
  deriving DecidableEq, Repr

/-- The statics of `control.c` that `s_lock` guards, and the event log that is
    written only under it. -/
structure Device where
  s_state : CtlState
  s_heartbeat_s : Int
  s_last_tick_s : Int
  s_today_yday : Int
  s_runtime_today_s : UInt32
  s_starts_today : UInt32
  s_runtime_boot_s : UInt32
  s_starts_boot : UInt32
  events : EventLog

/-- The statics after `control_start` at `now_s`. -/
def control_start (now_s : Int) : Device where
  s_state := ctl_init now_s
  s_heartbeat_s := 0
  s_last_tick_s := 0
  s_today_yday := -1
  s_runtime_today_s := 0
  s_starts_today := 0
  s_runtime_boot_s := 0
  s_starts_boot := 0
  events := events_init

/-! ## `decide_locked` -/

/-- `make_event`. -/
def make_event (s : CtlState) (type : EventType) (now_s : Int) : Event where
  type
  mono_s := now_s
  on := s.on
  reason := s.reason
  has_temp := s.have_temp
  temp_x10 := s.temp_x10

/-- `events_publish` on the device's log. -/
def Device.publish (d : Device) (e : Event) : Device :=
  { d with events := events_publish d.events e }

/-- The day's counters restart on another local day, but not on the first
    synchronised one: it keeps the runtime from before the synchronisation. -/
def roll_day (d : Device) (yday : Int) : Device :=
  if yday ≥ 0 ∧ yday ≠ d.s_today_yday then
    let d := if d.s_today_yday ≥ 0 then { d with s_runtime_today_s := 0, s_starts_today := 0 }
      else d
    { d with s_today_yday := yday }
  else d

/-- `count_runtime_locked`. -/
def count_runtime_locked (d : Device) (wall : WallClock) (now_s : Int) : Device :=
  let yday := if wall.synced then wall.tm_yday else -1
  let d := roll_day d yday
  -- the first tick has no predecessor to count from
  let d := if d.s_state.on ∧ d.s_last_tick_s > 0 then
      -- the cast to `uint32_t` wraps, as the sums do
      let dt := UInt32.ofInt (now_s - d.s_last_tick_s)
      { d with
        s_runtime_today_s := d.s_runtime_today_s + dt
        s_runtime_boot_s := d.s_runtime_boot_s + dt }
    else d
  { d with s_last_tick_s := now_s }

/-- `s_starts_today++`, `s_starts_boot++` of a pump that was switched on. -/
def count_start (d : Device) (r : CtlResult) : Device :=
  if r.changed ∧ d.s_state.on then
    { d with
      s_starts_today := d.s_starts_today + 1
      s_starts_boot := d.s_starts_boot + 1 }
  else d

/-- The edge of the sensor fail-safe becomes an event. -/
def report_sensor (d : Device) (now_s : Int) (r : CtlResult) : Device :=
  if r.sensor_failed ∨ r.sensor_recovered then
    d.publish { make_event d.s_state .sensor now_s with on := r.sensor_failed }
  else d

/-- The edge of the overheat becomes an event. -/
def report_overheat (d : Device) (now_s : Int) (r : CtlResult) : Device :=
  if r.overheat_started ∨ r.overheat_ended then
    d.publish { make_event d.s_state .overheat now_s with on := r.overheat_started }
  else d

/-- The pump's event, or the end of an override that switched nothing. -/
def report_pump (d : Device) (now_s : Int) (r : CtlResult) (detail : Option CStr) : Device :=
  if r.changed then
    d.publish { make_event d.s_state .pump now_s with
      prev_reason := r.prev_reason
      detail := match detail with
        | some text => snprintf DETAIL_SIZE text
        | none => [] }
  else if r.manual_expired ∨ r.manual_cancelled then
    -- the override is over, and the pump stays as it is
    d.publish { make_event d.s_state .manual_end now_s with
      prev_reason := r.prev_reason
      detail := snprintf DETAIL_SIZE
        (if r.manual_cancelled then "overheat".toList else "expired".toList) }
  else d

/-- `decide_locked`, less its write to the pin (`decide_relay`).  `s` is what
    its `settings_get` returned. -/
def decide_locked (d : Device) (s : Settings) (wall : WallClock) (now_s : Int) (r : CtlResult)
    (detail : Option CStr) : Device × CtlResult :=
  let cfg := config_from_settings s
  -- the time up to now still belongs to the pump state before the decision
  let d := count_runtime_locked d wall now_s
  let (st, r) := ctl_decide d.s_state cfg now_s r
  let d := { d with s_state := st }
  let d := count_start d r
  let d := report_sensor d now_s r
  let d := report_overheat d now_s r
  (report_pump d now_s r detail, r)

/-- `if (r->changed) pump_set(s_state.on)`: the relay after `decide_locked`
    left the device `d` and the result `r`. -/
def decide_relay (d : Device) (r : CtlResult) (relay : Bool) : Bool :=
  if r.changed then d.s_state.on else relay

/-- `if (pump_is_on() != s_state.on) pump_set(s_state.on)`. -/
def relay_check (d : Device) (relay : Bool) : Bool :=
  if relay ≠ d.s_state.on then d.s_state.on else relay

/-! ## The critical sections -/

/-- The sensor read of a loop iteration: the outcome of `temp_sensor_read`, and
    the settings `ctl_sensor` was given. -/
structure Read where
  settings : Settings
  valid : Bool
  temp_x10 : Int16
  deriving DecidableEq, Repr

/-- What one loop iteration brings to its critical section: its timestamp, its
    read if it was due, and what `decide_locked` found in the settings and on
    the wall clock. -/
structure Iteration where
  now_s : Int
  read : Option Read
  settings : Settings
  wall : WallClock
  deriving DecidableEq, Repr

/-- `if (read) ctl_sensor(...)`, on a zeroed result. -/
def iteration_sensor (d : Device) (now_s : Int) (read : Option Read) : Device × CtlResult :=
  match read with
  | none => (d, {})
  | some rd =>
    let (st, r) := ctl_sensor d.s_state (config_from_settings rd.settings) now_s rd.valid
      rd.temp_x10 {}
    ({ d with s_state := st }, r)

/-- The critical section of `control_task`. -/
def control_iteration (d : Device) (it : Iteration) : Device :=
  let (d, r) := iteration_sensor d it.now_s it.read
  let (d, _) := decide_locked d it.settings it.wall it.now_s r none
  { d with s_heartbeat_s := it.now_s }

/-- The iteration is its decision and the heartbeat. -/
theorem control_iteration_eq (d : Device) (it : Iteration) :
    control_iteration d it =
      { (decide_locked (iteration_sensor d it.now_s it.read).1 it.settings it.wall it.now_s
          (iteration_sensor d it.now_s it.read).2 none).1 with s_heartbeat_s := it.now_s } := by
  unfold control_iteration
  dsimp only

/-- The arguments of a call of `control_manual`. -/
structure Request where
  manual : CtlManual
  duration_s : UInt32
  who : CStr
  deriving DecidableEq, Repr

/-- The duration, clamped to `MANUAL_MIN_S..MANUAL_MAX_S`. -/
def Request.clamped_s (q : Request) : UInt32 :=
  let duration_s := if q.duration_s < MANUAL_MIN_S then MANUAL_MIN_S else q.duration_s
  if duration_s > MANUAL_MAX_S then MANUAL_MAX_S else duration_s

/-- The text for the event: `"auto, <who>"` or `"<minutes> min, <who>"`. -/
def Request.detail (q : Request) : CStr :=
  if q.manual = .none then snprintf DETAIL_SIZE ("auto, ".toList ++ q.who)
  else snprintf DETAIL_SIZE
    ((Nat.repr (q.clamped_s.toNat / 60)).toList ++ " min, ".toList ++ q.who)

/-- `control_result_t`. -/
inductive ControlResult where
  | ok
  | refused_overheat
  deriving DecidableEq, Repr

/-- What a call of `control_manual` brings to its critical section. -/
structure Command where
  request : Request
  now_s : Int
  settings : Settings
  wall : WallClock
  deriving DecidableEq, Repr

/-- The critical section of `control_manual`. -/
def control_manual (d : Device) (c : Command) : ControlResult × Device :=
  match ctl_manual d.s_state c.request.manual c.request.clamped_s c.now_s with
  -- the early return: no decision, and nothing was written
  | none => (.refused_overheat, d)
  | some st =>
    let (d, _) := decide_locked { d with s_state := st } c.settings c.wall c.now_s {}
      (some c.request.detail)
    (.ok, d)

/-! ## What they do to the control state

    Counting and reporting never touch `s_state`, so the control state goes
    through `ctl_sensor`, `ctl_manual` and `ctl_decide` alone. -/

@[simp] theorem publish_state (d : Device) (e : Event) : (d.publish e).s_state = d.s_state := rfl

@[simp] theorem roll_day_state (d : Device) (yday : Int) : (roll_day d yday).s_state = d.s_state := by
  unfold roll_day
  split
  · split <;> rfl
  · rfl

@[simp] theorem count_runtime_locked_state (d : Device) (wall : WallClock) (now_s : Int) :
    (count_runtime_locked d wall now_s).s_state = d.s_state := by
  unfold count_runtime_locked
  dsimp only
  split <;> split <;> simp

@[simp] theorem count_start_state (d : Device) (r : CtlResult) :
    (count_start d r).s_state = d.s_state := by
  unfold count_start
  split <;> rfl

@[simp] theorem report_sensor_state (d : Device) (now_s : Int) (r : CtlResult) :
    (report_sensor d now_s r).s_state = d.s_state := by
  unfold report_sensor
  split <;> rfl

@[simp] theorem report_overheat_state (d : Device) (now_s : Int) (r : CtlResult) :
    (report_overheat d now_s r).s_state = d.s_state := by
  unfold report_overheat
  split <;> rfl

@[simp] theorem report_pump_state (d : Device) (now_s : Int) (r : CtlResult)
    (detail : Option CStr) : (report_pump d now_s r detail).s_state = d.s_state := by
  unfold report_pump
  split
  · rfl
  · split <;> rfl

section decide_locked
variable (d : Device) (s : Settings) (wall : WallClock) (now_s : Int) (r : CtlResult)
         (detail : Option CStr)

@[simp] theorem decide_locked_state :
    (decide_locked d s wall now_s r detail).1.s_state =
      (ctl_decide d.s_state (config_from_settings s) now_s r).1 := by
  simp [decide_locked]

@[simp] theorem decide_locked_result :
    (decide_locked d s wall now_s r detail).2 =
      (ctl_decide d.s_state (config_from_settings s) now_s r).2 := by
  simp [decide_locked]

/-- A pin that showed the pump state before the decision shows it after. -/
theorem decide_relay_follows {relay : Bool} (h : relay = d.s_state.on) :
    decide_relay (decide_locked d s wall now_s r detail).1
        (decide_locked d s wall now_s r detail).2 relay =
      (decide_locked d s wall now_s r detail).1.s_state.on := by
  unfold decide_relay
  rw [decide_locked_result, decide_locked_state, ctl_decide_eq]
  split
  · rfl
  · -- no write: the decision has not switched the pump
    rename_i hsame
    simp only [Bool.not_eq_true, Bool.or_eq_false_iff, bne_eq_false_iff_eq] at hsame
    rw [h]
    exact hsame.2.symm

end decide_locked

/-- The clamped duration, as a number. -/
theorem clamped_s_toNat (q : Request) :
    q.clamped_s.toNat = max 60 (min 43200 q.duration_s.toNat) := by
  have hmin : MANUAL_MIN_S.toNat = 60 := rfl
  have hmax : MANUAL_MAX_S.toNat = 43200 := rfl
  unfold Request.clamped_s
  dsimp only
  by_cases hlow : q.duration_s < MANUAL_MIN_S
  · -- raised to the minimum, which is no more than the maximum
    have hlow' := UInt32.lt_iff_toNat_lt.mp hlow
    rw [if_pos hlow, if_neg (by decide)]
    omega
  · have hlow' : ¬ q.duration_s.toNat < 60 := fun h => hlow (UInt32.lt_iff_toNat_lt.mpr h)
    rw [if_neg hlow]
    by_cases hhigh : q.duration_s > MANUAL_MAX_S
    · have hhigh' := UInt32.lt_iff_toNat_lt.mp hhigh
      rw [if_pos hhigh]
      omega
    · have hhigh' : ¬ 43200 < q.duration_s.toNat := fun h => hhigh (UInt32.lt_iff_toNat_lt.mpr h)
      rw [if_neg hhigh]
      omega

/-- The relay check ends with the pin at the pump state, whatever it was. -/
@[simp] theorem relay_check_eq (d : Device) (relay : Bool) :
    relay_check d relay = d.s_state.on := by
  unfold relay_check
  split
  · rfl
  · rename_i h
    exact Decidable.not_not.mp h

/-! ## What a decision counts and publishes

    The reports only hand events to `events_publish`, so a call of
    `decide_locked` is the counting around `ctl_decide`, and after it the
    events that the result calls for, in order. -/

/-- The events of the sensor's edge. -/
def sensor_events (st : CtlState) (now_s : Int) (r : CtlResult) : List Event :=
  if r.sensor_failed ∨ r.sensor_recovered then
    [{ make_event st .sensor now_s with on := r.sensor_failed }]
  else []

/-- The events of the overheat's edge. -/
def overheat_events (st : CtlState) (now_s : Int) (r : CtlResult) : List Event :=
  if r.overheat_started ∨ r.overheat_ended then
    [{ make_event st .overheat now_s with on := r.overheat_started }]
  else []

/-- The pump's event, or that of an override that ended without a switch. -/
def pump_events (st : CtlState) (now_s : Int) (r : CtlResult) (detail : Option CStr) :
    List Event :=
  if r.changed then
    [{ make_event st .pump now_s with
      prev_reason := r.prev_reason
      detail := match detail with
        | some text => snprintf DETAIL_SIZE text
        | none => [] }]
  else if r.manual_expired ∨ r.manual_cancelled then
    [{ make_event st .manual_end now_s with
      prev_reason := r.prev_reason
      detail := snprintf DETAIL_SIZE
        (if r.manual_cancelled then "overheat".toList else "expired".toList) }]
  else []

/-- All events of a decision that left the state `st` and the result `r`. -/
def decide_events (st : CtlState) (now_s : Int) (r : CtlResult) (detail : Option CStr) :
    List Event :=
  sensor_events st now_s r ++ overheat_events st now_s r ++ pump_events st now_s r detail

theorem report_sensor_eq (d : Device) (now_s : Int) (r : CtlResult) :
    report_sensor d now_s r =
      { d with events := (sensor_events d.s_state now_s r).foldl events_publish d.events } := by
  unfold report_sensor sensor_events
  split <;> rfl

theorem report_overheat_eq (d : Device) (now_s : Int) (r : CtlResult) :
    report_overheat d now_s r =
      { d with events := (overheat_events d.s_state now_s r).foldl events_publish d.events } := by
  unfold report_overheat overheat_events
  split <;> rfl

theorem report_pump_eq (d : Device) (now_s : Int) (r : CtlResult) (detail : Option CStr) :
    report_pump d now_s r detail =
      { d with events := (pump_events d.s_state now_s r detail).foldl events_publish d.events } := by
  unfold report_pump pump_events
  split
  · rfl
  · split <;> rfl

@[simp] theorem count_start_events (d : Device) (r : CtlResult) :
    (count_start d r).events = d.events := by
  unfold count_start
  split <;> rfl

/-- One, if the decision has switched the pump on. -/
def started (st : CtlState) (r : CtlResult) : Nat := if r.changed ∧ st.on then 1 else 0

theorem count_start_eq (d : Device) (r : CtlResult) :
    count_start d r = { d with
      s_starts_today := d.s_starts_today + UInt32.ofNat (started d.s_state r)
      s_starts_boot := d.s_starts_boot + UInt32.ofNat (started d.s_state r) } := by
  unfold count_start started
  split
  · rfl
  · simp

/-- `yday` of `count_runtime_locked`: the local day, or -1 without one. -/
def WallClock.yday (wall : WallClock) : Int := if wall.synced then wall.tm_yday else -1

/-- The call starts another local day. -/
def rolls_over (d : Device) (wall : WallClock) : Bool :=
  wall.yday ≥ 0 && wall.yday ≠ d.s_today_yday && d.s_today_yday ≥ 0

/-- What the call adds to the two runtimes. -/
def elapsed (d : Device) (now_s : Int) : UInt32 :=
  if d.s_state.on ∧ d.s_last_tick_s > 0 then UInt32.ofInt (now_s - d.s_last_tick_s) else 0

/-- One call of `count_runtime_locked`, every field at once. -/
theorem count_runtime_locked_eq (d : Device) (wall : WallClock) (now_s : Int) :
    count_runtime_locked d wall now_s = { d with
      s_last_tick_s := now_s
      s_today_yday := if wall.yday ≥ 0 then wall.yday else d.s_today_yday
      s_runtime_today_s :=
        (if rolls_over d wall then 0 else d.s_runtime_today_s) + elapsed d now_s
      s_starts_today := if rolls_over d wall then 0 else d.s_starts_today
      s_runtime_boot_s := d.s_runtime_boot_s + elapsed d now_s } := by
  have hroll : roll_day d wall.yday = { d with
      s_today_yday := if wall.yday ≥ 0 then wall.yday else d.s_today_yday
      s_runtime_today_s := if rolls_over d wall then 0 else d.s_runtime_today_s
      s_starts_today := if rolls_over d wall then 0 else d.s_starts_today } := by
    unfold roll_day rolls_over
    by_cases hday : wall.yday ≥ 0
    · by_cases hsame : wall.yday = d.s_today_yday
      · simp [hsame]
      · by_cases hfirst : d.s_today_yday ≥ 0 <;> simp [hday, hsame, hfirst]
    · simp [hday]
  unfold WallClock.yday at hroll ⊢
  unfold count_runtime_locked elapsed
  simp only [hroll]
  split <;> simp

/-- **One call of `decide_locked`**, the reports taken together. -/
theorem decide_locked_eq (d : Device) (s : Settings) (wall : WallClock) (now_s : Int)
    (r : CtlResult) (detail : Option CStr) :
    decide_locked d s wall now_s r detail =
      let dec := ctl_decide d.s_state (config_from_settings s) now_s r
      ({ count_start { count_runtime_locked d wall now_s with s_state := dec.1 } dec.2 with
          events := (decide_events dec.1 now_s dec.2 detail).foldl events_publish d.events },
        dec.2) := by
  simp only [decide_locked, report_sensor_eq, report_overheat_eq, report_pump_eq,
    count_runtime_locked_eq, count_start_state, count_start_events, decide_events,
    List.foldl_append]

theorem decide_locked_last_tick (d : Device) (s : Settings) (wall : WallClock) (now_s : Int)
    (r : CtlResult) (detail : Option CStr) :
    (decide_locked d s wall now_s r detail).1.s_last_tick_s = now_s := by
  simp [decide_locked_eq, count_start_eq, count_runtime_locked_eq]

/-- What is published is appended to what a listener has seen. -/
theorem publish_notified (log : EventLog) (es : List Event) :
    (es.foldl events_publish log).notified = log.notified ++ es := by
  induction es generalizing log with
  | nil => simp
  | cons e es ih =>
    rw [List.foldl_cons, ih]
    simp [events_publish]

end FloorHeating
