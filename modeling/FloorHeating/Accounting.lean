import FloorHeating.Attribution
import Mathlib.Algebra.BigOperators.Group.List.Basic
import Mathlib.Tactic.Ring

/-! # Runtime and start accounting

    Every call of `decide_locked` first credits the time since the call
    before it, if the pump was on in between, and then counts a start, if
    the pump has just been switched on; the day's counters restart in
    between calls that see different local days.

    The counters are 32 bits wide.  The exact sums are taken over the
    integers, and the counters hold them modulo 2^32. -/

namespace FloorHeating

open LTS PastTime

/-! ## Ticks and counts -/

/-- What the accounting sees of a call of `decide_locked`: its timestamp, the
    local day if the clock is synchronised, and the pump after the call. -/
structure Tick where
  now_s : Int
  day : Option Int
  on : Bool
  deriving DecidableEq, Repr

/-- The local day, which is never negative, if the clock is synchronised. -/
def WallClock.day (wall : WallClock) : Option Int :=
  if wall.yday ≥ 0 then some wall.yday else none

/-- The tick before, if there was one: 0 is the mark of none. -/
def last_tick (past : List Tick) : Option Tick :=
  past.getLast?.filter fun t => t.now_s > 0

/-- The day recorded last. -/
def recorded_day (past : List Tick) : Option Int := (past.filterMap Tick.day).getLast?

/-- What one call counts, given the calls before it. -/
structure Count where
  rollover : Bool
  seconds : Int
  starts : Nat
  deriving DecidableEq, Repr

/-- The call is the first of another synchronised day. -/
def Tick.rolls_over (past : List Tick) (t : Tick) : Bool :=
  match t.day, recorded_day past with
  | some day, some recorded => day ≠ recorded
  | _, _ => false

/-- The time since the call before, if the pump was on after that. -/
def Tick.seconds (past : List Tick) (t : Tick) : Int :=
  match last_tick past with
  | some last => if last.on then t.now_s - last.now_s else 0
  | none => 0

/-- One, if the pump was off after the call before. -/
def Tick.starts (past : List Tick) (t : Tick) : Nat :=
  if t.on && !((past.getLast?.map Tick.on).getD false) then 1 else 0

def Tick.count (past : List Tick) (t : Tick) : Count where
  rollover := t.rolls_over past
  seconds := t.seconds past
  starts := t.starts past

/-- The counts of all calls, in order. -/
def counts (ticks : List Tick) : List Count := withPast (fun past t => t.count past) ticks

/-- The exact runtime of a list of counts. -/
def runtime_s (cs : List Count) : Int := (cs.map Count.seconds).sum

/-- The exact number of starts of a list of counts. -/
def start_count (cs : List Count) : Nat := (cs.map Count.starts).sum

/-! ## One more call -/

theorem recorded_day_concat (ticks : List Tick) (t : Tick) :
    recorded_day (ticks ++ [t]) = t.day.or (recorded_day ticks) := by
  unfold recorded_day
  cases h : t.day <;> simp [h]

theorem counts_concat (ticks : List Tick) (t : Tick) :
    counts (ticks ++ [t]) = counts ticks ++ [t.count ticks] :=
  withPast_concat _ ticks t

@[simp] theorem runtime_s_concat (cs : List Count) (c : Count) :
    runtime_s (cs ++ [c]) = runtime_s cs + c.seconds := by
  simp [runtime_s]

@[simp] theorem start_count_concat (cs : List Count) (c : Count) :
    start_count (cs ++ [c]) = start_count cs + c.starts := by
  simp [start_count]

/-- The counts since the latest rollover. -/
def today (cs : List Count) : List Count := fromLast Count.rollover cs

theorem runtime_s_today (cs : List Count) (c : Count) :
    runtime_s (today (cs ++ [c])) =
      (if c.rollover then 0 else runtime_s (today cs)) + c.seconds := by
  unfold today
  rw [fromLast_concat]
  split
  · simp [runtime_s]
  · rw [runtime_s_concat]

theorem start_count_today (cs : List Count) (c : Count) :
    start_count (today (cs ++ [c])) =
      (if c.rollover then 0 else start_count (today cs)) + c.starts := by
  unfold today
  rw [fromLast_concat]
  split
  · simp [start_count]
  · rw [start_count_concat]

/-- The statics are the accounts of the calls. -/
structure AccountInv (ticks : List Tick) (d : Device) : Prop where
  on : d.s_state.on = (ticks.getLast?.map Tick.on).getD false
  last_tick : d.s_last_tick_s = (ticks.getLast?.map Tick.now_s).getD 0
  day : d.s_today_yday = (recorded_day ticks).getD (-1)
  day_nonneg : ∀ day, recorded_day ticks = some day → 0 ≤ day
  runtime_boot : d.s_runtime_boot_s = UInt32.ofInt (runtime_s (counts ticks))
  starts_boot : d.s_starts_boot = UInt32.ofNat (start_count (counts ticks))
  runtime_today : d.s_runtime_today_s = UInt32.ofInt (runtime_s (today (counts ticks)))
  starts_today : d.s_starts_today = UInt32.ofNat (start_count (today (counts ticks)))

theorem accountInv_start (now_s : Int) : AccountInv [] (control_start now_s) :=
  ⟨rfl, rfl, rfl, by simp [recorded_day], rfl, rfl, rfl, rfl⟩

section call
variable {ticks : List Tick} {d : Device} (h : AccountInv ticks d)
include h

/-- The code credits the time of the tick. -/
theorem AccountInv.elapsed (t : Tick) : elapsed d t.now_s = UInt32.ofInt (t.seconds ticks) := by
  have hon := h.on
  have hlast := h.last_tick
  unfold FloorHeating.elapsed Tick.seconds FloorHeating.last_tick
  cases hticks : ticks.getLast? with
  | none =>
    rw [hticks] at hon
    have hoff : ¬ (d.s_state.on = true ∧ d.s_last_tick_s > 0) := by simp [hon]
    rw [if_neg hoff]
    rfl
  | some last =>
    simp only [hticks, Option.map_some, Option.getD_some] at hon hlast
    rw [hon, hlast]
    have hzero : (0 : UInt32) = UInt32.ofInt 0 := rfl
    by_cases hmark : last.now_s > 0
    · cases hrun : last.on <;> simp [Option.filter, hmark, hrun, hzero]
    · simp [Option.filter, hmark, hzero]

/-- The code starts another day where the tick does. -/
theorem AccountInv.rolls_over (wall : WallClock) {t : Tick} (ht : t.day = wall.day) :
    rolls_over d wall = t.rolls_over ticks := by
  have hday := h.day
  unfold FloorHeating.rolls_over Tick.rolls_over
  rw [ht, WallClock.day]
  by_cases hsynced : wall.yday ≥ 0
  · rw [if_pos hsynced]
    cases hrec : recorded_day ticks with
    | none =>
      -- the first synchronised day: nothing is recorded yet
      rw [hrec] at hday
      simp [hday]
    | some recorded =>
      have hrecorded := h.day_nonneg recorded hrec
      simp only [hrec, Option.getD_some] at hday
      simp [hsynced, hday, hrecorded]
  · rw [if_neg hsynced]
    simp [hsynced]

theorem AccountInv.started {st : CtlState} {r : CtlResult}
    (hchanged : r.changed = (st.on != d.s_state.on)) {t : Tick} (ht : t.on = st.on) :
    started st r = t.starts ticks := by
  unfold FloorHeating.started Tick.starts
  rw [← h.on, ht, hchanged]
  cases d.s_state.on <;> cases st.on <;> simp

end call

/-- One call of `decide_locked` goes on with the accounts, if what was done to
    the control state before it has left the pump alone. -/
theorem accountInv_decide {ticks : List Tick} {d : Device} (h : AccountInv ticks d)
    {st : CtlState} {r : CtlResult} (hon : st.on = d.s_state.on) (hr : r.changed = false)
    (s : Settings) (wall : WallClock) (now_s : Int) (detail : Option CStr) :
    AccountInv (ticks ++ [⟨now_s, wall.day,
        (ctl_decide st (config_from_settings s) now_s r).1.on⟩])
      (decide_locked { d with s_state := st } s wall now_s r detail).1 := by
  have hchanged : (ctl_decide st (config_from_settings s) now_s r).2.changed =
      ((ctl_decide st (config_from_settings s) now_s r).1.on != d.s_state.on) := by
    rw [ctl_decide_eq]
    simp [hr, hon]
  rw [decide_locked_eq]
  generalize ctl_decide st (config_from_settings s) now_s r = dec at hchanged ⊢
  -- the tick of the call, and what its counts are in the code
  generalize ht : Tick.mk now_s wall.day dec.1.on = t
  have hfound : AccountInv ticks { d with s_state := st } :=
    ⟨hon.trans h.on, h.last_tick, h.day, h.day_nonneg, h.runtime_boot, h.starts_boot,
      h.runtime_today, h.starts_today⟩
  have helapsed : elapsed { d with s_state := st } now_s = UInt32.ofInt (t.seconds ticks) := by
    have := hfound.elapsed t
    rwa [← ht] at this ⊢
  have hday : t.day = wall.day := ht ▸ rfl
  have hrolls : rolls_over { d with s_state := st } wall = t.rolls_over ticks :=
    hfound.rolls_over wall hday
  have hstarted : started dec.1 dec.2 = t.starts ticks := h.started hchanged (ht ▸ rfl)
  simp only [count_start_eq, count_runtime_locked_eq, helapsed, hrolls, hstarted]
  constructor
  · simp [← ht]
  · simp [← ht]
  · rw [recorded_day_concat, hday, WallClock.day]
    by_cases hsynced : wall.yday ≥ 0
    · simp [hsynced]
    · simp [hsynced, h.day]
  · intro day hrecorded
    rw [recorded_day_concat, hday, WallClock.day] at hrecorded
    by_cases hsynced : wall.yday ≥ 0
    · simp only [hsynced, if_true, Option.some_or, Option.some.injEq] at hrecorded
      omega
    · simp only [hsynced, if_false, Option.none_or] at hrecorded
      exact h.day_nonneg day hrecorded
  · rw [counts_concat, runtime_s_concat, UInt32.ofInt_add, h.runtime_boot]
    rfl
  · rw [counts_concat, start_count_concat, UInt32.ofNat_add, h.starts_boot]
    rfl
  · rw [counts_concat, runtime_s_today, UInt32.ofInt_add, h.runtime_today]
    cases hroll : t.rolls_over ticks with
    | false => simp [Tick.count, hroll]
    | true =>
      simp only [Tick.count, hroll, if_true]
      rfl
  · rw [counts_concat, start_count_today, UInt32.ofNat_add, h.starts_today]
    cases hroll : t.rolls_over ticks <;> simp [Tick.count, hroll]

/-- Without a rollover the day's counters are those since boot. -/
theorem AccountInv.since_boot {ticks : List Tick} {d : Device} (h : AccountInv ticks d)
    (hnone : ∀ c ∈ counts ticks, c.rollover = false) :
    d.s_runtime_today_s = d.s_runtime_boot_s ∧ d.s_starts_today = d.s_starts_boot := by
  rw [h.runtime_today, h.starts_today, h.runtime_boot, h.starts_boot, today,
    fromLast_unmarked hnone]
  exact ⟨rfl, rfl⟩

theorem AccountInv.since_rollover {ticks : List Tick} {d : Device} (h : AccountInv ticks d)
    {pre post : List Count} {c : Count} (hsplit : counts ticks = pre ++ c :: post)
    (hroll : c.rollover = true) (hpost : ∀ c' ∈ post, c'.rollover = false) :
    d.s_runtime_today_s = UInt32.ofInt (runtime_s (c :: post)) ∧
      d.s_starts_today = UInt32.ofNat (start_count (c :: post)) := by
  rw [h.runtime_today, h.starts_today, today, hsplit, fromLast_marked hroll hpost]
  exact ⟨rfl, rfl⟩

/-! ## Sequences of calls -/

/-- A call of `decide_locked`, with what the reads and the commands since the
    call before it have left of the control state and of the result. -/
structure DecideCall where
  found : CtlState
  result : CtlResult
  settings : Settings
  wall : WallClock
  now_s : Int
  detail : Option CStr
  deriving DecidableEq, Repr

/-- The call, on the device it finds.  Nothing but a decision switches the
    pump, so it is still as the call before left it. -/
def Device.decide (d : Device) (c : DecideCall) : Device :=
  (decide_locked { d with s_state := { c.found with on := d.s_state.on } } c.settings c.wall
    c.now_s { c.result with changed := false } c.detail).1

/-- The tick of the call. -/
def tick_of (d : Device) (c : DecideCall) : Tick :=
  ⟨c.now_s, c.wall.day, (d.decide c).s_state.on⟩

/-- The device after a sequence of calls from boot. -/
def calls_run (boot_s : Int) (calls : List DecideCall) : Device :=
  calls.foldl Device.decide (control_start boot_s)

/-- The counts of the calls. -/
def counts_of (boot_s : Int) (calls : List DecideCall) : List Count :=
  counts (outputs Device.decide tick_of (control_start boot_s) calls)

theorem accountInv_call {ticks : List Tick} {d : Device} (h : AccountInv ticks d)
    (c : DecideCall) : AccountInv (ticks ++ [tick_of d c]) (d.decide c) := by
  have hstate : (d.decide c).s_state.on = (ctl_decide { c.found with on := d.s_state.on }
      (config_from_settings c.settings) c.now_s { c.result with changed := false }).1.on := by
    unfold Device.decide
    rw [decide_locked_state]
  have hon : CtlState.on { c.found with on := d.s_state.on } = d.s_state.on := rfl
  unfold tick_of
  rw [hstate]
  exact accountInv_decide h hon rfl c.settings c.wall c.now_s c.detail

theorem accountInv_calls (boot_s : Int) (calls : List DecideCall) :
    AccountInv (outputs Device.decide tick_of (control_start boot_s) calls)
      (calls_run boot_s calls) := by
  induction calls using List.reverseRecOn with
  | nil => exact accountInv_start boot_s
  | append_singleton calls c ih =>
    rw [outputs_concat, calls_run, List.foldl_append]
    exact accountInv_call ih c

/-- **Runtime and start accounting.**  After any sequence of calls of
    `decide_locked` from boot, with any timestamps, days and decisions, the
    counters since boot are the runtime and the starts of all calls, modulo
    2^32.  The counters of the day are those since boot as long as no call
    has rolled over, and after that those of the calls from the latest
    rollover on, that one included. -/
theorem runtime_accounting (boot_s : Int) (calls : List DecideCall) :
    (calls_run boot_s calls).s_runtime_boot_s = UInt32.ofInt (runtime_s (counts_of boot_s calls)) ∧
      (calls_run boot_s calls).s_starts_boot =
        UInt32.ofNat (start_count (counts_of boot_s calls)) ∧
      ((∀ c ∈ counts_of boot_s calls, c.rollover = false) →
        (calls_run boot_s calls).s_runtime_today_s = (calls_run boot_s calls).s_runtime_boot_s ∧
        (calls_run boot_s calls).s_starts_today = (calls_run boot_s calls).s_starts_boot) ∧
      ∀ pre c post, counts_of boot_s calls = pre ++ c :: post → c.rollover = true →
        (∀ c' ∈ post, c'.rollover = false) →
        (calls_run boot_s calls).s_runtime_today_s = UInt32.ofInt (runtime_s (c :: post)) ∧
        (calls_run boot_s calls).s_starts_today = UInt32.ofNat (start_count (c :: post)) := by
  have h := accountInv_calls boot_s calls
  exact ⟨h.runtime_boot, h.starts_boot, h.since_boot, fun _ _ _ => h.since_rollover⟩

/-! ## The calls of the firmware -/

/-- The call of `decide_locked` that a step of the firmware makes, if any. -/
def decide_tick (s : Firmware) : Label → Option Tick
  | .task (.decide wall) => match s.task with
    | .sensed now_s _ r => some ⟨now_s, wall.day,
        (ctl_decide s.dev.s_state (config_from_settings s.s_settings) now_s r).1.on⟩
    | _ => none
  | .manual c (.decide wall) => match s.callers c with
    | .manual_accepted _ now_s => some ⟨now_s, wall.day,
        (ctl_decide s.dev.s_state (config_from_settings s.s_settings) now_s {}).1.on⟩
    | _ => none
  | _ => none

/-- The calls of `decide_locked` in a run of the firmware, in order. -/
def firmware_ticks (nvs : NvsBlob) (clock_us : Nat) (acts : List Label) : List Tick :=
  firmware.trace decide_tick (boot nvs clock_us) acts

/-- The accounts depend on the pump and on the counters alone. -/
theorem AccountInv.frame {ticks : List Tick} {d d' : Device} (h : AccountInv ticks d)
    (hframe : ∃ st heartbeat_s log, d' = { d with
      s_state := st
      s_heartbeat_s := heartbeat_s
      events := log })
    (hon : d'.s_state.on = d.s_state.on) : AccountInv ticks d' := by
  obtain ⟨st, heartbeat_s, log, rfl⟩ := hframe
  exact ⟨hon.trans h.on, h.last_tick, h.day, h.day_nonneg, h.runtime_boot, h.starts_boot,
    h.runtime_today, h.starts_today⟩

theorem OutsideStep.account {s s' : Firmware} {o : Owner} (h : OutsideStep s o s')
    {ticks : List Tick} (hticks : AccountInv ticks s.dev) :
    AccountInv (ticks ++ []) s'.dev := by
  rwa [h.dev, List.append_nil]

theorem task_step_account {acts : List Label} {s s' : Firmware} (h : Run firmware acts s)
    {act : TaskAct} (hstep : TaskStep s act s') {ticks : List Tick}
    (hticks : AccountInv ticks s.dev) :
    AccountInv (ticks ++ (decide_tick s (.task act)).toList) s'.dev := by
  have hsame : AccountInv (ticks ++ []) s.dev := by rwa [List.append_nil]
  cases hstep with
  | start pc => exact (task_start_outside pc).account hticks
  | sample smp pc => exact (task_sample_outside smp pc).account hticks
  | history it on pc => exact (task_history_outside pc).account hticks
  | lock now_s smp pc free => exact hsame
  | sensor now_s smp pc =>
    -- the read leaves the pump as it is
    have hdev : (s.task_sensor now_s smp).dev = (iteration_sensor s.dev now_s (smp.map fun x =>
        ⟨s.s_settings, x.valid, x.temp_x10⟩)).1 := rfl
    rw [hdev]
    exact hsame.frame ⟨_, _, _, iteration_sensor_device _ _ _⟩ (iteration_sensor_on _ _ _)
  | decide now_s rd r wall pc =>
    obtain ⟨st₀, -, hunmoved⟩ := task_unmoved h pc
    simp only [decide_tick, pc]
    exact accountInv_decide hticks rfl hunmoved.changed s.s_settings wall now_s none
  | relay it pc => exact hsame
  | unlock it pc => exact hsame.frame ⟨_, _, _, rfl⟩ rfl

theorem manual_step_account {s s' : Firmware} {c : Nat} {act : ManualAct}
    (hstep : ManualStep s c act s') {ticks : List Tick} (hticks : AccountInv ticks s.dev) :
    AccountInv (ticks ++ (decide_tick s (.manual c act)).toList) s'.dev := by
  have hsame : AccountInv (ticks ++ []) s.dev := by rwa [List.append_nil]
  cases hstep with
  | call _ _ | lock _ _ _ | reject _ _ _ | unlock _ _ | refuse _ _ _ | leave _ _ => exact hsame
  | accept q st pc accepted => exact hsame.frame ⟨_, _, _, rfl⟩ (ctl_manual_on accepted)
  | decide q now_s wall pc =>
    have hzeroed : CtlResult.changed {} = false := rfl
    simp only [decide_tick, pc]
    exact accountInv_decide hticks rfl hzeroed s.s_settings wall now_s (some q.detail)

/-- Every step of the firmware goes on with the accounts. -/
theorem step_account {acts : List Label} {s s' : Firmware} (h : Run firmware acts s) {a : Label}
    (hstep : step s a = some s') {ticks : List Tick} (hticks : AccountInv ticks s.dev) :
    AccountInv (ticks ++ (decide_tick s a).toList) s'.dev := by
  cases a with
  | tick us =>
    obtain rfl := Option.some.inj hstep
    simpa [decide_tick] using hticks
  | disturb level =>
    obtain rfl := Option.some.inj hstep
    simpa [decide_tick] using hticks
  | task act => exact task_step_account h (task_step_inv hstep) hticks
  | manual c act => exact manual_step_account (manual_step_inv hstep) hticks
  | settings c act => exact (settings_step_inv hstep).outside.account hticks

/-- In every state the firmware reaches, the counters are the accounts of the
    calls it has made. -/
theorem firmware_account {nvs : NvsBlob} {clock_us : Nat} {acts : List Label} {s : Firmware}
    (h : firmware.exec (boot nvs clock_us) acts = some s) :
    AccountInv (firmware_ticks nvs clock_us acts) s.dev := by
  have hboot : (∃ acts, Run firmware acts (boot nvs clock_us)) ∧
      AccountInv [] (boot nvs clock_us).dev :=
    ⟨⟨[], Run.init ⟨nvs, clock_us, rfl⟩⟩, accountInv_start _⟩
  have hall : firmware.Steps (fun _ _ => True) (boot nvs clock_us) acts :=
    steps_of_forall (fun _ _ _ => trivial) _
  refine (trace_invariant (P := fun ticks s => (∃ acts, Run firmware acts s) ∧
    AccountInv ticks s.dev) ?_ hboot h hall).2
  intro ticks s a s' _ hs hstep
  obtain ⟨⟨acts, hrun⟩, hticks⟩ := hs
  exact ⟨⟨_, hrun.snoc hstep⟩, step_account hrun hstep hticks⟩

end FloorHeating
