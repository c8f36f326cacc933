import FloorHeating.Control
import FloorHeating.History
import FloorHeating.Lib.Transition
import Mathlib.Logic.Function.Basic

/-! # The firmware, step by step

    `control_task` and any number of callers of `control_manual` and
    `settings_set` run interleaved on the statics, the NVS and the pin.  A
    step is what no other task can be seen in the middle of: a portMUX
    section, or a stretch of code that `s_lock` or `s_write_lock` guards and
    that reads the settings, the clock or the pin at most once.

    What the environment answers (the sensor, the wall clock, NVS errors) is
    in the label, and so is what a section was given when its lock is
    released.  Time passes, and the relay pin may be disturbed, between any
    two steps.

    Source: `control_task`, `control_start`, `control_manual` (`control.c`),
    `settings_set` (`settings.c`), `app_main` (`main.c`). -/

namespace FloorHeating

open LTS

def CONTROL_READ_PERIOD_S : Int := 5

/-- What `temp_sensor_read` delivered. -/
structure Sample where
  valid : Bool
  temp_x10 : Int16
  deriving DecidableEq, Repr

/-- Where `control_task` is in its loop, with its locals. -/
inductive TaskPc where
  | top
  | reading
  | ready (now_s : Int) (sample : Option Sample)
  | locked (now_s : Int) (sample : Option Sample)
  | sensed (now_s : Int) (read : Option Read) (r : CtlResult)
  | decided (it : Iteration)
  | relayed (it : Iteration)
  | released (it : Iteration) (on : Bool)
  deriving DecidableEq, Repr

/-- Where a caller is in `control_manual` or in `settings_set`, with its
    locals. -/
inductive CallerPc where
  | idle
  | manual_called (q : Request)
  | manual_locked (q : Request)
  | manual_accepted (q : Request) (now_s : Int)
  | manual_refused (q : Request) (now_s : Int)
  | manual_decided (c : Command)
  | manual_returned (res : ControlResult)
  | set_called (v : Settings)
  | set_locked (v : Settings)
  | set_applied (v : Settings)
  | set_opened (v : Settings)
  | set_written (v : Settings)
  | set_saved (v : Settings) (ok : Bool)
  | set_returned (v : Settings) (ok : Bool)
  deriving DecidableEq, Repr

/-- Who holds `s_lock`. -/
inductive Owner where
  | task
  | caller (c : Nat)
  deriving DecidableEq, Repr

/-- The whole device: clock, statics, NVS, pin, and every task's position. -/
structure Firmware where
  clock_us : Nat
  s_settings : Settings
  s_write_lock : Option Nat
  nvs : NvsBlob
  s_lock : Option Owner
  dev : Device
  relay : Bool
  task : TaskPc
  next_read_s : Int
  next_history_s : Int
  history : History
  callers : Nat → CallerPc

/-- `events_mono_s`. -/
def Firmware.mono_s (s : Firmware) : Int := (s.clock_us / 1000000 : Nat)

/-- `app_main` up to `control_start`, on what NVS holds. -/
def boot (nvs : NvsBlob) (clock_us : Nat) : Firmware where
  clock_us
  s_settings := settings_init nvs
  s_write_lock := none
  nvs
  s_lock := none
  dev := control_start (clock_us / 1000000 : Nat)
  relay := false
  task := .top
  next_read_s := 0
  next_history_s := 0
  history := history_zero
  callers := fun _ => .idle

/-- Caller `c` moves on. -/
def Firmware.set_caller (s : Firmware) (c : Nat) (pc : CallerPc) : Firmware :=
  { s with callers := Function.update s.callers c pc }

/-! ## `control_task` -/

/-- The steps of one loop iteration, in order. -/
inductive TaskAct where
  | start
  | sample (sample : Sample)
  | lock
  | sensor
  | decide (wall : WallClock)
  | relay
  | unlock (it : Iteration)
  | history
  deriving DecidableEq, Repr

/-- The iteration starts: the read is due, or it is not. -/
def Firmware.task_start (s : Firmware) : Firmware :=
  if s.mono_s ≥ s.next_read_s then
    -- the timestamp is taken again after the read
    { s with task := .reading, next_read_s := s.mono_s + CONTROL_READ_PERIOD_S }
  else { s with task := .ready s.mono_s none }

/-- `if (read) ctl_sensor(...)` under the lock, with the settings of now. -/
def Firmware.task_sensor (s : Firmware) (now_s : Int) (sample : Option Sample) : Firmware :=
  let read := sample.map fun smp => ⟨s.s_settings, smp.valid, smp.temp_x10⟩
  let (d, r) := iteration_sensor s.dev now_s read
  { s with dev := d, task := .sensed now_s read r }

/-- `decide_locked` in the loop, with the settings of now. -/
def Firmware.task_decide (s : Firmware) (now_s : Int) (read : Option Read) (r : CtlResult)
    (wall : WallClock) : Firmware :=
  let (d, r) := decide_locked s.dev s.s_settings wall now_s r none
  { s with
    dev := d
    relay := decide_relay d r s.relay
    task := .decided ⟨now_s, read, s.s_settings, wall⟩ }

/-- The heartbeat, and the lock is given back. -/
def Firmware.task_unlock (s : Firmware) (it : Iteration) : Firmware :=
  { s with
    dev := { s.dev with s_heartbeat_s := it.now_s }
    s_lock := none
    task := .released it s.dev.s_state.on }

/-- The history sample, if this iteration read and one is due. -/
def Firmware.task_history (s : Firmware) (it : Iteration) (on : Bool) : Firmware :=
  match it.read with
  | some rd =>
    if it.now_s ≥ s.next_history_s then
      -- `history_add` reads the clock again, after the lock was given back
      { s with
        next_history_s := it.now_s + HISTORY_PERIOD_S
        history := history_add s.history rd.valid rd.temp_x10 on s.mono_s
        task := .top }
    else { s with task := .top }
  | none => { s with task := .top }

def task_step (s : Firmware) : TaskAct → Option Firmware
  | .start => match s.task with
    | .top => some s.task_start
    | _ => none
  | .sample sample => match s.task with
    | .reading => some { s with task := .ready s.mono_s (some sample) }
    | _ => none
  | .lock => match s.task, s.s_lock with
    | .ready now_s sample, none => some { s with s_lock := some .task, task := .locked now_s sample }
    | _, _ => none
  | .sensor => match s.task with
    | .locked now_s sample => some (s.task_sensor now_s sample)
    | _ => none
  | .decide wall => match s.task with
    | .sensed now_s read r => some (s.task_decide now_s read r wall)
    | _ => none
  | .relay => match s.task with
    | .decided it => some { s with relay := relay_check s.dev s.relay, task := .relayed it }
    | _ => none
  | .unlock it => if s.task = .relayed it then some (s.task_unlock it) else none
  | .history => match s.task with
    | .released it on => some (s.task_history it on)
    | _ => none

/-! ## `control_manual` -/

/-- The steps of one call, from the call to the return. -/
inductive ManualAct where
  | call (q : Request)
  | lock
  | apply
  | decide (wall : WallClock)
  | unlock (cmd : Command)
  | refuse (q : Request) (now_s : Int)
  | leave
  deriving DecidableEq, Repr

/-- The clock is read and `ctl_manual` called. -/
def Firmware.manual_apply (s : Firmware) (c : Nat) (q : Request) : Firmware :=
  match ctl_manual s.dev.s_state q.manual q.clamped_s s.mono_s with
  | none => s.set_caller c (.manual_refused q s.mono_s)
  | some st =>
    { s with dev := { s.dev with s_state := st } }.set_caller c (.manual_accepted q s.mono_s)

/-- `decide_locked` in `control_manual`, with the settings of now. -/
def Firmware.manual_decide (s : Firmware) (c : Nat) (q : Request) (now_s : Int)
    (wall : WallClock) : Firmware :=
  let (d, r) := decide_locked s.dev s.s_settings wall now_s {} (some q.detail)
  { s with dev := d, relay := decide_relay d r s.relay }.set_caller c
    (.manual_decided ⟨q, now_s, s.s_settings, wall⟩)

def manual_step (s : Firmware) (c : Nat) : ManualAct → Option Firmware
  | .call q => match s.callers c with
    | .idle => some (s.set_caller c (.manual_called q))
    | _ => none
  | .lock => match s.callers c, s.s_lock with
    | .manual_called q, none =>
      some ({ s with s_lock := some (.caller c) }.set_caller c (.manual_locked q))
    | _, _ => none
  | .apply => match s.callers c with
    | .manual_locked q => some (s.manual_apply c q)
    | _ => none
  | .decide wall => match s.callers c with
    | .manual_accepted q now_s => some (s.manual_decide c q now_s wall)
    | _ => none
  | .unlock cmd =>
    if s.callers c = .manual_decided cmd then
      some ({ s with s_lock := none }.set_caller c (.manual_returned .ok))
    else none
  | .refuse q now_s =>
    if s.callers c = .manual_refused q now_s then
      some ({ s with s_lock := none }.set_caller c (.manual_returned .refused_overheat))
    else none
  | .leave => match s.callers c with
    | .manual_returned _ => some (s.set_caller c .idle)
    | _ => none

/-! ## `settings_set` -/

/-- The steps of one call.  An NVS step says whether it succeeded and, for the
    two that write, whether a reboot from now on finds the new blob. -/
inductive SetAct where
  | call (v : Settings)
  | lock
  | apply
  | nvs_open (ok : Bool)
  | nvs_set_blob (ok stored : Bool)
  | nvs_commit (ok stored : Bool)
  | unlock
  | leave
  deriving DecidableEq, Repr

/-- The blob after a write that reached the flash, or did not. -/
def nvs_write (nvs : NvsBlob) (v : Settings) (stored : Bool) : NvsBlob :=
  if stored then .stored v else nvs

def settings_step (s : Firmware) (c : Nat) : SetAct → Option Firmware
  -- clamped before the lock is taken, on the caller's own copy
  | .call v => match s.callers c with
    | .idle => some (s.set_caller c (.set_called (sanitize v)))
    | _ => none
  | .lock => match s.callers c, s.s_write_lock with
    | .set_called v, none => some ({ s with s_write_lock := some c }.set_caller c (.set_locked v))
    | _, _ => none
  -- one portMUX section: readers see all three thresholds change at once
  | .apply => match s.callers c with
    | .set_locked v => some ({ s with s_settings := v }.set_caller c (.set_applied v))
    | _ => none
  -- an error skips what is left of the save, not the release
  | .nvs_open ok => match s.callers c with
    | .set_applied v => some (s.set_caller c (if ok then .set_opened v else .set_saved v false))
    | _ => none
  | .nvs_set_blob ok stored => match s.callers c with
    | .set_opened v => some ({ s with nvs := nvs_write s.nvs v stored }.set_caller c
        (if ok then .set_written v else .set_saved v false))
    | _ => none
  | .nvs_commit ok stored => match s.callers c with
    | .set_written v => some ({ s with nvs := nvs_write s.nvs v (ok || stored) }.set_caller c
        (.set_saved v ok))
    | _ => none
  | .unlock => match s.callers c with
    | .set_saved v ok => some ({ s with s_write_lock := none }.set_caller c (.set_returned v ok))
    | _ => none
  | .leave => match s.callers c with
    | .set_returned _ _ => some (s.set_caller c .idle)
    | _ => none

/-! ## The system -/

/-- A step of the device or of what is around it. -/
inductive Label where
  | tick (us : Nat)
  | disturb (level : Bool)
  | task (act : TaskAct)
  | manual (c : Nat) (act : ManualAct)
  | settings (c : Nat) (act : SetAct)
  deriving DecidableEq, Repr

def step (s : Firmware) : Label → Option Firmware
  | .tick us => some { s with clock_us := s.clock_us + us }
  | .disturb level => some { s with relay := level }
  | .task act => task_step s act
  | .manual c act => manual_step s c act
  | .settings c act => settings_step s c act

/-- The firmware, from any boot. -/
def firmware : System Firmware Label where
  init s := ∃ nvs clock_us, s = boot nvs clock_us
  step := step

/-- What can be executed from a boot is a run. -/
theorem run_from_boot (nvs : NvsBlob) (clock_us : Nat) {acts : List Label} {s : Firmware}
    (h : firmware.exec (boot nvs clock_us) acts = some s) : Run firmware acts s :=
  Run.of_exec ⟨nvs, clock_us, rfl⟩ h

/-! ## Calls that nothing interleaves with -/

/-- A loop iteration from its start to its end. -/
def iteration_labels (it : Iteration) : List Label :=
  .task .start ::
    (it.read.toList.map fun rd => .task (.sample ⟨rd.valid, rd.temp_x10⟩)) ++
    [.task .lock, .task .sensor, .task (.decide it.wall), .task .relay, .task (.unlock it),
      .task .history]

/-- An accepted call of `control_manual`. -/
def command_labels (c : Nat) (cmd : Command) : List Label :=
  [.manual c (.call cmd.request), .manual c .lock, .manual c .apply,
    .manual c (.decide cmd.wall), .manual c (.unlock cmd), .manual c .leave]

/-- A refused call of `control_manual`, up to its release. -/
def refused_labels (c : Nat) (q : Request) (now_s : Int) : List Label :=
  [.manual c (.call q), .manual c .lock, .manual c .apply, .manual c (.refuse q now_s)]

/-- A call of `settings_set` that saves. -/
def save_labels (c : Nat) (v : Settings) : List Label :=
  [.settings c (.call v), .settings c .lock, .settings c .apply, .settings c (.nvs_open true),
    .settings c (.nvs_set_blob true true), .settings c (.nvs_commit true true),
    .settings c .unlock, .settings c .leave]

/-- What such a save comes to: both the settings and the flash hold the clamped
    thresholds. -/
theorem save_exec {s : Firmware} {c : Nat} (hfree : s.s_write_lock = none)
    (hidle : s.callers c = .idle) (v : Settings) :
    firmware.exec s (save_labels c v) =
      some { s with s_settings := sanitize v, nvs := .stored (sanitize v) } := by
  have hcallers : Function.update s.callers c .idle = s.callers := by
    rw [← hidle, Function.update_eq_self]
  simp [save_labels, System.exec, firmware, step, settings_step, Firmware.set_caller, hfree, hidle,
    hcallers, nvs_write]

/-! ## What a step can do

    One constructor for each way a step can go, with what it found and what
    it left; every invariant is proved from these. -/

inductive TaskStep (s : Firmware) : TaskAct → Firmware → Prop where
  | start (pc : s.task = .top) : TaskStep s .start s.task_start
  | sample (sample : Sample) (pc : s.task = .reading) :
      TaskStep s (.sample sample) { s with task := .ready s.mono_s (some sample) }
  | lock (now_s : Int) (sample : Option Sample) (pc : s.task = .ready now_s sample)
      (free : s.s_lock = none) :
      TaskStep s .lock { s with s_lock := some .task, task := .locked now_s sample }
  | sensor (now_s : Int) (sample : Option Sample) (pc : s.task = .locked now_s sample) :
      TaskStep s .sensor (s.task_sensor now_s sample)
  | decide (now_s : Int) (read : Option Read) (r : CtlResult) (wall : WallClock)
      (pc : s.task = .sensed now_s read r) :
      TaskStep s (.decide wall) (s.task_decide now_s read r wall)
  | relay (it : Iteration) (pc : s.task = .decided it) :
      TaskStep s .relay { s with relay := relay_check s.dev s.relay, task := .relayed it }
  | unlock (it : Iteration) (pc : s.task = .relayed it) :
      TaskStep s (.unlock it) (s.task_unlock it)
  | history (it : Iteration) (on : Bool) (pc : s.task = .released it on) :
      TaskStep s .history (s.task_history it on)

theorem task_step_inv {s s' : Firmware} {act : TaskAct} (h : task_step s act = some s') :
    TaskStep s act s' := by
  cases act with
  | start =>
    simp only [task_step] at h
    split at h
    · rename_i pc
      exact Option.some.inj h ▸ .start pc
    · simp at h
  | sample smp =>
    simp only [task_step] at h
    split at h
    · rename_i pc
      exact Option.some.inj h ▸ .sample smp pc
    · simp at h
  | lock =>
    simp only [task_step] at h
    split at h
    · rename_i pc free
      exact Option.some.inj h ▸ .lock _ _ pc free
    · simp at h
  | sensor =>
    simp only [task_step] at h
    split at h
    · rename_i pc
      exact Option.some.inj h ▸ .sensor _ _ pc
    · simp at h
  | decide wall =>
    simp only [task_step] at h
    split at h
    · rename_i pc
      exact Option.some.inj h ▸ .decide _ _ _ wall pc
    · simp at h
  | relay =>
    simp only [task_step] at h
    split at h
    · rename_i pc
      exact Option.some.inj h ▸ .relay _ pc
    · simp at h
  | unlock it =>
    simp only [task_step] at h
    split at h
    · rename_i pc
      exact Option.some.inj h ▸ .unlock it pc
    · simp at h
  | history =>
    simp only [task_step] at h
    split at h
    · rename_i pc
      exact Option.some.inj h ▸ .history _ _ pc
    · simp at h

inductive ManualStep (s : Firmware) (c : Nat) : ManualAct → Firmware → Prop where
  | call (q : Request) (pc : s.callers c = .idle) :
      ManualStep s c (.call q) (s.set_caller c (.manual_called q))
  | lock (q : Request) (pc : s.callers c = .manual_called q) (free : s.s_lock = none) :
      ManualStep s c .lock
        ({ s with s_lock := some (.caller c) }.set_caller c (.manual_locked q))
  | accept (q : Request) (st : CtlState) (pc : s.callers c = .manual_locked q)
      (accepted : ctl_manual s.dev.s_state q.manual q.clamped_s s.mono_s = some st) :
      ManualStep s c .apply ({ s with dev := { s.dev with s_state := st } }.set_caller c
        (.manual_accepted q s.mono_s))
  | reject (q : Request) (pc : s.callers c = .manual_locked q)
      (refused : ctl_manual s.dev.s_state q.manual q.clamped_s s.mono_s = none) :
      ManualStep s c .apply (s.set_caller c (.manual_refused q s.mono_s))
  | decide (q : Request) (now_s : Int) (wall : WallClock)
      (pc : s.callers c = .manual_accepted q now_s) :
      ManualStep s c (.decide wall) (s.manual_decide c q now_s wall)
  | unlock (cmd : Command) (pc : s.callers c = .manual_decided cmd) :
      ManualStep s c (.unlock cmd)
        ({ s with s_lock := none }.set_caller c (.manual_returned .ok))
  | refuse (q : Request) (now_s : Int) (pc : s.callers c = .manual_refused q now_s) :
      ManualStep s c (.refuse q now_s)
        ({ s with s_lock := none }.set_caller c (.manual_returned .refused_overheat))
  | leave (res : ControlResult) (pc : s.callers c = .manual_returned res) :
      ManualStep s c .leave (s.set_caller c .idle)

theorem manual_step_inv {s s' : Firmware} {c : Nat} {act : ManualAct}
    (h : manual_step s c act = some s') : ManualStep s c act s' := by
  cases act with
  | call q =>
    simp only [manual_step] at h
    split at h
    · rename_i pc
      exact Option.some.inj h ▸ .call q pc
    · simp at h
  | lock =>
    simp only [manual_step] at h
    split at h
    · rename_i pc free
      exact Option.some.inj h ▸ .lock _ pc free
    · simp at h
  | apply =>
    simp only [manual_step] at h
    split at h
    · rename_i q pc
      obtain rfl := Option.some.inj h
      unfold Firmware.manual_apply
      -- `ctl_manual` decides whether the call goes on or is refused
      cases hm : ctl_manual s.dev.s_state q.manual q.clamped_s s.mono_s with
      | none => exact .reject q pc hm
      | some st => exact .accept q st pc hm
    · simp at h
  | decide wall =>
    simp only [manual_step] at h
    split at h
    · rename_i pc
      exact Option.some.inj h ▸ .decide _ _ wall pc
    · simp at h
  | unlock cmd =>
    simp only [manual_step] at h
    split at h
    · rename_i pc
      exact Option.some.inj h ▸ .unlock cmd pc
    · simp at h
  | refuse q now_s =>
    simp only [manual_step] at h
    split at h
    · rename_i pc
      exact Option.some.inj h ▸ .refuse q now_s pc
    · simp at h
  | leave =>
    simp only [manual_step] at h
    split at h
    · rename_i pc
      exact Option.some.inj h ▸ .leave _ pc
    · simp at h

inductive SetStep (s : Firmware) (c : Nat) : SetAct → Firmware → Prop where
  | call (v : Settings) (pc : s.callers c = .idle) :
      SetStep s c (.call v) (s.set_caller c (.set_called (sanitize v)))
  | lock (v : Settings) (pc : s.callers c = .set_called v) (free : s.s_write_lock = none) :
      SetStep s c .lock ({ s with s_write_lock := some c }.set_caller c (.set_locked v))
  | apply (v : Settings) (pc : s.callers c = .set_locked v) :
      SetStep s c .apply ({ s with s_settings := v }.set_caller c (.set_applied v))
  | nvs_open (v : Settings) (ok : Bool) (pc : s.callers c = .set_applied v) :
      SetStep s c (.nvs_open ok)
        (s.set_caller c (if ok then .set_opened v else .set_saved v false))
  | nvs_set_blob (v : Settings) (ok stored : Bool) (pc : s.callers c = .set_opened v) :
      SetStep s c (.nvs_set_blob ok stored)
        ({ s with nvs := nvs_write s.nvs v stored }.set_caller c
          (if ok then .set_written v else .set_saved v false))
  | nvs_commit (v : Settings) (ok stored : Bool) (pc : s.callers c = .set_written v) :
      SetStep s c (.nvs_commit ok stored)
        ({ s with nvs := nvs_write s.nvs v (ok || stored) }.set_caller c (.set_saved v ok))
  | unlock (v : Settings) (ok : Bool) (pc : s.callers c = .set_saved v ok) :
      SetStep s c .unlock ({ s with s_write_lock := none }.set_caller c (.set_returned v ok))
  | leave (v : Settings) (ok : Bool) (pc : s.callers c = .set_returned v ok) :
      SetStep s c .leave (s.set_caller c .idle)

theorem settings_step_inv {s s' : Firmware} {c : Nat} {act : SetAct}
    (h : settings_step s c act = some s') : SetStep s c act s' := by
  cases act with
  | call v =>
    simp only [settings_step] at h
    split at h
    · rename_i pc
      exact Option.some.inj h ▸ .call v pc
    · simp at h
  | lock =>
    simp only [settings_step] at h
    split at h
    · rename_i pc free
      exact Option.some.inj h ▸ .lock _ pc free
    · simp at h
  | apply =>
    simp only [settings_step] at h
    split at h
    · rename_i pc
      exact Option.some.inj h ▸ .apply _ pc
    · simp at h
  | nvs_open ok =>
    simp only [settings_step] at h
    split at h
    · rename_i pc
      exact Option.some.inj h ▸ .nvs_open _ ok pc
    · simp at h
  | nvs_set_blob ok stored =>
    simp only [settings_step] at h
    split at h
    · rename_i pc
      exact Option.some.inj h ▸ .nvs_set_blob _ ok stored pc
    · simp at h
  | nvs_commit ok stored =>
    simp only [settings_step] at h
    split at h
    · rename_i pc
      exact Option.some.inj h ▸ .nvs_commit _ ok stored pc
    · simp at h
  | unlock =>
    simp only [settings_step] at h
    split at h
    · rename_i pc
      exact Option.some.inj h ▸ .unlock _ _ pc
    · simp at h
  | leave =>
    simp only [settings_step] at h
    split at h
    · rename_i pc
      exact Option.some.inj h ▸ .leave _ _ pc
    · simp at h

end FloorHeating
