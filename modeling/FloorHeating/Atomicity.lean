import FloorHeating.Firmware
import FloorHeating.Sections
import FloorHeating.Lib.Mutex

/-! # The firmware refines its critical sections

    However the tasks are interleaved, the device changes as if each
    critical section were taken in one piece, at the moment `s_lock` is
    released: a run of the firmware, with only its releases kept, is a run
    of `sections`.

    The relation that carries the simulation says that `s_lock` is held by
    the one task inside, that every copy of the settings is consistent, and
    how far the task inside has come from the device it found. -/

namespace FloorHeating

open LTS Mutex

/-! ## The lock -/

/-- The task is in its critical section. -/
def TaskPc.inside : TaskPc → Bool
  | .locked _ _ | .sensed _ _ _ | .decided _ | .relayed _ => true
  | _ => false

/-- The caller is in the critical section of `control_manual`. -/
def CallerPc.inside : CallerPc → Bool
  | .manual_locked _ | .manual_accepted _ _ | .manual_refused _ _ | .manual_decided _ => true
  | _ => false

def Firmware.inside (s : Firmware) : Owner → Bool
  | .task => s.task.inside
  | .caller c => (s.callers c).inside

/-- `s_lock` is held by the task that is inside. -/
def LockInv (s : Firmware) : Prop := Held s.s_lock s.inside

theorem set_caller_same (s : Firmware) (c : Nat) (pc : CallerPc) :
    (s.set_caller c pc).callers c = pc := by
  simp [Firmware.set_caller]

theorem set_caller_other (s : Firmware) {c c' : Nat} (h : c' ≠ c) (pc : CallerPc) :
    (s.set_caller c pc).callers c' = s.callers c' := by
  simp [Firmware.set_caller, h]

/-- Only `o` moves in this step. -/
structure Moves (s : Firmware) (o : Owner) (s' : Firmware) : Prop where
  task : o ≠ .task → s'.task = s.task
  callers : ∀ c, o ≠ .caller c → s'.callers c = s.callers c

theorem Moves.inside {s s' : Firmware} {o : Owner} (h : Moves s o s') (o' : Owner) (ho : o' ≠ o) :
    s'.inside o' = s.inside o' := by
  cases o' with
  | task =>
    show s'.task.inside = s.task.inside
    rw [h.task ho.symm]
  | caller c =>
    show (s'.callers c).inside = (s.callers c).inside
    rw [h.callers c ho.symm]

theorem task_moves {s s' : Firmware} (hcallers : s'.callers = s.callers := by rfl) :
    Moves s .task s' := by
  refine ⟨fun h => absurd rfl h, ?_⟩
  intro c _
  rw [hcallers]

theorem caller_moves {s s' : Firmware} (c : Nat) (pc : CallerPc)
    (htask : s'.task = s.task := by rfl) (hcallers : s'.callers = s.callers := by rfl) :
    Moves s (.caller c) (s'.set_caller c pc) := by
  refine ⟨fun _ => htask, ?_⟩
  intro c' hne
  have hne' : c' ≠ c := fun heq => hne (heq ▸ rfl)
  rw [set_caller_other s' hne', hcallers]

/-- A step of a task that is outside and stays there: it touches neither the
    lock nor what the lock guards. -/
structure OutsideStep (s : Firmware) (o : Owner) (s' : Firmware) : Prop extends Moves s o s' where
  before : s.inside o = false
  after : s'.inside o = false := by rfl
  lock : s'.s_lock = s.s_lock := by rfl
  dev : s'.dev = s.dev := by rfl
  relay : s'.relay = s.relay := by rfl

theorem task_start_outside {s : Firmware} (pc : s.task = .top) :
    OutsideStep s .task s.task_start := by
  have hbefore : s.inside .task = false := congrArg TaskPc.inside pc
  unfold Firmware.task_start
  split
  · exact { task_moves with before := hbefore }
  · exact { task_moves with before := hbefore }

theorem task_history_outside {s : Firmware} {it : Iteration} {on : Bool}
    (pc : s.task = .released it on) : OutsideStep s .task (s.task_history it on) := by
  have hbefore : s.inside .task = false := congrArg TaskPc.inside pc
  unfold Firmware.task_history
  split
  · split
    · exact { task_moves with before := hbefore }
    · exact { task_moves with before := hbefore }
  · exact { task_moves with before := hbefore }

theorem task_sample_outside {s : Firmware} (smp : Sample) (pc : s.task = .reading) :
    OutsideStep s .task { s with task := .ready s.mono_s (some smp) } :=
  { task_moves with before := congrArg TaskPc.inside pc }

/-- A caller moves on outside the critical section. -/
theorem caller_outside {s s' : Firmware} {c : Nat} {old pc : CallerPc}
    (hold : s.callers c = old) (hbefore : old.inside = false := by rfl)
    (hafter : pc.inside = false := by rfl)
    (hlock : s'.s_lock = s.s_lock := by rfl) (hdev : s'.dev = s.dev := by rfl)
    (hrelay : s'.relay = s.relay := by rfl) (htask : s'.task = s.task := by rfl)
    (hcallers : s'.callers = s.callers := by rfl) :
    OutsideStep s (.caller c) (s'.set_caller c pc) := by
  refine ⟨caller_moves c pc htask hcallers, ?_, ?_, hlock, hdev, hrelay⟩
  · show (s.callers c).inside = false
    rw [hold, hbefore]
  · show ((s'.set_caller c pc).callers c).inside = false
    rw [set_caller_same, hafter]

/-- `settings_set` never enters the critical section of `s_lock`. -/
theorem SetStep.outside {s s' : Firmware} {c : Nat} {act : SetAct} (h : SetStep s c act s') :
    OutsideStep s (.caller c) s' := by
  cases h with
  | call _ pc | lock _ pc _ | apply _ pc | nvs_commit _ _ _ pc | unlock _ _ pc | leave _ _ pc =>
    exact caller_outside pc
  | nvs_open _ ok pc | nvs_set_blob _ ok _ pc => cases ok <;> exact caller_outside pc

/-! The four things a step can do to the lock. -/

theorem OutsideStep.lockInv {s s' : Firmware} {o : Owner} (h : OutsideStep s o s')
    (hs : LockInv s) : LockInv s' := by
  unfold LockInv
  rw [h.lock]
  apply hs.keep
  intro o'
  by_cases ho : o' = o
  · rw [ho, h.before, h.after]
  · exact h.inside o' ho

/-- A step inside the critical section. -/
theorem LockInv.inside_step {s s' : Firmware} {o : Owner} (hs : LockInv s) (h : Moves s o s')
    (hbefore : s.inside o = true) (hafter : s'.inside o = true := by rfl)
    (hlock : s'.s_lock = s.s_lock := by rfl) : LockInv s' := by
  unfold LockInv
  rw [hlock]
  apply hs.keep
  intro o'
  by_cases ho : o' = o
  · rw [ho, hbefore, hafter]
  · exact h.inside o' ho

theorem LockInv.acquire {s s' : Firmware} {o : Owner} (hs : LockInv s) (h : Moves s o s')
    (hfree : s.s_lock = none) (hafter : s'.inside o = true := by rfl)
    (hlock : s'.s_lock = some o := by rfl) : LockInv s' := by
  have hnone : Held none s.inside := hfree ▸ hs
  unfold LockInv
  rw [hlock]
  exact hnone.acquire hafter h.inside

theorem LockInv.release {s s' : Firmware} {o : Owner} (hs : LockInv s) (h : Moves s o s')
    (hbefore : s.inside o = true) (hafter : s'.inside o = false := by rfl)
    (hlock : s'.s_lock = none := by rfl) : LockInv s' := by
  unfold LockInv
  rw [hlock]
  exact Held.release hs hbefore hafter h.inside

theorem TaskStep.lockInv {s s' : Firmware} {act : TaskAct} (h : TaskStep s act s')
    (hs : LockInv s) : LockInv s' := by
  have hinside : ∀ {pc}, s.task = pc → pc.inside = true → s.inside .task = true := by
    intro pc hpc hin
    show s.task.inside = true
    rw [hpc, hin]
  cases h with
  -- outside the section
  | start pc => exact (task_start_outside pc).lockInv hs
  | sample smp pc => exact (task_sample_outside smp pc).lockInv hs
  | history it on pc => exact (task_history_outside pc).lockInv hs
  -- in, within, and out again
  | lock now_s smp pc free => exact hs.acquire task_moves free
  | sensor _ _ pc | decide _ _ _ _ pc | relay _ pc =>
    exact hs.inside_step task_moves (hinside pc rfl)
  | unlock it pc => exact hs.release task_moves (hinside pc rfl)

theorem ManualStep.lockInv {s s' : Firmware} {c : Nat} {act : ManualAct}
    (h : ManualStep s c act s') (hs : LockInv s) : LockInv s' := by
  have hinside : ∀ {pc}, s.callers c = pc → pc.inside = true → s.inside (.caller c) = true := by
    intro pc hpc hin
    show (s.callers c).inside = true
    rw [hpc, hin]
  have hmoved : ∀ {s'' : Firmware} {pc b}, pc.inside = b →
      (s''.set_caller c pc).inside (.caller c) = b := by
    intro s'' pc b hpc
    show ((s''.set_caller c pc).callers c).inside = b
    rw [set_caller_same, hpc]
  cases h with
  -- outside the section
  | call q pc => exact (caller_outside pc).lockInv hs
  | leave res pc => exact (caller_outside pc).lockInv hs
  -- in, within, and out again
  | lock q pc free => exact hs.acquire (caller_moves c _) free (hmoved rfl)
  | accept _ _ pc _ | reject _ pc _ | decide _ _ _ pc =>
    exact hs.inside_step (caller_moves c _) (hinside pc rfl) (hmoved rfl)
  | unlock _ pc | refuse _ _ pc =>
    exact hs.release (caller_moves c _) (hinside pc rfl) (hmoved rfl)

theorem lockInv_step (s : Firmware) (a : Label) (s' : Firmware) (hs : LockInv s)
    (h : step s a = some s') : LockInv s' := by
  cases a with
  | tick _ | disturb _ =>
    obtain rfl := Option.some.inj h
    exact hs
  | task act => exact (task_step_inv h).lockInv hs
  | manual c act => exact (manual_step_inv h).lockInv hs
  | settings c act => exact (settings_step_inv h).outside.lockInv hs

theorem lockInv_boot (nvs : NvsBlob) (clock_us : Nat) : LockInv (boot nvs clock_us) := by
  intro o
  cases o <;> simp [boot, Firmware.inside, TaskPc.inside, CallerPc.inside]

/-! ## The settings -/

/-- The settings a caller of `settings_set` carries, clamped already. -/
def CallerPc.carries : CallerPc → Option Settings
  | .set_called v | .set_locked v | .set_applied v | .set_opened v | .set_written v
  | .set_saved v _ | .set_returned v _ => some v
  | _ => none

/-- Every copy of the settings is consistent. -/
structure SettingsInv (s : Firmware) : Prop where
  current : s.s_settings.Valid
  carried : ∀ c v, (s.callers c).carries = some v → v.Valid

/-- A step that leaves the settings and the callers alone. -/
theorem SettingsInv.keep {s s' : Firmware} (hs : SettingsInv s)
    (hsettings : s'.s_settings = s.s_settings := by rfl)
    (hcallers : s'.callers = s.callers := by rfl) : SettingsInv s' := by
  refine ⟨?_, ?_⟩
  · rw [hsettings]
    exact hs.current
  · intro c v hv
    rw [hcallers] at hv
    exact hs.carried c v hv

/-- A caller goes on with consistent settings, or with none. -/
theorem SettingsInv.caller {s s' : Firmware} {c : Nat} {pc : CallerPc} (hs : SettingsInv s)
    (hsettings : s'.s_settings.Valid) (hpc : ∀ v, pc.carries = some v → v.Valid)
    (hcallers : s'.callers = s.callers := by rfl) : SettingsInv (s'.set_caller c pc) := by
  refine ⟨hsettings, ?_⟩
  intro c' v hv
  by_cases h : c' = c
  · subst h
    rw [set_caller_same] at hv
    exact hpc v hv
  · rw [set_caller_other s' h, hcallers] at hv
    exact hs.carried c' v hv

theorem TaskStep.settingsInv {s s' : Firmware} {act : TaskAct} (h : TaskStep s act s')
    (hs : SettingsInv s) : SettingsInv s' := by
  cases h with
  | start _ =>
    unfold Firmware.task_start
    split <;> exact hs.keep
  | history it on _ =>
    unfold Firmware.task_history
    split
    · split <;> exact hs.keep
    · exact hs.keep
  | sample _ _ | lock _ _ _ _ | sensor _ _ _ | decide _ _ _ _ _ | relay _ _ | unlock _ _ =>
    exact hs.keep

theorem ManualStep.settingsInv {s s' : Firmware} {c : Nat} {act : ManualAct}
    (h : ManualStep s c act s') (hs : SettingsInv s) : SettingsInv s' := by
  cases h <;> exact hs.caller hs.current (by simp [CallerPc.carries])

theorem SetStep.settingsInv {s s' : Firmware} {c : Nat} {act : SetAct}
    (h : SetStep s c act s') (hs : SettingsInv s) : SettingsInv s' := by
  -- what the caller carries on is what it carried before
  have hsame : ∀ {v : Settings}, (s.callers c).carries = some v →
      ∀ {pc : CallerPc}, pc.carries = some v → ∀ w, pc.carries = some w → w.Valid := by
    intro v hv pc hpc w hw
    obtain rfl : v = w := by simpa [hpc] using hw
    exact hs.carried c v hv
  cases h with
  | call v _ =>
    -- the one place where new settings come in: they are clamped first
    refine hs.caller hs.current fun w hw => ?_
    obtain rfl : sanitize v = w := by simpa [CallerPc.carries] using hw
    exact sanitize_valid v
  | apply v pc =>
    have hv : v.Valid := hs.carried c v (by rw [pc]; rfl)
    exact hs.caller hv (hsame (by rw [pc]; rfl) rfl)
  | nvs_open v ok pc | nvs_set_blob v ok _ pc =>
    exact hs.caller hs.current (hsame (v := v) (by rw [pc]; rfl) (by cases ok <;> rfl))
  | lock _ pc _ | nvs_commit _ _ _ pc | unlock _ _ pc =>
    exact hs.caller hs.current (hsame (by rw [pc]; rfl) rfl)
  | leave v ok _ => exact hs.caller hs.current (by simp [CallerPc.carries])

theorem settingsInv_step (s : Firmware) (a : Label) (s' : Firmware) (hs : SettingsInv s)
    (h : step s a = some s') : SettingsInv s' := by
  cases a with
  | tick _ | disturb _ =>
    obtain rfl := Option.some.inj h
    exact hs.keep
  | task act => exact (task_step_inv h).settingsInv hs
  | manual c act => exact (manual_step_inv h).settingsInv hs
  | settings c act => exact (settings_step_inv h).settingsInv hs

theorem settingsInv_boot (nvs : NvsBlob) (clock_us : Nat) : SettingsInv (boot nvs clock_us) :=
  ⟨settings_init_valid nvs, by simp [boot, CallerPc.carries]⟩

/-- In every state the firmware reaches, every copy of the settings is
    consistent. -/
theorem firmware_settings {acts : List Label} {s : Firmware} (h : Run firmware acts s) :
    SettingsInv s := by
  refine h.invariant ?_ settingsInv_step
  intro s hs
  obtain ⟨nvs, clock_us, rfl⟩ := hs
  exact settingsInv_boot nvs clock_us

/-! ## The task inside -/

/-- How far `control_task` has taken the device it found. -/
def TaskSection (d dev : Device) : TaskPc → Prop
  | .locked _ _ => dev = d
  | .sensed now_s rd r =>
    (dev, r) = iteration_sensor d now_s rd ∧ ∀ x, rd = some x → x.settings.Valid
  | .decided it | .relayed it =>
    dev = (decide_locked (iteration_sensor d it.now_s it.read).1 it.settings it.wall it.now_s
        (iteration_sensor d it.now_s it.read).2 none).1 ∧
      (Section.iteration it).Sane
  | _ => False

/-- How far a caller of `control_manual` has taken the device it found. -/
def CallerSection (d dev : Device) : CallerPc → Prop
  | .manual_locked _ => dev = d
  | .manual_accepted q now_s =>
    ∃ st, ctl_manual d.s_state q.manual q.clamped_s now_s = some st ∧
      dev = { d with s_state := st }
  | .manual_refused q now_s =>
    ctl_manual d.s_state q.manual q.clamped_s now_s = none ∧ dev = d
  | .manual_decided cmd => SectionStep d (.command cmd) dev ∧ (Section.command cmd).Sane
  | _ => False

/-- The device was `d` when `s_lock` was last free. -/
def InSection (s : Firmware) (d : Device) : Prop :=
  match s.s_lock with
  | none => s.dev = d
  | some .task => TaskSection d s.dev s.task
  | some (.caller c) => CallerSection d s.dev (s.callers c)

theorem InSection.free {s : Firmware} {d : Device} (h : InSection s d) (hlock : s.s_lock = none) :
    s.dev = d := by
  unfold InSection at h
  rwa [hlock] at h

theorem InSection.in_task {s : Firmware} {d : Device} (h : InSection s d)
    (hlock : s.s_lock = some .task) : TaskSection d s.dev s.task := by
  unfold InSection at h
  rwa [hlock] at h

theorem InSection.in_caller {s : Firmware} {d : Device} {c : Nat} (h : InSection s d)
    (hlock : s.s_lock = some (.caller c)) : CallerSection d s.dev (s.callers c) := by
  unfold InSection at h
  rwa [hlock] at h

/-- Nothing the section depends on has changed. -/
theorem InSection.frame {s s' : Firmware} {d : Device} (h : InSection s d)
    (hlock : s'.s_lock = s.s_lock) (hdev : s'.dev = s.dev)
    (htask : s.s_lock = some .task → s'.task = s.task)
    (hcaller : ∀ c, s.s_lock = some (.caller c) → s'.callers c = s.callers c) :
    InSection s' d := by
  unfold InSection
  rw [hlock, hdev]
  match hl : s.s_lock with
  | none => exact h.free hl
  | some .task =>
    rw [htask hl]
    exact h.in_task hl
  | some (.caller c) =>
    show CallerSection d s.dev (s'.callers c)
    rw [hcaller c hl]
    exact h.in_caller hl

/-- A step of someone outside does not touch the section of the one inside. -/
theorem OutsideStep.inSection {s s' : Firmware} {o : Owner} (h : OutsideStep s o s')
    (hs : LockInv s) {d : Device} (hd : InSection s d) : InSection s' d := by
  -- the one who holds the lock is someone else
  have hother : ∀ o', s.s_lock = some o' → o ≠ o' := by
    intro o' hlock heq
    have hin : s.inside o = true := (hs o).mpr (heq ▸ hlock)
    rw [h.before] at hin
    exact Bool.false_ne_true hin
  apply hd.frame h.lock h.dev
  · intro hlock
    exact h.task (hother .task hlock)
  · intro c hlock
    exact h.callers c (hother (.caller c) hlock)

/-! ## Step by step -/

/-- What the sections see of a step: a release of `s_lock`. -/
def Label.released : Label → Option Section
  | .task (.unlock it) => some (.iteration it)
  | .manual _ (.unlock cmd) => some (.command cmd)
  | .manual _ (.refuse q now_s) => some (.refused q now_s)
  | _ => none

/-- The sections a run of the firmware has completed, in order. -/
def sections_of (acts : List Label) : List Section := acts.filterMap Label.released

/-- The relation of the simulation. -/
structure Refines (s : Firmware) (d : Device) : Prop where
  lock : LockInv s
  settings : SettingsInv s
  inside : InSection s d

/-- What one step does to the device of the last release. -/
def StepRefines (a : Label) (s' : Firmware) (d : Device) : Prop :=
  match a.released with
  | none => InSection s' d
  | some sec => ∃ d', section_step d sec = some d' ∧ InSection s' d'

/-- The task inside has the lock, and is where its section has taken it. -/
theorem Refines.at_task {s : Firmware} {d : Device} (hR : Refines s d) {pc : TaskPc}
    (hpc : s.task = pc) (hin : pc.inside = true) :
    s.s_lock = some .task ∧ TaskSection d s.dev pc := by
  have hlock : s.s_lock = some .task := by
    apply (hR.lock .task).mp
    show s.task.inside = true
    rw [hpc, hin]
  exact ⟨hlock, hpc ▸ hR.inside.in_task hlock⟩

theorem Refines.at_caller {s : Firmware} {d : Device} (hR : Refines s d) {c : Nat}
    {pc : CallerPc} (hpc : s.callers c = pc) (hin : pc.inside = true) :
    s.s_lock = some (.caller c) ∧ CallerSection d s.dev pc := by
  have hlock : s.s_lock = some (.caller c) := by
    apply (hR.lock (.caller c)).mp
    show (s.callers c).inside = true
    rw [hpc, hin]
  exact ⟨hlock, hpc ▸ hR.inside.in_caller hlock⟩

/-- The caller that has the lock moves on within its section. -/
theorem inSection_caller {s : Firmware} {c : Nat} {pc : CallerPc} {d : Device}
    (hlock : s.s_lock = some (.caller c)) (h : CallerSection d s.dev pc) :
    InSection (s.set_caller c pc) d := by
  have hlock' : (s.set_caller c pc).s_lock = some (.caller c) := hlock
  unfold InSection
  rw [hlock']
  show CallerSection d s.dev ((s.set_caller c pc).callers c)
  rw [set_caller_same]
  exact h

/-- The task, which has the lock, moves on within its section. -/
theorem inSection_task {s : Firmware} {d : Device} (hlock : s.s_lock = some .task)
    (h : TaskSection d s.dev s.task) : InSection s d := by
  unfold InSection
  rw [hlock]
  exact h

theorem TaskStep.refines {s s' : Firmware} {act : TaskAct} (h : TaskStep s act s')
    {d : Device} (hR : Refines s d) : StepRefines (.task act) s' d := by
  cases h with
  | start pc => exact (task_start_outside pc).inSection hR.lock hR.inside
  | sample smp pc => exact (task_sample_outside smp pc).inSection hR.lock hR.inside
  | history it on pc => exact (task_history_outside pc).inSection hR.lock hR.inside
  | lock now_s smp pc free => exact hR.inside.free free
  | sensor now_s smp pc =>
    obtain ⟨hlock, hdev⟩ := hR.at_task pc rfl
    have hdev' : s.dev = d := hdev
    apply inSection_task (s := s.task_sensor now_s smp) hlock
    refine ⟨by rw [← hdev']; rfl, ?_⟩
    -- the settings the read was judged by are those of now
    intro rd hrd
    obtain ⟨-, -, rfl⟩ := Option.map_eq_some_iff.mp hrd
    exact hR.settings.current
  | decide now_s rd r wall pc =>
    -- the settings of now again: a save may have come in since the read
    obtain ⟨hlock, hdev, hread⟩ := hR.at_task pc rfl
    apply inSection_task (s := s.task_decide now_s rd r wall) hlock
    refine ⟨?_, hR.settings.current, hread⟩
    show (decide_locked s.dev s.s_settings wall now_s r none).1 = _
    rw [← hdev]
  | relay it pc =>
    obtain ⟨hlock, hdone⟩ := hR.at_task pc rfl
    exact inSection_task hlock hdone
  | unlock it pc =>
    -- the whole section at once: with the heartbeat it is `control_iteration`
    obtain ⟨-, hdev, hsane⟩ := hR.at_task pc rfl
    refine ⟨control_iteration d it, (SectionStep.iteration it).step hsane, ?_⟩
    show { s.dev with s_heartbeat_s := it.now_s } = control_iteration d it
    rw [hdev, control_iteration_eq]

theorem ManualStep.refines {s s' : Firmware} {c : Nat} {act : ManualAct}
    (h : ManualStep s c act s') {d : Device} (hR : Refines s d) :
    StepRefines (.manual c act) s' d := by
  cases h with
  | call q pc =>
    exact (caller_outside pc).inSection hR.lock hR.inside
  | leave res pc =>
    exact (caller_outside pc).inSection hR.lock hR.inside
  | lock q pc free =>
    have hdev : s.dev = d := hR.inside.free free
    exact inSection_caller (s := { s with s_lock := some (.caller c) }) rfl hdev
  | accept q st pc accepted =>
    obtain ⟨hlock, hdev⟩ := hR.at_caller pc rfl
    have hdev' : s.dev = d := hdev
    apply inSection_caller (s := { s with dev := { s.dev with s_state := st } }) hlock
    exact ⟨st, hdev' ▸ accepted, by rw [← hdev']⟩
  | reject q pc refused =>
    obtain ⟨hlock, hdev⟩ := hR.at_caller pc rfl
    have hdev' : s.dev = d := hdev
    exact inSection_caller hlock ⟨hdev' ▸ refused, hdev'⟩
  | decide q now_s wall pc =>
    obtain ⟨hlock, st, hst, hdev⟩ := hR.at_caller pc rfl
    show InSection (s.manual_decide c q now_s wall) d
    unfold Firmware.manual_decide
    refine inSection_caller hlock ⟨?_, hR.settings.current⟩
    show SectionStep d _ (decide_locked s.dev s.s_settings wall now_s {} (some q.detail)).1
    rw [hdev]
    exact .command ⟨q, now_s, s.s_settings, wall⟩ st hst
  | unlock cmd pc =>
    obtain ⟨-, hstep, hsane⟩ := hR.at_caller pc rfl
    exact ⟨s.dev, hstep.step hsane, rfl⟩
  | refuse q now_s pc =>
    obtain ⟨-, hrefused, hdev⟩ := hR.at_caller pc rfl
    exact ⟨d, (SectionStep.refused q now_s hrefused).step trivial, hdev⟩

theorem SetStep.refines {s s' : Firmware} {c : Nat} {act : SetAct} (h : SetStep s c act s')
    {d : Device} (hR : Refines s d) : StepRefines (.settings c act) s' d :=
  h.outside.inSection hR.lock hR.inside

theorem step_refines {s s' : Firmware} {a : Label} (h : step s a = some s') {d : Device}
    (hR : Refines s d) : StepRefines a s' d := by
  cases a with
  | tick _ | disturb _ =>
    obtain rfl := Option.some.inj h
    exact hR.inside.frame rfl rfl (fun _ => rfl) (fun _ _ => rfl)
  | task act => exact (task_step_inv h).refines hR
  | manual c act => exact (manual_step_inv h).refines hR
  | settings c act => exact (settings_step_inv h).refines hR

/-- **Atomicity.**  The completed sections of a run of the firmware are a run
    of the atomic device from the same boot, which is where the firmware's
    device was when `s_lock` was last free. -/
theorem firmware_refines_sections {nvs : NvsBlob} {clock_us : Nat} {acts : List Label}
    {s : Firmware} (h : firmware.exec (boot nvs clock_us) acts = some s) :
    ∃ d, sections.exec (boot nvs clock_us).dev (sections_of acts) = some d ∧ Refines s d := by
  have hboot : Refines (boot nvs clock_us) (boot nvs clock_us).dev :=
    ⟨lockInv_boot nvs clock_us, settingsInv_boot nvs clock_us, rfl⟩
  refine exec_simulation Label.released Refines ?_ ?_ hboot h
  · -- a step the sections do not see
    intro s a s' d hR hstep hhidden
    have hinside := step_refines hstep hR
    unfold StepRefines at hinside
    rw [hhidden] at hinside
    exact ⟨lockInv_step s a s' hR.lock hstep, settingsInv_step s a s' hR.settings hstep, hinside⟩
  · -- a release
    intro s a s' d sec hR hstep hreleased
    have hinside := step_refines hstep hR
    unfold StepRefines at hinside
    rw [hreleased] at hinside
    obtain ⟨d', hsec, hinside⟩ := hinside
    exact ⟨d', hsec, lockInv_step s a s' hR.lock hstep,
      settingsInv_step s a s' hR.settings hstep, hinside⟩

/-- At every moment `s_lock` is free, the device is where the completed
    sections lead. -/
theorem firmware_free_exec {nvs : NvsBlob} {clock_us : Nat} {acts : List Label} {s : Firmware}
    (h : firmware.exec (boot nvs clock_us) acts = some s) (hfree : s.s_lock = none) :
    sections.exec (control_start (boot nvs clock_us).mono_s) (sections_of acts) = some s.dev := by
  obtain ⟨d, hexec, hR⟩ := firmware_refines_sections h
  rw [hR.inside.free hfree]
  exact hexec

theorem firmware_free {acts : List Label} {s : Firmware} (h : Run firmware acts s)
    (hfree : s.s_lock = none) : Run sections (sections_of acts) s.dev := by
  obtain ⟨s₀, ⟨nvs, clock_us, rfl⟩, hexec⟩ := h.exists_exec
  exact Run.of_exec ⟨_, rfl⟩ (firmware_free_exec hexec hfree)

/-- The settings of all completed sections are consistent. -/
theorem firmware_sane {acts : List Label} {s : Firmware} (h : Run firmware acts s) :
    ∀ sec ∈ sections_of acts, sec.Sane := by
  obtain ⟨s₀, ⟨nvs, clock_us, rfl⟩, hexec⟩ := h.exists_exec
  obtain ⟨d, hd, -⟩ := firmware_refines_sections hexec
  exact sections_sane (Run.of_exec ⟨_, rfl⟩ hd)

/-- Every iteration of a run is the atomic one, on the device the sections
    before it have left. -/
theorem firmware_iteration {acts : List Label} {it : Iteration} {s : Firmware}
    (h : Run firmware (acts ++ [.task (.unlock it)]) s) :
    ∃ d, Run sections (sections_of acts) d ∧ s.dev = control_iteration d it := by
  have hfree : s.s_lock = none := by
    obtain ⟨s₁, -, hstep⟩ := h.unsnoc
    have hunlock : task_step s₁ (.unlock it) = some s := hstep
    cases task_step_inv hunlock with
    | unlock it _ => rfl
  have hrun := firmware_free h hfree
  have hsecs : sections_of (acts ++ [.task (.unlock it)]) =
      sections_of acts ++ [.iteration it] := by
    simp [sections_of, Label.released]
  rw [hsecs] at hrun
  obtain ⟨d, hd, hstep⟩ := hrun.unsnoc
  exact ⟨d, hd, (section_step_inv hstep).2.iteration_eq⟩

end FloorHeating
