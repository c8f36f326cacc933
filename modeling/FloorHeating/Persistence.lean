import FloorHeating.Atomicity
import FloorHeating.Lib.PastTime

/-! # RAM and flash thresholds agree

    `settings_set` holds `s_write_lock` while it applies the new thresholds
    and saves them, so the callers take effect one after the other, in the
    order in which they take the lock.  Whatever fails in a save, the RAM has
    the thresholds of the last caller; the flash has those of a caller that
    got as far as writing, or what it had at boot; and a reload leaves
    thresholds that were clamped before they were stored as they are. -/

namespace FloorHeating

open LTS Mutex PastTime

/-! ## The callers in lock order -/

/-- What a call of `settings_set` by `c` was given. -/
def call_of (c : Nat) : Label → Option Settings
  | .settings c' (.call v) => if c' = c then some v else none
  | _ => none

/-- The input of the latest call by `c`. -/
def latest_call (past : List Label) (c : Nat) : Option Settings :=
  (past.filterMap (call_of c)).getLast?

/-- The input of the caller that takes `s_write_lock` in this step. -/
def taken_by (past : List Label) : Label → Option Settings
  | .settings c .lock => latest_call past c
  | _ => none

/-- The inputs of the callers of `settings_set`, in the order in which they
    took the lock. -/
def lock_order (acts : List Label) : List Settings := (withPast taken_by acts).filterMap id

/-- What a caller returns when it gives the lock back: the thresholds it has
    applied, and whether they were saved (`ESP_OK`). -/
def save_result (s : Firmware) : Label → Option (Settings × Bool)
  | .settings c .unlock => match s.callers c with
    | .set_saved v ok => some (v, ok)
    | _ => none
  | _ => none

/-- The thresholds a step applies. -/
def applied_by (s : Firmware) : Label → Option Settings
  | .settings c .apply => match s.callers c with
    | .set_locked v => some v
    | _ => none
  | _ => none

/-- The results of all saves, in order. -/
def save_results (nvs : NvsBlob) (clock_us : Nat) (acts : List Label) : List (Settings × Bool) :=
  firmware.trace save_result (boot nvs clock_us) acts

/-- All thresholds that were applied, in order. -/
def applied (nvs : NvsBlob) (clock_us : Nat) (acts : List Label) : List Settings :=
  firmware.trace applied_by (boot nvs clock_us) acts

/-- The caller is between taking and giving back `s_write_lock`. -/
def CallerPc.saving : CallerPc → Bool
  | .set_locked _ | .set_applied _ | .set_opened _ | .set_written _ | .set_saved _ _ => true
  | _ => false

theorem lock_order_concat (acts : List Label) (a : Label) :
    lock_order (acts ++ [a]) = lock_order acts ++ (taken_by acts a).toList := by
  rw [lock_order, withPast_concat, List.filterMap_append, lock_order]
  cases taken_by acts a <;> rfl

theorem latest_call_concat (acts : List Label) (a : Label) (c : Nat) :
    latest_call (acts ++ [a]) c = (call_of c a).or (latest_call acts c) := by
  unfold latest_call
  cases h : call_of c a <;> simp [h]

/-! ## What holds between and within the saves -/

/-- The history of the saves: the inputs in lock order, the results, and what
    was applied. -/
structure SaveLog where
  order : List Settings
  results : List (Settings × Bool)
  applied : List Settings

/-- The thresholds after saves with these results. -/
def SaveLog.current (log : SaveLog) (loaded : Settings) : Settings :=
  (log.results.map Prod.fst).getLast?.getD loaded

/-- How far the caller that has the lock has come with its thresholds `v`. -/
def SavingAt (loaded : Settings) (log : SaveLog) (s : Firmware) (v : Settings) : CallerPc → Prop
  | .set_locked w => w = v ∧ s.s_settings = log.current loaded
  | .set_applied w | .set_opened w | .set_written w =>
    w = v ∧ s.s_settings = v ∧ v ∈ log.applied
  | .set_saved w ok =>
    w = v ∧ s.s_settings = v ∧ v ∈ log.applied ∧ (ok = true → s.nvs = .stored v)
  | _ => False

/-- Between two saves: every caller that has had the lock is done with it. -/
structure Saved (loaded : Settings) (log : SaveLog) (s : Firmware) : Prop where
  order : log.order.map sanitize = log.results.map Prod.fst
  current : s.s_settings = log.current loaded
  flash : ∀ v, log.results.getLast? = some (v, true) → s.nvs = .stored v

/-- Within a save: the last one in lock order has the lock. -/
def Saving (loaded : Settings) (log : SaveLog) (s : Firmware) (pc : CallerPc) : Prop :=
  ∃ v, log.order.map sanitize = log.results.map Prod.fst ++ [v] ∧ v.Valid ∧
    SavingAt loaded log s v pc

structure SaveInv (nvs : NvsBlob) (log : SaveLog) (s : Firmware) : Prop where
  lock : Held s.s_write_lock fun c => (s.callers c).saving
  free : s.s_write_lock = none → Saved (settings_init nvs) log s
  busy : ∀ c, (s.callers c).saving = true → Saving (settings_init nvs) log s (s.callers c)
  flash : s.nvs = nvs ∨ ∃ v ∈ log.applied, s.nvs = .stored v
  valid : ∀ v ∈ log.applied, v.Valid

theorem saveInv_boot (nvs : NvsBlob) (clock_us : Nat) :
    SaveInv nvs ⟨[], [], []⟩ (boot nvs clock_us) where
  lock := by
    intro c
    simp [boot, CallerPc.saving]
  free := fun _ => ⟨rfl, rfl, by simp⟩
  busy := by
    intro c h
    simp [boot, CallerPc.saving] at h
  flash := Or.inl rfl
  valid := by simp

/-! ## Steps that are no part of a save -/

/-- The step does not touch the settings, and moves nobody who is saving. -/
structure SettingsFrame (s s' : Firmware) : Prop where
  settings : s'.s_settings = s.s_settings := by rfl
  nvs : s'.nvs = s.nvs := by rfl
  write_lock : s'.s_write_lock = s.s_write_lock := by rfl
  callers : ∀ c, s'.callers c = s.callers c ∨
    (s.callers c).saving = false ∧ (s'.callers c).saving = false := by exact fun _ => Or.inl rfl

theorem TaskStep.settings_frame {s s' : Firmware} {act : TaskAct} (h : TaskStep s act s') :
    SettingsFrame s s' := by
  cases h with
  | start pc =>
    unfold Firmware.task_start
    split <;> exact {}
  | history it on pc =>
    unfold Firmware.task_history
    split
    · split <;> exact {}
    · exact {}
  | sample _ _ | lock _ _ _ _ | sensor _ _ _ | decide _ _ _ _ _ | relay _ _ | unlock _ _ => exact {}

/-- A caller moves on outside a save. -/
theorem settingsFrame_caller {s s' : Firmware} {c : Nat} {old pc : CallerPc}
    (hold : s.callers c = old) (hbefore : old.saving = false := by rfl)
    (hafter : pc.saving = false := by rfl)
    (hsettings : s'.s_settings = s.s_settings := by rfl) (hnvs : s'.nvs = s.nvs := by rfl)
    (hlock : s'.s_write_lock = s.s_write_lock := by rfl)
    (hcallers : s'.callers = s.callers := by rfl) : SettingsFrame s (s'.set_caller c pc) := by
  refine ⟨hsettings, hnvs, hlock, ?_⟩
  intro c'
  by_cases hc : c' = c
  · rw [hc, set_caller_same, hold]
    exact Or.inr ⟨hbefore, hafter⟩
  · rw [set_caller_other s' hc, hcallers]
    exact Or.inl rfl

theorem ManualStep.settings_frame {s s' : Firmware} {c : Nat} {act : ManualAct}
    (h : ManualStep s c act s') : SettingsFrame s s' := by
  cases h with
  | call _ pc | lock _ pc _ | accept _ _ pc _ | reject _ pc _ | decide _ _ _ pc | unlock _ pc
  | refuse _ _ pc | leave _ pc => exact settingsFrame_caller pc

/-- Who is saving is where it was. -/
theorem SettingsFrame.saving {s s' : Firmware} (h : SettingsFrame s s') (c : Nat) :
    (s'.callers c).saving = (s.callers c).saving ∧
      ((s.callers c).saving = true → s'.callers c = s.callers c) := by
  rcases h.callers c with hsame | ⟨hbefore, hafter⟩
  · exact ⟨by rw [hsame], fun _ => hsame⟩
  · refine ⟨by rw [hbefore, hafter], ?_⟩
    intro hsaving
    rw [hbefore] at hsaving
    exact absurd hsaving Bool.false_ne_true

/-- What a save has reached depends on the settings and the flash alone. -/
theorem SavingAt.congr {loaded v : Settings} {log : SaveLog} {s s' : Firmware} {pc : CallerPc}
    (h : SavingAt loaded log s v pc) (hsettings : s'.s_settings = s.s_settings)
    (hnvs : s'.nvs = s.nvs) : SavingAt loaded log s' v pc := by
  cases pc with
  | set_locked _ | set_applied _ | set_opened _ | set_written _ | set_saved _ _ =>
    simpa only [SavingAt, hsettings, hnvs] using h
  | idle | manual_called _ | manual_locked _ | manual_accepted _ _ | manual_refused _ _
  | manual_decided _ | manual_returned _ | set_called _ | set_returned _ _ => exact h

theorem SaveInv.frame {nvs : NvsBlob} {log : SaveLog} {s s' : Firmware} (hs : SaveInv nvs log s)
    (h : SettingsFrame s s') : SaveInv nvs log s' where
  lock := by
    rw [h.write_lock]
    exact hs.lock.keep fun c => (h.saving c).1
  free := by
    intro hfree
    rw [h.write_lock] at hfree
    obtain ⟨horder, hcurrent, hflash⟩ := hs.free hfree
    exact ⟨horder, h.settings ▸ hcurrent, fun v hv => h.nvs ▸ hflash v hv⟩
  busy := by
    intro c hsaving
    rw [(h.saving c).1] at hsaving
    obtain ⟨v, horder, hvalid, hat⟩ := hs.busy c hsaving
    rw [(h.saving c).2 hsaving]
    exact ⟨v, horder, hvalid, hat.congr h.settings h.nvs⟩
  flash := by
    rw [h.nvs]
    exact hs.flash
  valid := hs.valid

/-! ## The steps of a save -/

section save
variable {nvs : NvsBlob} {log : SaveLog} {s : Firmware} (hs : SaveInv nvs log s) {c : Nat}
include hs

/-- The caller that has the lock, and its thresholds. -/
theorem SaveInv.at_saving {pc : CallerPc} (hpc : s.callers c = pc) (hsaving : pc.saving = true) :
    Saving (settings_init nvs) log s pc := by
  have h := hs.busy c (by rw [hpc, hsaving])
  rwa [hpc] at h

/-- The caller that has the lock goes on with its save. -/
theorem SaveInv.go_on {s' : Firmware} {log' : SaveLog} {pc : CallerPc}
    (hbefore : (s.callers c).saving = true) (hafter : pc.saving = true)
    (hsaving : Saving (settings_init nvs) log' s' pc)
    (hflash : s'.nvs = nvs ∨ ∃ v ∈ log'.applied, s'.nvs = .stored v)
    (hvalid : ∀ v ∈ log'.applied, v.Valid)
    (hlock : s'.s_write_lock = s.s_write_lock := by rfl)
    (hcallers : s'.callers = s.callers := by rfl) :
    SaveInv nvs log' (s'.set_caller c pc) where
  lock := by
    show Held s'.s_write_lock _
    rw [hlock]
    refine hs.lock.keep ?_
    intro c'
    by_cases hc : c' = c
    · rw [hc, set_caller_same, hafter, hbefore]
    · rw [set_caller_other s' hc, hcallers]
  free := by
    intro hfree
    have hheld : s.s_write_lock = some c := (hs.lock c).mp hbefore
    rw [← hlock] at hheld
    exact absurd (hheld.symm.trans hfree) (by simp)
  busy := by
    intro c' hsaving'
    by_cases hc : c' = c
    · rw [hc, set_caller_same]
      exact ⟨hsaving.choose, hsaving.choose_spec.1, hsaving.choose_spec.2.1,
        hsaving.choose_spec.2.2.congr rfl rfl⟩
    · -- nobody else has the lock
      rw [set_caller_other s' hc, hcallers] at hsaving'
      exact absurd (hs.lock.unique hsaving' hbefore) hc
  flash := hflash
  valid := hvalid

/-- A caller takes the free lock. -/
theorem SaveInv.take_lock {v w : Settings} (hfree : s.s_write_lock = none)
    (hw : sanitize w = v) :
    SaveInv nvs { log with order := log.order ++ [w] }
      ({ s with s_write_lock := some c }.set_caller c (.set_locked v)) where
  lock := by
    have hnone : Held none fun c => (s.callers c).saving := hfree ▸ hs.lock
    refine hnone.acquire (o := c) ?_ ?_
    · rw [set_caller_same]
      rfl
    · intro c' hc
      rw [set_caller_other _ hc]
  free := fun h => absurd h (by simp [Firmware.set_caller])
  busy := by
    obtain ⟨horder, hcurrent, -⟩ := hs.free hfree
    intro c' hsaving
    by_cases hc : c' = c
    · rw [hc, set_caller_same]
      refine ⟨v, ?_, hw ▸ sanitize_valid w, rfl, hcurrent⟩
      rw [List.map_append, horder, List.map_singleton, hw]
    · rw [set_caller_other _ hc] at hsaving
      have hnone : Held none fun c => (s.callers c).saving := hfree ▸ hs.lock
      have hout : (s.callers c').saving = false := hnone.outside c'
      exact absurd hsaving (by simp [hout])
  flash := hs.flash
  valid := hs.valid

/-- A caller is done, and gives the lock back. -/
theorem SaveInv.give_lock {v : Settings} {ok : Bool} (hpc : s.callers c = .set_saved v ok) :
    SaveInv nvs { log with results := log.results ++ [(v, ok)] }
      ({ s with s_write_lock := none }.set_caller c (.set_returned v ok)) where
  lock := by
    have hbefore : (s.callers c).saving = true := by
      rw [hpc]
      rfl
    refine hs.lock.release (o := c) hbefore ?_ ?_
    · rw [set_caller_same]
      rfl
    · intro c' hc
      rw [set_caller_other _ hc]
  free := by
    intro _
    obtain ⟨u, horder, -, rfl, hsettings, -, hflash⟩ := hs.at_saving hpc rfl
    refine ⟨?_, ?_, ?_⟩
    · rw [horder, List.map_append]
      rfl
    · show s.s_settings = _
      simp [SaveLog.current, hsettings]
    · intro w hw
      obtain ⟨rfl, rfl⟩ : v = w ∧ ok = true := by simpa using hw
      exact hflash rfl
  busy := by
    intro c' hsaving
    by_cases hc : c' = c
    · rw [hc, set_caller_same] at hsaving
      simp [CallerPc.saving] at hsaving
    · rw [set_caller_other _ hc] at hsaving
      have hbefore : (s.callers c).saving = true := by
        rw [hpc]
        rfl
      exact absurd (hs.lock.unique hsaving hbefore) hc
  flash := hs.flash
  valid := hs.valid

/-- What a write leaves in the flash is what was there, or what was written. -/
theorem SaveInv.flash_write {v : Settings} (hv : v ∈ log.applied) (stored : Bool) :
    nvs_write s.nvs v stored = nvs ∨ ∃ w ∈ log.applied, nvs_write s.nvs v stored = .stored w := by
  cases stored with
  | true => exact Or.inr ⟨v, hv, rfl⟩
  | false => exact hs.flash

end save

/-- The history after one more step. -/
def SaveLog.step (log : SaveLog) (past : List Label) (s : Firmware) (a : Label) : SaveLog where
  order := log.order ++ (taken_by past a).toList
  results := log.results ++ (save_result s a).toList
  applied := log.applied ++ (applied_by s a).toList

theorem SaveLog.step_none {log : SaveLog} {past : List Label} {s : Firmware} {a : Label}
    (htaken : taken_by past a = none := by rfl) (hresult : save_result s a = none := by rfl)
    (happlied : applied_by s a = none := by rfl) : log.step past s a = log := by
  simp [SaveLog.step, htaken, hresult, happlied]

/-- Callers that wait for the lock carry their clamped input. -/
def CalledInv (past : List Label) (s : Firmware) : Prop :=
  ∀ c v, s.callers c = .set_called v → ∃ w, latest_call past c = some w ∧ sanitize w = v

theorem SetStep.saveInv {s s' : Firmware} {c : Nat} {act : SetAct} (h : SetStep s c act s')
    {nvs : NvsBlob} {log : SaveLog} (hs : SaveInv nvs log s) {past : List Label}
    (hcalled : CalledInv past s) : SaveInv nvs (log.step past s (.settings c act)) s' := by
  cases h with
  | call v pc =>
    rw [SaveLog.step_none]
    exact hs.frame (settingsFrame_caller pc)
  | lock v pc free =>
    obtain ⟨w, hlatest, hw⟩ := hcalled c v pc
    have hstep : log.step past s (.settings c .lock) = { log with order := log.order ++ [w] } := by
      simp [SaveLog.step, taken_by, save_result, applied_by, hlatest]
    rw [hstep]
    exact hs.take_lock free hw
  | apply v pc =>
    obtain ⟨u, horder, hvalid, rfl, -⟩ := hs.at_saving pc rfl
    have hstep : log.step past s (.settings c .apply) =
        { log with applied := log.applied ++ [v] } := by
      simp [SaveLog.step, taken_by, save_result, applied_by, pc]
    rw [hstep]
    refine hs.go_on (by rw [pc]; rfl) rfl ⟨v, horder, hvalid, rfl, rfl, by simp⟩ ?_ ?_
    · rcases hs.flash with hold | ⟨w, hw, hstored⟩
      · exact Or.inl hold
      · exact Or.inr ⟨w, by simp [hw], hstored⟩
    · intro w hw
      rcases List.mem_append.mp hw with hw | hw
      · exact hs.valid w hw
      · obtain rfl : w = v := by simpa using hw
        exact hvalid
  | nvs_open v ok pc =>
    obtain ⟨u, horder, hvalid, rfl, hsettings, happlied⟩ := hs.at_saving pc rfl
    rw [SaveLog.step_none]
    cases ok with
    | true =>
      exact hs.go_on (by rw [pc]; rfl) rfl ⟨v, horder, hvalid, rfl, hsettings, happlied⟩
        hs.flash hs.valid
    | false =>
      exact hs.go_on (by rw [pc]; rfl) rfl
        ⟨v, horder, hvalid, rfl, hsettings, happlied, fun hok => nomatch hok⟩ hs.flash hs.valid
  | nvs_set_blob v ok stored pc =>
    obtain ⟨u, horder, hvalid, rfl, hsettings, happlied⟩ := hs.at_saving pc rfl
    rw [SaveLog.step_none]
    cases ok with
    | true =>
      exact hs.go_on (by rw [pc]; rfl) rfl ⟨v, horder, hvalid, rfl, hsettings, happlied⟩
        (hs.flash_write happlied stored) hs.valid
    | false =>
      exact hs.go_on (by rw [pc]; rfl) rfl
        ⟨v, horder, hvalid, rfl, hsettings, happlied, fun hok => nomatch hok⟩
        (hs.flash_write happlied stored) hs.valid
  | nvs_commit v ok stored pc =>
    obtain ⟨u, horder, hvalid, rfl, hsettings, happlied⟩ := hs.at_saving pc rfl
    rw [SaveLog.step_none]
    refine hs.go_on (by rw [pc]; rfl) rfl
      ⟨v, horder, hvalid, rfl, hsettings, happlied, ?_⟩ (hs.flash_write happlied _) hs.valid
    -- a commit that succeeded has reached the flash
    rintro rfl
    rfl
  | unlock v ok pc =>
    have hstep : log.step past s (.settings c .unlock) =
        { log with results := log.results ++ [(v, ok)] } := by
      simp [SaveLog.step, taken_by, save_result, applied_by, pc]
    rw [hstep]
    exact hs.give_lock pc
  | leave v ok pc =>
    rw [SaveLog.step_none]
    exact hs.frame (settingsFrame_caller pc)

/-! ## Whole runs -/

theorem calledInv_boot (nvs : NvsBlob) (clock_us : Nat) : CalledInv [] (boot nvs clock_us) := by
  intro c v h
  simp [boot] at h

/-- A step that is no call brings nobody to the lock. -/
theorem CalledInv.keep {past : List Label} {s s' : Firmware} {a : Label} (h : CalledInv past s)
    (hcallers : ∀ c v, s'.callers c = .set_called v → s.callers c = .set_called v)
    (hcall : ∀ c, call_of c a = none := by exact fun _ => rfl) :
    CalledInv (past ++ [a]) s' := by
  intro c v hpc
  rw [latest_call_concat, hcall, Option.none_or]
  exact h c v (hcallers c v hpc)

/-- The caller that moves is not before the lock after its step. -/
theorem called_set_caller {s s' : Firmware} {c : Nat} {pc : CallerPc}
    (hpc : ∀ v, pc ≠ .set_called v) (hcallers : s'.callers = s.callers := by rfl) :
    ∀ c' v, (s'.set_caller c pc).callers c' = .set_called v → s.callers c' = .set_called v := by
  intro c' v h
  by_cases hc : c' = c
  · rw [hc, set_caller_same] at h
    exact absurd h (hpc v)
  · rwa [set_caller_other s' hc, hcallers] at h

theorem SetStep.calledInv {s s' : Firmware} {c : Nat} {act : SetAct} (h : SetStep s c act s')
    {past : List Label} (hs : CalledInv past s) :
    CalledInv (past ++ [.settings c act]) s' := by
  cases h with
  | call v pc =>
    intro c' w hpc
    rw [latest_call_concat]
    by_cases hc : c' = c
    · rw [hc, set_caller_same] at hpc
      exact ⟨v, by simp [call_of, hc], CallerPc.set_called.inj hpc⟩
    · rw [set_caller_other s hc] at hpc
      have hother : call_of c' (.settings c (.call v)) = none := by simp [call_of, Ne.symm hc]
      rw [hother, Option.none_or]
      exact hs c' w hpc
  | lock _ _ _ | apply _ _ | nvs_commit _ _ _ _ | unlock _ _ _ | leave _ _ _ =>
    exact hs.keep (called_set_caller (by simp))
  | nvs_open _ ok _ | nvs_set_blob _ ok _ _ =>
    exact hs.keep (called_set_caller (by cases ok <;> simp))

theorem ManualStep.calledInv {s s' : Firmware} {c : Nat} {act : ManualAct}
    (h : ManualStep s c act s') {past : List Label} (hs : CalledInv past s) :
    CalledInv (past ++ [.manual c act]) s' := by
  cases h with
  | call _ _ | lock _ _ _ | accept _ _ _ _ | reject _ _ _ | decide _ _ _ _ | unlock _ _
  | refuse _ _ _ | leave _ _ => exact hs.keep (called_set_caller (by simp))

theorem TaskStep.callers {s s' : Firmware} {act : TaskAct} (h : TaskStep s act s') :
    s'.callers = s.callers := by
  cases h with
  | start pc =>
    unfold Firmware.task_start
    split <;> rfl
  | history it on pc =>
    unfold Firmware.task_history
    split
    · split <;> rfl
    · rfl
  | sample _ _ | lock _ _ _ _ | sensor _ _ _ | decide _ _ _ _ _ | relay _ _ | unlock _ _ => rfl

theorem save_step {s s' : Firmware} {a : Label} (h : step s a = some s') {nvs : NvsBlob}
    {log : SaveLog} {past : List Label} (hs : SaveInv nvs log s) (hcalled : CalledInv past s) :
    SaveInv nvs (log.step past s a) s' ∧ CalledInv (past ++ [a]) s' := by
  cases a with
  | tick _ | disturb _ =>
    obtain rfl := Option.some.inj h
    rw [SaveLog.step_none]
    exact ⟨hs.frame {}, hcalled.keep (by simp)⟩
  | task act =>
    have hstep := task_step_inv h
    rw [SaveLog.step_none]
    exact ⟨hs.frame hstep.settings_frame,
      hcalled.keep (by simp [hstep.callers])⟩
  | manual c act =>
    have hstep := manual_step_inv h
    rw [SaveLog.step_none]
    exact ⟨hs.frame hstep.settings_frame, hstep.calledInv hcalled⟩
  | settings c act =>
    have hstep := settings_step_inv h
    exact ⟨hstep.saveInv hs hcalled, hstep.calledInv hcalled⟩

/-- The history of the saves of a run. -/
def save_log (nvs : NvsBlob) (clock_us : Nat) (acts : List Label) : SaveLog where
  order := lock_order acts
  results := save_results nvs clock_us acts
  applied := applied nvs clock_us acts

theorem save_log_concat {nvs : NvsBlob} {clock_us : Nat} {acts : List Label} {s : Firmware}
    (h : firmware.exec (boot nvs clock_us) acts = some s) (a : Label) :
    save_log nvs clock_us (acts ++ [a]) = (save_log nvs clock_us acts).step acts s a := by
  unfold save_log SaveLog.step save_results applied
  rw [lock_order_concat, trace_concat h, trace_concat h]

theorem firmware_saves {nvs : NvsBlob} {clock_us : Nat} {acts : List Label} {s : Firmware}
    (h : firmware.exec (boot nvs clock_us) acts = some s) :
    SaveInv nvs (save_log nvs clock_us acts) s := by
  have hinv : SaveInv nvs (save_log nvs clock_us acts) s ∧ CalledInv acts s := by
    refine history_invariant (P := fun acts s =>
      SaveInv nvs (save_log nvs clock_us acts) s ∧ CalledInv acts s)
      ⟨saveInv_boot nvs clock_us, calledInv_boot nvs clock_us⟩ ?_ h
    intro past s a s' hpast hs hstep
    rw [save_log_concat hpast]
    exact save_step hstep hs.1 hs.2
  exact hinv.1

/-- **RAM and flash agree.**  Whenever nobody is between taking and giving
    back `s_write_lock`, the settings are the clamped input of the last
    caller in lock order, or what was loaded at boot, and if that caller got
    `ESP_OK` a reboot finds the very same thresholds.  At any moment, also in
    the middle of a save, a reboot finds consistent thresholds: the defaults,
    those loaded before, or some that a caller has applied. -/
theorem ram_and_flash_agree (nvs : NvsBlob) (clock_us : Nat) (acts : List Label) (s : Firmware)
    (h : firmware.exec (boot nvs clock_us) acts = some s) :
    ((∀ c, (s.callers c).saving = false) →
        s.s_settings = ((lock_order acts).getLast?.map sanitize).getD (settings_init nvs) ∧
        (save_results nvs clock_us acts).map Prod.fst = (lock_order acts).map sanitize ∧
        ∀ v, (save_results nvs clock_us acts).getLast? = some (v, true) →
          ∀ clock_us', (boot s.nvs clock_us').s_settings = s.s_settings) ∧
      ∀ found clock_us', found = s.nvs ∨ found = .missing →
        (boot found clock_us').s_settings.Valid ∧
        ((boot found clock_us').s_settings = default_settings ∨
          (boot found clock_us').s_settings = (boot nvs clock_us).s_settings ∨
          (boot found clock_us').s_settings ∈ applied nvs clock_us acts) := by
  have hs := firmware_saves h
  refine ⟨?_, ?_⟩
  · intro hnobody
    have hfree : s.s_write_lock = none := by
      cases hlock : s.s_write_lock with
      | none => rfl
      | some c =>
        have hsaving : (s.callers c).saving = true := (hs.lock c).mpr hlock
        rw [hnobody c] at hsaving
        exact absurd hsaving Bool.false_ne_true
    obtain ⟨horder, hcurrent, hflash⟩ := hs.free hfree
    have horder' : (lock_order acts).map sanitize =
      (save_results nvs clock_us acts).map Prod.fst := horder
    refine ⟨?_, horder'.symm, ?_⟩
    · rw [hcurrent, SaveLog.current, ← horder, List.getLast?_map]
      rfl
    · -- the stored thresholds have been clamped before
      intro v hlast clock_us'
      have hstored : s.nvs = .stored v := hflash v hlast
      have hsettings : s.s_settings = v := by
        rw [hcurrent, SaveLog.current, List.getLast?_map]
        simp [save_log, hlast]
      have hmem : v ∈ (lock_order acts).map sanitize := by
        rw [horder']
        exact List.mem_map.mpr ⟨(v, true), List.mem_of_getLast? hlast, rfl⟩
      obtain ⟨w, -, rfl⟩ := List.mem_map.mp hmem
      rw [hstored, hsettings]
      exact sanitize_idempotent w
  · intro found clock_us' hfound
    refine ⟨settings_init_valid found, ?_⟩
    rcases hfound with rfl | rfl
    · rcases hs.flash with hold | ⟨v, hv, hstored⟩
      · exact Or.inr (Or.inl (congrArg settings_init hold))
      · refine Or.inr (Or.inr ?_)
        rw [hstored]
        show sanitize v ∈ _
        rw [sanitize_eq_self_iff.mpr (hs.valid v hv)]
        exact hv
    · exact Or.inl (sanitize_eq_self_iff.mpr default_settings_valid)

/-- A save of thresholds that had to be clamped. -/
theorem ram_and_flash_agree_save :
    ∃ s, firmware.exec (boot .missing 0) (save_labels 0 ⟨300, 290, 310⟩) = some s ∧
      s.s_settings = ⟨300, 280, 350⟩ ∧ (boot s.nvs 0).s_settings = s.s_settings := by
  have hexec : firmware.exec (boot .missing 0) (save_labels 0 ⟨300, 290, 310⟩) = _ :=
    save_exec rfl rfl ⟨300, 290, 310⟩
  obtain ⟨hsettings, -, hreboot⟩ := (ram_and_flash_agree _ _ _ _ hexec).1 (fun _ => rfl)
  exact ⟨_, hexec, hsettings, hreboot ⟨300, 280, 350⟩ rfl 0⟩

end FloorHeating
