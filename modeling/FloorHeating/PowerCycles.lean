import FloorHeating.Persistence
import FloorHeating.Lib.Restart

/-! # Thresholds over power cycles

    The device may lose its power, or be reset by its watchdog, between any
    two steps: the statics are gone, the flash stays, and `app_main` starts
    over with whatever `hi_nvs_init` leaves of the NVS.

    A save that was acknowledged is not undone: whatever comes after it,
    resets included, the device runs on thresholds at least as new, until
    `hi_nvs_init` finds the NVS unusable and erases it.  And nothing but the
    defaults, the first NVS and what callers of `settings_set` have applied is
    ever a source of thresholds.

    Both follow from one invariant, `Among`: every copy of the thresholds
    that can still come into force is in a list that grows with what is
    applied.

    Source: `app_main` (`main.c`), `settings_init`, `settings_set`
    (`settings.c`). -/

namespace FloorHeating

open LTS

/-- What a reset brings: the clock it starts with, and whether `hi_nvs_init`
    has erased the NVS (`nvs_erased`). -/
structure Reset where
  clock_us : Nat
  nvs_erased : Bool
  deriving DecidableEq, Repr

/-- `app_main` again, on what the flash has kept. -/
def Firmware.reset (s : Firmware) (r : Reset) : Firmware :=
  boot (if r.nvs_erased then .missing else s.nvs) r.clock_us

theorem reset_init (s : Firmware) (r : Reset) : firmware.init (s.reset r) :=
  ⟨_, r.clock_us, rfl⟩

/-- The firmware, reset at any moment. -/
def powered : System Firmware (Label ⊕ Reset) := firmware.restarting Firmware.reset

/-- Whatever the resets, the device is in a state the firmware alone reaches. -/
theorem powered_life {acts : List (Label ⊕ Reset)} {s : Firmware} (h : Run powered acts s) :
    ∃ since, Run firmware since s ∧ ∀ a ∈ since, .inl a ∈ acts :=
  Run.life reset_init h

/-- The thresholds applied in a stretch of a run, resets or not. -/
def applied_in (s : Firmware) (acts : List (Label ⊕ Reset)) : List Settings :=
  powered.trace (observed applied_by) s acts

/-! ## The copies of the thresholds -/

/-- The thresholds a caller has applied and not yet reported on. -/
def CallerPc.applied : CallerPc → Option Settings
  | .set_applied v | .set_opened v | .set_written v | .set_saved v _ => some v
  | _ => none

theorem CallerPc.applied_saving {pc : CallerPc} (h : pc.saving = false) : pc.applied = none := by
  cases pc <;> simp_all [CallerPc.saving, CallerPc.applied]

/-- Every copy that is in force, or may be after the next boot, is in `l`.  What
    a caller has not applied yet does not count. -/
structure Among (l : List Settings) (s : Firmware) : Prop where
  current : s.s_settings ∈ l
  flash : settings_init s.nvs ∈ l
  applied : ∀ c w, (s.callers c).applied = some w → w ∈ l
  valid : ∀ w ∈ l, w.Valid
  sane : SettingsInv s

section
variable {l : List Settings} {s s' : Firmware}

/-- A step that is no part of a save. -/
theorem Among.frame (h : Among l s) (hframe : SettingsFrame s s')
    (hsane : SettingsInv s') : Among l s' where
  current := hframe.settings ▸ h.current
  flash := hframe.nvs ▸ h.flash
  applied := by
    intro c w hw
    rcases hframe.callers c with hsame | ⟨-, hafter⟩
    · rw [hsame] at hw
      exact h.applied c w hw
    · rw [CallerPc.applied_saving hafter] at hw
      exact absurd hw (by simp)
  valid := h.valid
  sane := hsane

/-- A caller that has applied its thresholds moves on, with them or done. -/
theorem Among.go_on {c : Nat} {pc : CallerPc} (h : Among l s)
    (hpc : ∀ w, pc.applied = some w → w ∈ l) (hflash : settings_init s'.nvs ∈ l)
    (hsane : SettingsInv (s'.set_caller c pc))
    (hsettings : s'.s_settings = s.s_settings := by rfl)
    (hcallers : s'.callers = s.callers := by rfl) : Among l (s'.set_caller c pc) where
  current := by
    show s'.s_settings ∈ _
    rw [hsettings]
    exact h.current
  flash := hflash
  applied := by
    intro c' w hw
    by_cases hc : c' = c
    · rw [hc, set_caller_same] at hw
      exact hpc w hw
    · rw [set_caller_other s' hc, hcallers] at hw
      exact h.applied c' w hw
  valid := h.valid
  sane := hsane

/-- The flash after a write of thresholds in the list. -/
theorem Among.flash_write (h : Among l s) {w : Settings} (hw : w ∈ l) (stored : Bool) :
    settings_init (nvs_write s.nvs w stored) ∈ l := by
  cases stored with
  | true =>
    -- the next boot has nothing to clamp
    show sanitize w ∈ l
    rwa [sanitize_eq_self_iff.mpr (h.valid w hw)]
  | false => exact h.flash

/-- Nothing was applied. -/
theorem Among.unobserved {a : Label} (h : Among l s') (hnone : applied_by s a = none) :
    Among (l ++ (applied_by s a).toList) s' := by
  rw [hnone]
  simpa using h

/-- The one step that brings new thresholds into force. -/
theorem Among.apply (h : Among l s) {c : Nat} {w : Settings} (hpc : s.callers c = .set_locked w)
    (hsane : SettingsInv ({ s with s_settings := w }.set_caller c (.set_applied w))) :
    Among (l ++ [w]) ({ s with s_settings := w }.set_caller c (.set_applied w)) := by
  have hlast : w ∈ l ++ [w] := by simp
  refine ⟨hlast, List.mem_append_left _ h.flash, ?_, ?_, hsane⟩
  · intro c' u hu
    by_cases hc : c' = c
    · rw [hc, set_caller_same] at hu
      obtain rfl : w = u := Option.some.inj hu
      exact hlast
    · rw [set_caller_other _ hc] at hu
      exact List.mem_append_left _ (h.applied c' u hu)
  · intro u hu
    rcases List.mem_append.mp hu with hu | hu
    · exact h.valid _ hu
    · obtain rfl : u = w := by simpa using hu
      exact h.sane.carried c u (by rw [hpc]; rfl)

theorem SetStep.among {c : Nat} {act : SetAct} (hstep : SetStep s c act s')
    (h : Among l s) (hsane : SettingsInv s') :
    Among (l ++ (applied_by s (.settings c act)).toList) s' := by
  have hmem : ∀ {pc w}, s.callers c = pc → pc.applied = some w → w ∈ l :=
    fun hpc hw => h.applied c _ (hpc ▸ hw)
  have hnone : ∀ {pc : CallerPc} {w}, pc.applied = none → pc.applied = some w → w ∈ l :=
    fun hpc hw => absurd (hpc.symm.trans hw) (by simp)
  have hsame : ∀ {pc : CallerPc} {u w}, u ∈ l → pc.applied = some u →
      pc.applied = some w → w ∈ l :=
    fun hu hpc hw => Option.some.inj (hpc.symm.trans hw) ▸ hu
  cases hstep with
  | apply w pc =>
    have hobs : applied_by s (.settings c .apply) = some w := by simp [applied_by, pc]
    rw [hobs]
    exact h.apply pc hsane
  | call w pc | lock w pc _ | unlock w _ pc | leave w _ pc =>
    refine Among.unobserved ?_ rfl
    exact h.go_on (fun _ => hnone rfl) h.flash hsane
  | nvs_open w ok pc =>
    have hw := hmem pc rfl
    refine Among.unobserved ?_ rfl
    cases ok <;> exact h.go_on (fun _ => hsame hw rfl) h.flash hsane
  | nvs_set_blob w ok stored pc =>
    have hw := hmem pc rfl
    refine Among.unobserved ?_ rfl
    cases ok <;> exact h.go_on (fun _ => hsame hw rfl) (h.flash_write hw stored) hsane
  | nvs_commit w ok stored pc =>
    have hw := hmem pc rfl
    refine Among.unobserved ?_ rfl
    exact h.go_on (fun _ => hsame hw rfl) (h.flash_write hw _) hsane

theorem among_step {a : Label} (h : Among l s) (hstep : step s a = some s') :
    Among (l ++ (applied_by s a).toList) s' := by
  have hsane := settingsInv_step s a s' h.sane hstep
  cases a with
  | tick _ | disturb _ =>
    obtain rfl := Option.some.inj hstep
    exact (h.frame {} hsane).unobserved rfl
  | task act => exact (h.frame (task_step_inv hstep).settings_frame hsane).unobserved rfl
  | manual c act => exact (h.frame (manual_step_inv hstep).settings_frame hsane).unobserved rfl
  | settings c act => exact (settings_step_inv hstep).among h hsane

/-- A reset takes the flash, or the defaults where it is erased. -/
theorem Among.reset {r : Reset} (h : Among l s)
    (hdefault : r.nvs_erased = true → default_settings ∈ l) : Among l (s.reset r) := by
  unfold Firmware.reset
  have hfound : settings_init (if r.nvs_erased then .missing else s.nvs) ∈ l := by
    split
    · exact hdefault ‹_›
    · exact h.flash
  refine ⟨hfound, hfound, ?_, h.valid, settingsInv_boot _ _⟩
  intro c v hv
  simp [boot, CallerPc.applied] at hv

/-- What the next boot brings into force. -/
theorem Among.next_boot (h : Among l s) {r : Reset}
    (hdefault : r.nvs_erased = true → default_settings ∈ l) : (s.reset r).s_settings ∈ l :=
  (h.reset hdefault).current

/-- A stretch of a run adds what is applied in it. -/
theorem among_exec {acts : List (Label ⊕ Reset)} (h : Among l s)
    (hexec : powered.exec s acts = some s')
    (hdefault : ∀ r : Reset, .inr r ∈ acts → r.nvs_erased = true → default_settings ∈ l) :
    Among (l ++ applied_in s acts) s' := by
  have hkept : ∀ more : List Settings, ∀ r : Reset, .inr r ∈ acts → r.nvs_erased = true →
      default_settings ∈ l ++ more :=
    fun more r hr herased => List.mem_append_left _ (hdefault r hr herased)
  refine (restarting_invariant (P := fun l' s => Among l' s ∧ ∃ more, l' = l ++ more)
    ?_ ?_ ⟨h, [], by simp⟩ hexec hdefault).1
  · rintro l' s a s' ⟨h, more, rfl⟩ hstep
    exact ⟨among_step h hstep, _, List.append_assoc _ _ _⟩
  · rintro l' s r hok ⟨h, more, rfl⟩
    exact ⟨h.reset fun herased => List.mem_append_left _ (hok herased), more, rfl⟩

end

/-! ## An acknowledged save -/

/-- The moment a save is acknowledged: RAM and flash both have its thresholds,
    and nobody else is saving. -/
theorem among_saved {acts : List Label} {s s' : Firmware} (h : Run firmware acts s) {c : Nat}
    {v : Settings} (hsaved : save_result s (.settings c .unlock) = some (v, true))
    (hstep : step s (.settings c .unlock) = some s') : Among [v] s' := by
  obtain ⟨s₀, ⟨nvs, clock_us, rfl⟩, hexec⟩ := h.exists_exec
  have hs := firmware_saves hexec
  have hpc : s.callers c = .set_saved v true := by
    simp only [save_result] at hsaved
    split at hsaved
    · rename_i w ok hpc
      obtain ⟨rfl, rfl⟩ : w = v ∧ ok = true := by simpa using hsaved
      exact hpc
    · simp at hsaved
  have hsane := settingsInv_step s _ s' (firmware_settings h) hstep
  obtain ⟨w, -, hvalid, rfl, hsettings, -, hflash⟩ := hs.at_saving hpc rfl
  have hunlock : settings_step s c .unlock = some s' := hstep
  cases settings_step_inv hunlock with
  | unlock u ok pc =>
    have hfound : settings_init s.nvs = v := by
      rw [hflash rfl]
      exact sanitize_eq_self_iff.mpr hvalid
    refine ⟨List.mem_singleton.mpr hsettings, List.mem_singleton.mpr hfound, ?_, ?_, hsane⟩
    · -- `c` gives the lock back, and nobody else had it
      intro c' x hx
      by_cases hc : c' = c
      · rw [hc, set_caller_same] at hx
        exact absurd hx (by simp [CallerPc.applied])
      · rw [set_caller_other _ hc] at hx
        have hout : (s.callers c').saving = false := by
          cases hsaving : (s.callers c').saving with
          | false => rfl
          | true => exact absurd (hs.lock.unique hsaving (by rw [hpc]; rfl)) hc
        have hnone := CallerPc.applied_saving hout
        exact absurd (hnone.symm.trans hx) (by simp)
    · intro x hx
      obtain rfl := List.mem_singleton.mp hx
      exact hvalid

/-- **An acknowledged save is durable.**  From the moment `settings_set` has
    returned `ESP_OK` for the thresholds `v`, whatever the callers, the NVS
    errors and the resets after it, as long as no reset erases the NVS: the
    thresholds in force, and those that the next reset will find, are `v` or
    were applied after it.  Where nothing was, they are `v` itself. -/
theorem acknowledged_save_survives (nvs : NvsBlob) (clock_us : Nat)
    (past later : List (Label ⊕ Reset)) (s s' : Firmware) (c : Nat) (v : Settings)
    (hpast : powered.exec (boot nvs clock_us) past = some s)
    (hsaved : save_result s (.settings c .unlock) = some (v, true))
    (hlater : powered.exec s (.inl (.settings c .unlock) :: later) = some s')
    (hkept : ∀ r, .inr r ∈ later → r.nvs_erased = false) :
    let newer := applied_in s (.inl (.settings c .unlock) :: later)
    (s'.s_settings = v ∨ s'.s_settings ∈ newer) ∧
      (∃ w, (w = v ∨ w ∈ newer) ∧
        ∀ r : Reset, r.nvs_erased = false → (s'.reset r).s_settings = w) ∧
      (newer = [] → s'.s_settings = v ∧
        ∀ r : Reset, r.nvs_erased = false → (s'.reset r).s_settings = v) := by
  intro newer
  obtain ⟨since, hlife, -⟩ := powered_life (Run.of_exec ⟨nvs, clock_us, rfl⟩ hpast)
  obtain ⟨s₁, hunlock, hrest⟩ := Option.bind_eq_some_iff.mp hlater
  have hend : Among (v :: newer) s' := by
    have hnewer : newer = applied_in s₁ later := by
      show powered.trace _ s (_ :: later) = _
      simp only [System.trace, hunlock]
      rfl
    rw [hnewer]
    refine among_exec (among_saved hlife hsaved hunlock) hrest ?_
    intro r hr herased
    rw [hkept r hr] at herased
    exact absurd herased Bool.false_ne_true
  have hboot : ∀ r : Reset, r.nvs_erased = false →
      (s'.reset r).s_settings = settings_init s'.nvs := by
    intro r hr
    rw [Firmware.reset, hr]
    rfl
  refine ⟨List.mem_cons.mp hend.current, ⟨_, List.mem_cons.mp hend.flash, hboot⟩, ?_⟩
  intro hnone
  rw [hnone] at hend
  have hfound := List.mem_singleton.mp hend.flash
  exact ⟨List.mem_singleton.mp hend.current, fun r hr => (hboot r hr).trans hfound⟩

/-- A call of `settings_set` up to the release of the lock. -/
def saving_labels (c : Nat) (v : Settings) : List (Label ⊕ Reset) :=
  [.inl (.settings c (.call v)), .inl (.settings c .lock), .inl (.settings c .apply),
    .inl (.settings c (.nvs_open true)), .inl (.settings c (.nvs_set_blob true false)),
    .inl (.settings c (.nvs_commit true false))]

/-- Two resets after the answer, and a call in between that gets no further
    than the lock. -/
theorem acknowledged_save_survives_resets :
    ∃ s s', powered.exec (boot .missing 0) (saving_labels 0 ⟨320, 290, 310⟩) = some s ∧
      powered.exec s (.inl (.settings 0 .unlock) :: .inr ⟨7, false⟩ ::
        (saving_labels 1 ⟨250, 200, 500⟩).take 2 ++ [.inr ⟨9, false⟩]) = some s' ∧
      s'.s_settings = ⟨320, 290, 370⟩ := by
  obtain ⟨s, hpast, hsaved⟩ : ∃ s,
      powered.exec (boot .missing 0) (saving_labels 0 ⟨320, 290, 310⟩) = some s ∧
        save_result s (.settings 0 .unlock) = some (⟨320, 290, 370⟩, true) :=
    ⟨_, rfl, by decide⟩
  obtain ⟨s', hlater, hnewer⟩ : ∃ s', powered.exec s (.inl (.settings 0 .unlock) ::
      .inr ⟨7, false⟩ :: (saving_labels 1 ⟨250, 200, 500⟩).take 2 ++ [.inr ⟨9, false⟩]) = some s' ∧
      applied_in s (.inl (.settings 0 .unlock) ::
        .inr ⟨7, false⟩ :: (saving_labels 1 ⟨250, 200, 500⟩).take 2 ++ [.inr ⟨9, false⟩]) = [] := by
    obtain rfl := Option.some.inj hpast
    exact ⟨_, rfl, rfl⟩
  have hsurvives := acknowledged_save_survives .missing 0 _ _ s s' 0 _ hpast hsaved hlater
    (by simp [saving_labels])
  exact ⟨s, s', hpast, hlater, (hsurvives.2.2 hnewer).1⟩

/-! ## Where thresholds come from -/

/-- All there is to choose from: the defaults, what the first boot found, and
    what was applied since, in this life of the device or an earlier one. -/
def sources (nvs : NvsBlob) (clock_us : Nat) (acts : List (Label ⊕ Reset)) : List Settings :=
  default_settings :: settings_init nvs :: applied_in (boot nvs clock_us) acts

/-- The thresholds are what one call of `settings_set` asked for, clamped. -/
def Asked (acts : List (Label ⊕ Reset)) (v : Settings) : Prop :=
  ∃ c w, .inl (.settings c (.call w)) ∈ acts ∧ sanitize w = v

theorem Asked.mono {acts more : List (Label ⊕ Reset)} {v : Settings} (h : Asked acts v) :
    Asked (acts ++ more) v := by
  obtain ⟨c, w, hmem, hv⟩ := h
  exact ⟨c, w, List.mem_append_left _ hmem, hv⟩

theorem asked_call (acts : List (Label ⊕ Reset)) (c : Nat) (w : Settings) :
    Asked (acts ++ [.inl (.settings c (.call w))]) (sanitize w) :=
  ⟨c, w, by simp, rfl⟩

/-- What the callers of `settings_set` carry. -/
def Carried (P : Settings → Prop) (s : Firmware) : Prop :=
  ∀ c v, (s.callers c).carries = some v → P v

section
variable {P : Settings → Prop} {s s' : Firmware} {c : Nat}

theorem Carried.caller {pc : CallerPc} (h : Carried P s)
    (hpc : ∀ v, pc.carries = some v → P v) (hcallers : s'.callers = s.callers := by rfl) :
    Carried P (s'.set_caller c pc) := by
  intro c' v hv
  by_cases hc : c' = c
  · rw [hc, set_caller_same] at hv
    exact hpc v hv
  · rw [set_caller_other s' hc, hcallers] at hv
    exact h c' v hv

theorem ManualStep.carried {act : ManualAct} (hstep : ManualStep s c act s') (h : Carried P s) :
    Carried P s' := by
  cases hstep <;> exact h.caller (by simp [CallerPc.carries])

/-- A caller carries what it carried, or what it has just asked for. -/
theorem SetStep.carried {act : SetAct} (hstep : SetStep s c act s') (h : Carried P s)
    (hcall : ∀ w, act = .call w → P (sanitize w)) : Carried P s' := by
  have hsame : ∀ {old pc : CallerPc}, s.callers c = old → pc.carries = old.carries →
      ∀ v, pc.carries = some v → P v := by
    intro old pc hold hpc v hv
    exact h c v (by rw [hold, ← hpc, hv])
  cases hstep with
  | call w _ =>
    refine h.caller fun v hv => ?_
    obtain rfl : sanitize w = v := Option.some.inj hv
    exact hcall w rfl
  | lock _ pc _ | apply _ pc | nvs_commit _ _ _ pc | unlock _ _ pc =>
    exact h.caller (hsame pc rfl)
  | nvs_open _ ok pc | nvs_set_blob _ ok _ pc =>
    exact h.caller (hsame pc (by cases ok <;> rfl))
  | leave _ _ _ => exact h.caller (by simp [CallerPc.carries])

end

/-- What is carried and what was applied was asked for. -/
structure Provenance (nvs : NvsBlob) (clock_us : Nat) (acts : List (Label ⊕ Reset))
    (s : Firmware) : Prop where
  carried : Carried (Asked acts) s
  applied : ∀ v ∈ applied_in (boot nvs clock_us) acts, Asked acts v

theorem carried_step {acts : List (Label ⊕ Reset)} {s s' : Firmware} {a : Label ⊕ Reset}
    (h : Carried (Asked acts) s) (hstep : powered.step s a = some s') :
    Carried (Asked (acts ++ [a])) s' := by
  have h' : Carried (Asked (acts ++ [a])) s := fun c v hv => (h c v hv).mono
  match a with
  | .inr r =>
    obtain rfl : s.reset r = s' := Option.some.inj hstep
    intro c v hv
    simp [Firmware.reset, boot, CallerPc.carries] at hv
  | .inl (.tick _) | .inl (.disturb _) =>
    obtain rfl := Option.some.inj hstep
    exact h'
  | .inl (.task act) =>
    have htask : task_step s act = some s' := hstep
    intro c v hv
    rw [(task_step_inv htask).callers] at hv
    exact h' c v hv
  | .inl (.manual c act) =>
    have hmanual : manual_step s c act = some s' := hstep
    exact (manual_step_inv hmanual).carried h'
  | .inl (.settings c act) =>
    have hset : settings_step s c act = some s' := hstep
    refine (settings_step_inv hset).carried h' ?_
    rintro w rfl
    exact asked_call acts c w

theorem provenance_step {nvs : NvsBlob} {clock_us : Nat} {acts : List (Label ⊕ Reset)}
    {s s' : Firmware} {a : Label ⊕ Reset}
    (hpast : powered.exec (boot nvs clock_us) acts = some s)
    (h : Provenance nvs clock_us acts s) (hstep : powered.step s a = some s') :
    Provenance nvs clock_us (acts ++ [a]) s' := by
  refine ⟨carried_step h.carried hstep, ?_⟩
  intro v hv
  rw [applied_in, trace_concat hpast] at hv
  rcases List.mem_append.mp hv with hv | hv
  · exact (h.applied v hv).mono
  · -- what is applied was carried
    refine (?_ : Asked acts v).mono
    rcases a with a | r
    · have happlied : applied_by s a = some v := by simpa [observed] using hv
      unfold applied_by at happlied
      split at happlied
      · split at happlied
        · rename_i w hpc
          obtain rfl := Option.some.inj happlied
          exact h.carried _ w (by rw [hpc]; rfl)
        · simp at happlied
      · simp at happlied
    · simp [observed] at hv

/-- **Where thresholds come from.**  In every run, with callers interleaved as
    they like, NVS errors and resets at any moment, the thresholds in force
    and those the next reset will find are consistent, and they are the
    defaults, those of the first boot, or what a caller of `settings_set` has
    applied before.  What was only asked for is no source; and what was
    applied is the clamped input of one call, never a mixture of several. -/
theorem thresholds_have_a_source (nvs : NvsBlob) (clock_us : Nat) (acts : List (Label ⊕ Reset))
    (s : Firmware) (h : powered.exec (boot nvs clock_us) acts = some s) :
    (s.s_settings.Valid ∧ s.s_settings ∈ sources nvs clock_us acts) ∧
      (∀ r : Reset, (s.reset r).s_settings.Valid ∧
        (s.reset r).s_settings ∈ sources nvs clock_us acts) ∧
      ∀ v ∈ applied_in (boot nvs clock_us) acts, Asked acts v := by
  have hboot : Among [default_settings, settings_init nvs] (boot nvs clock_us) := by
    refine ⟨by simp [boot], by simp [boot], by simp [boot, CallerPc.applied], ?_,
      settingsInv_boot nvs clock_us⟩
    simp [default_settings_valid, settings_init_valid]
  have hs : Among (sources nvs clock_us acts) s := among_exec hboot h (by simp)
  have hdefault : default_settings ∈ sources nvs clock_us acts := List.mem_cons_self
  have horigin : Provenance nvs clock_us acts s := by
    refine history_invariant (P := fun acts s => Provenance nvs clock_us acts s) ?_ ?_ h
    · exact ⟨by simp [Carried, boot, CallerPc.carries], by simp [applied_in, System.trace]⟩
    · intro past s a s' hpast hs hstep
      exact provenance_step hpast hs hstep
  refine ⟨⟨hs.valid _ hs.current, hs.current⟩, ?_, horigin.applied⟩
  intro r
  have hreset := hs.next_boot fun (_ : r.nvs_erased = true) => hdefault
  exact ⟨hs.valid _ hreset, hreset⟩

/-- A life that ends after the write of a save and before its commit, while
    another caller waits with its own thresholds: the new life has the ones
    that were applied, and not those that were only asked for. -/
theorem thresholds_have_a_source_cut :
    ∃ s, powered.exec (boot (.stored ⟨310, 260, 460⟩) 0)
        (.inl (.settings 1 (.call ⟨250, 200, 500⟩)) :: (saving_labels 0 ⟨320, 290, 310⟩).take 4 ++
          [.inl (.settings 0 (.nvs_set_blob true true)), .inr ⟨7, false⟩]) = some s ∧
      s.s_settings = ⟨320, 290, 370⟩ ∧
      s.s_settings ∈ [default_settings, ⟨310, 260, 460⟩, ⟨320, 290, 370⟩] := by
  obtain ⟨s, hexec, hs⟩ : ∃ s, powered.exec (boot (.stored ⟨310, 260, 460⟩) 0)
      (.inl (.settings 1 (.call ⟨250, 200, 500⟩)) :: (saving_labels 0 ⟨320, 290, 310⟩).take 4 ++
        [.inl (.settings 0 (.nvs_set_blob true true)), .inr ⟨7, false⟩]) = some s ∧
      s.s_settings = ⟨320, 290, 370⟩ := ⟨_, rfl, by decide⟩
  exact ⟨s, hexec, hs, (thresholds_have_a_source _ 0 _ s hexec).1.2⟩

end FloorHeating
