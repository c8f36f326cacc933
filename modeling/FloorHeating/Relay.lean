import FloorHeating.Atomicity

/-! # Relay, decision and flags agree

    Two tasks write the relay pin, each only when a decision has switched the
    pump, and the loop checks the pin once more in every iteration.  So the
    pin shows the pump state at every step, inside and outside the critical
    sections; and where something else has moved it, the next check puts it
    back.

    The pump state, in turn, is at every release of `s_lock` the one that the
    table of rules in the README gives for the flags. -/

namespace FloorHeating

open LTS

/-! ## The table of rules -/

/-- A row of the table: when it applies, and what it makes of the pump. -/
structure Rule where
  applies : CtlState → Bool
  on : Bool
  reason : CtlReason

/-- The rules, each winning over those below it. -/
def priority_table : List Rule := [
  ⟨fun s => s.overheat, true, .overheat⟩,
  ⟨fun s => s.manual = .start, true, .manual_on⟩,
  ⟨fun s => s.manual = .stop, false, .manual_off⟩,
  ⟨fun s => s.sensor_failed, true, .sensor_fail⟩,
  ⟨fun s => s.hot, true, .auto_hot⟩,
  ⟨fun s => s.maintenance, true, .maintenance⟩,
  ⟨fun _ => true, false, .auto_cold⟩]

/-- The rule that wins. -/
def winning_rule (s : CtlState) : Option Rule := priority_table.find? fun rule => rule.applies s

/-- The cascade of the code is the table. -/
theorem winning_rule_eq (s : CtlState) :
    (winning_rule s).map (fun rule => (rule.on, rule.reason)) = some (ctl_rule s) := by
  unfold winning_rule priority_table ctl_rule
  cases ho : s.overheat with
  | true => simp [ho]
  | false =>
    cases hm : s.manual with
    | start => simp [ho, hm]
    | stop => simp [ho, hm]
    | none =>
      cases hf : s.sensor_failed <;> cases hh : s.hot <;> cases hr : s.maintenance <;>
        simp [ho, hm, hf, hh, hr]

/-! ## The pin follows the pump state -/

/-- Nothing but the firmware moves the pin in this step. -/
def Label.undisturbed : Label → Prop
  | .disturb _ => False
  | _ => True

/-- The pin shows the pump state. -/
def RelayFollows (s : Firmware) : Prop := s.relay = s.dev.s_state.on

theorem iteration_sensor_on (d : Device) (now_s : Int) (rd : Option Read) :
    (iteration_sensor d now_s rd).1.s_state.on = d.s_state.on := by
  cases rd with
  | none => rfl
  | some rd =>
    cases hv : rd.valid with
    | false => simp [iteration_sensor, hv, ctl_sensor_bad]
    | true => simp [iteration_sensor, hv, ctl_sensor_good]

theorem ctl_manual_on {s st : CtlState} {m : CtlManual} {duration_s : UInt32} {now_s : Int}
    (h : ctl_manual s m duration_s now_s = some st) : st.on = s.on := by
  unfold ctl_manual at h
  split at h
  · simp at h
  · obtain rfl := Option.some.inj h
    rfl

theorem OutsideStep.relayFollows {s s' : Firmware} {o : Owner} (h : OutsideStep s o s')
    (hs : RelayFollows s) : RelayFollows s' := by
  unfold RelayFollows
  rw [h.relay, h.dev]
  exact hs

theorem TaskStep.relayFollows {s s' : Firmware} {act : TaskAct} (h : TaskStep s act s')
    (hs : RelayFollows s) : RelayFollows s' := by
  cases h with
  | start pc => exact (task_start_outside pc).relayFollows hs
  | sample _ _ | lock _ _ _ _ | unlock _ _ => exact hs
  | sensor now_s smp _ =>
    -- a read moves the flags, not the pump
    show s.relay = (iteration_sensor s.dev now_s _).1.s_state.on
    rw [iteration_sensor_on]
    exact hs
  | decide now_s rd r wall _ => exact decide_relay_follows s.dev s.s_settings wall now_s r none hs
  | relay it _ => exact relay_check_eq s.dev s.relay
  | history it on pc => exact (task_history_outside pc).relayFollows hs

theorem ManualStep.relayFollows {s s' : Firmware} {c : Nat} {act : ManualAct}
    (h : ManualStep s c act s') (hs : RelayFollows s) : RelayFollows s' := by
  unfold RelayFollows at hs ⊢
  cases h with
  | accept q st _ accepted =>
    -- neither does the command itself: the decision comes after it
    show s.relay = st.on
    rw [ctl_manual_on accepted]
    exact hs
  | decide q now_s wall _ =>
    exact decide_relay_follows s.dev s.s_settings wall now_s {} (some q.detail) hs
  | call _ _ | lock _ _ _ | reject _ _ _ | unlock _ _ | refuse _ _ _ | leave _ _ => exact hs

theorem relayFollows_step (s : Firmware) (a : Label) (s' : Firmware) (ha : a.undisturbed)
    (hs : RelayFollows s) (h : step s a = some s') : RelayFollows s' := by
  cases a with
  | tick us =>
    obtain rfl := Option.some.inj h
    exact hs
  | disturb level => exact absurd ha (by simp [Label.undisturbed])
  | task act => exact (task_step_inv h).relayFollows hs
  | manual c act => exact (manual_step_inv h).relayFollows hs
  | settings c act => exact (settings_step_inv h).outside.relayFollows hs

/-- In an undisturbed run the pin shows the pump state in every state. -/
theorem firmware_relay_follows {acts : List Label} {s : Firmware} (h : Run firmware acts s)
    (hacts : ∀ a ∈ acts, a.undisturbed) : RelayFollows s := by
  obtain ⟨s₀, ⟨nvs, clock_us, rfl⟩, hexec⟩ := h.exists_exec
  have hboot : RelayFollows (boot nvs clock_us) := rfl
  exact exec_invariant (P := RelayFollows) relayFollows_step hboot hexec hacts

/-! ## The check puts the pin back -/

/-- The iteration has not come to its check of the pin yet. -/
def TaskPc.before_check : TaskPc → Bool
  | .reading | .ready _ _ | .locked _ _ | .sensed _ _ _ | .decided _ => true
  | _ => false

/-- The pin shows the pump state, or is going to be checked. -/
def RelayChecked (s : Firmware) : Prop := s.task.before_check = true ∨ RelayFollows s

theorem TaskStep.relayChecked {s s' : Firmware} {act : TaskAct} (h : TaskStep s act s')
    (hs : RelayChecked s) : RelayChecked s' := by
  -- a step that starts past the check has the pin at the pump state already
  have hfollows : s.task.before_check = false → RelayChecked s' := by
    intro hpast
    rcases hs with hs | hs
    · simp [hpast] at hs
    · exact Or.inr (h.relayFollows hs)
  cases h with
  | start _ =>
    left
    show s.task_start.task.before_check = true
    unfold Firmware.task_start
    split <;> rfl
  | sample _ _ | lock _ _ _ _ | sensor _ _ _ | decide _ _ _ _ _ => exact Or.inl rfl
  | relay it _ => exact Or.inr (relay_check_eq s.dev s.relay)
  | unlock _ pc | history _ _ pc => exact hfollows (by rw [pc]; rfl)

theorem relayChecked_step (s : Firmware) (a : Label) (s' : Firmware) (ha : a.undisturbed)
    (hs : RelayChecked s) (h : step s a = some s') : RelayChecked s' := by
  -- steps of the others leave the task where it is
  have hother : s'.task = s.task → RelayChecked s' := by
    intro htask
    rcases hs with hs | hs
    · left
      rw [htask]
      exact hs
    · exact Or.inr (relayFollows_step s a s' ha hs h)
  cases a with
  | tick us =>
    obtain rfl := Option.some.inj h
    exact hother rfl
  | disturb level => exact absurd ha (by simp [Label.undisturbed])
  | task act => exact (task_step_inv h).relayChecked hs
  | manual c act =>
    apply hother
    cases manual_step_inv h <;> rfl
  | settings c act =>
    apply hother
    cases settings_step_inv h <;> rfl

/-- An iteration that starts at `s` and runs undisturbed to its release ends
    with the pin at the pump state, whatever it was before. -/
theorem iteration_restores_relay {s s₁ s₂ s₃ : Firmware} {mid : List Label} {it : Iteration}
    (hstart : task_step s .start = some s₁) (hexec : firmware.exec s₁ mid = some s₂)
    (hmid : ∀ a ∈ mid, a.undisturbed) (hunlock : task_step s₂ (.unlock it) = some s₃) :
    RelayFollows s₃ := by
  have hchecked₁ : RelayChecked s₁ := by
    cases task_step_inv hstart with
    | start pc =>
      left
      show s.task_start.task.before_check = true
      unfold Firmware.task_start
      split <;> rfl
  have hchecked₂ : RelayChecked s₂ := exec_invariant relayChecked_step hchecked₁ hexec hmid
  have hchecked₃ : RelayChecked s₃ :=
    relayChecked_step s₂ (.task (.unlock it)) s₃ trivial hchecked₂ hunlock
  cases task_step_inv hunlock with
  | unlock it pc =>
    rcases hchecked₃ with hbefore | hfollows
    · simp [Firmware.task_unlock, TaskPc.before_check] at hbefore
    · exact hfollows

/-- **Relay, decision and flags are consistent.**  Whenever `s_lock` is free,
    the pump state and the reason are those of the rule of the table that
    wins on the flags, and a manual stop is not held together with overheat.
    In an undisturbed run the pin shows the pump state; and after any
    disturbance it shows it again once a whole iteration has gone by, for as
    long as the pin is left alone. -/
theorem relay_state_consistent (acts : List Label) (s : Firmware) (h : Run firmware acts s)
    (hfree : s.s_lock = none) :
    (∃ rule, winning_rule s.dev.s_state = some rule ∧ s.dev.s_state.on = rule.on ∧
        s.dev.s_state.reason = rule.reason) ∧
      ¬ (s.dev.s_state.manual = .stop ∧ s.dev.s_state.overheat = true) ∧
      ((∀ a ∈ acts, a.undisturbed) → s.relay = s.dev.s_state.on) ∧
      (∀ pre mid it post,
        acts = pre ++ .task .start :: (mid ++ .task (.unlock it) :: post) →
        (∀ a ∈ mid, a.undisturbed) → (∀ a ∈ post, a.undisturbed) →
        s.relay = s.dev.s_state.on) := by
  have hsettled := sections_settled (firmware_free h hfree)
  refine ⟨?_, ?_, firmware_relay_follows h, ?_⟩
  · have heq := winning_rule_eq s.dev.s_state
    rw [← hsettled.rule] at heq
    obtain ⟨rule, hrule, hpair⟩ := Option.map_eq_some_iff.mp heq
    simp only [Prod.mk.injEq] at hpair
    exact ⟨rule, hrule, hpair.1.symm, hpair.2.symm⟩
  · intro hboth
    have hcool := hsettled.stop hboth.1
    simp [hboth.2] at hcool
  · intro pre mid it post hacts hmid hpost
    rw [hacts] at h
    -- the run, cut at the start and at the release of the iteration
    obtain ⟨s₀, -, hexec⟩ := h.split
    obtain ⟨s₁, hstart, hrest⟩ := Option.bind_eq_some_iff.mp hexec
    rw [exec_append] at hrest
    obtain ⟨s₂, hexec₂, hrest⟩ := Option.bind_eq_some_iff.mp hrest
    obtain ⟨s₃, hunlock, hexec₃⟩ := Option.bind_eq_some_iff.mp hrest
    have hfollows := iteration_restores_relay hstart hexec₂ hmid hunlock
    exact exec_invariant (P := RelayFollows) relayFollows_step hfollows hexec₃ hpost

/-- The first iteration after boot, with the pin pulled up before it. -/
theorem relay_consistent_after_disturbance :
    ∃ s, Run firmware (.disturb true :: iteration_labels
        ⟨0, some ⟨default_settings, true, 200⟩, default_settings, ⟨false, 0⟩⟩) s ∧
      s.relay = s.dev.s_state.on := by
  have hrun := run_from_boot .missing 0
    (show firmware.exec _ (.disturb true :: iteration_labels
      ⟨0, some ⟨default_settings, true, 200⟩, default_settings, ⟨false, 0⟩⟩) = some _ from rfl)
  refine ⟨_, hrun, ?_⟩
  refine (relay_state_consistent _ _ hrun rfl).2.2.2 [.disturb true]
    [.task (.sample ⟨true, 200⟩), .task .lock, .task .sensor, .task (.decide ⟨false, 0⟩),
      .task .relay] _ [.task .history] rfl ?_ ?_
  · simp [Label.undisturbed]
  · simp [Label.undisturbed]

end FloorHeating
