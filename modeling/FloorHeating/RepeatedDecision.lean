import FloorHeating.Atomicity

/-! # A repeated decision

    An accepted command wakes the control task, so the device is often decided
    on twice within one second.  The second decision finds nothing left to
    do: whatever the first one ended, dropped or started is not ended,
    dropped or started again, on any state there is. -/

namespace FloorHeating

open LTS

/-! ## The control logic -/

section decided
variable (s : CtlState) (cfg : CtlConfig) (now_s : Int)

/-- The override that a decision leaves has time left, and is not one that
    the overheat drops. -/
theorem decided_manual :
    manual_expires (ctl_step s (.decide cfg now_s)) now_s = false ∧
      manual_cancels (ctl_step s (.decide cfg now_s)) now_s = false := by
  have hmanual : (ctl_step s (.decide cfg now_s)).manual = manual_next s now_s := by
    rw [ctl_step_decide]; rfl
  have huntil : (ctl_step s (.decide cfg now_s)).manual_until_s = s.manual_until_s := by
    rw [ctl_step_decide]; rfl
  have hover : (ctl_step s (.decide cfg now_s)).overheat = s.overheat := by
    rw [ctl_step_decide]; rfl
  by_cases hended : manual_expires s now_s = true ∨ manual_cancels s now_s = true
  · -- it is over, and there is none any more
    have hnone : manual_next s now_s = .none := by
      unfold manual_next
      rw [if_pos (by simpa using hended)]
    rw [hnone] at hmanual
    simp [manual_expires, manual_cancels, hmanual]
  · have hkept : manual_next s now_s = s.manual := by
      unfold manual_next
      rw [if_neg (by simpa using hended)]
    rw [hkept] at hmanual
    simpa [manual_expires, manual_cancels, hmanual, huntil, hover] using hended

/-- A maintenance run that a decision leaves has time left. -/
theorem decided_maintenance_kept (hrun : 1 ≤ cfg.maintenance_run_s.toNat) :
    maintenance_kept (ctl_step s (.decide cfg now_s)) now_s =
      (ctl_step s (.decide cfg now_s)).maintenance := by
  rw [ctl_step_decide]
  by_cases hstarts : maintenance_starts s cfg now_s = true
  · -- it has just started, for at least a second
    simp [maintenance_kept, flags_next, hstarts]
    omega
  · rw [Bool.not_eq_true] at hstarts
    simp [maintenance_kept, flags_next, hstarts]

/-- A decision leaves no maintenance run to start: what there was to start it
    has started, and a pump that it found or left on is not idle. -/
theorem decided_maintenance_starts (hinterval : 1 ≤ cfg.maintenance_interval_s.toNat)
    (hrun : 1 ≤ cfg.maintenance_run_s.toNat) :
    maintenance_starts (ctl_step s (.decide cfg now_s)) cfg now_s = false := by
  obtain ⟨hexpires, hcancels⟩ := decided_manual s cfg now_s
  rw [Bool.eq_false_iff]
  intro hstarts
  obtain ⟨hrunning, hoff, hfree, hworks, htemp, hcold, hidle⟩ :=
    (maintenance_starts_iff _ cfg now_s).mp hstarts
  rw [decided_maintenance_kept s cfg now_s hrun] at hrunning
  rw [manual_next_kept hexpires hcancels] at hfree
  rw [ctl_step_decide] at hrunning hoff hfree hworks htemp hcold hidle
  -- neither a run in force before, nor one just started
  obtain ⟨hkept, hnew⟩ : maintenance_kept s now_s = false ∧
      maintenance_starts s cfg now_s = false := Bool.or_eq_false_iff.mp hrunning
  dsimp only at hoff hidle
  rw [hoff, Bool.false_or] at hidle
  cases hon : s.on with
  | true =>
    rw [hon, if_pos rfl] at hidle
    omega
  | false =>
    -- idle as long before the first decision, which then had the run to start
    rw [hon, if_neg Bool.false_ne_true] at hidle
    have hdue := (maintenance_starts_iff s cfg now_s).mpr
      ⟨hkept, hon, hfree, hworks, htemp, hcold, hidle⟩
    rw [hnew] at hdue
    exact Bool.false_ne_true hdue

/-- **A repeated decision is a no-op.**  The state is the same, and all that
    the result gains is the reason before. -/
theorem ctl_decide_again (hinterval : 1 ≤ cfg.maintenance_interval_s.toNat)
    (hrun : 1 ≤ cfg.maintenance_run_s.toNat) (res : CtlResult) :
    ctl_decide (ctl_step s (.decide cfg now_s)) cfg now_s res =
      (ctl_step s (.decide cfg now_s),
        { res with prev_reason := (ctl_step s (.decide cfg now_s)).reason }) := by
  obtain ⟨hexpires, hcancels⟩ := decided_manual s cfg now_s
  have hkept := decided_maintenance_kept s cfg now_s hrun
  have hstarts := decided_maintenance_starts s cfg now_s hinterval hrun
  have hflags : flags_next (ctl_step s (.decide cfg now_s)) cfg now_s =
      ctl_step s (.decide cfg now_s) := by
    simp [flags_next, manual_next_kept hexpires hcancels, hkept, hstarts]
  -- the rules see the same flags, and have had their way already
  obtain ⟨hrule, -⟩ := settled_decide s cfg now_s
  have hlast : (if (ctl_step s (.decide cfg now_s)).on then now_s
      else (ctl_step s (.decide cfg now_s)).last_on_s) =
      (ctl_step s (.decide cfg now_s)).last_on_s := by
    split
    · rename_i hon
      rw [ctl_step_decide] at hon ⊢
      dsimp only at hon ⊢
      rw [hon, Bool.true_or, if_pos rfl]
    · rfl
  rw [ctl_decide_eq, hflags]
  dsimp only
  rw [← hrule]
  simp [hexpires, hcancels, hstarts, hlast]

end decided

/-! ## The device -/

/-- Decided on again in the same second and with the same thresholds, the
    device changes at most its day. -/
theorem decide_locked_again {d : Device} {st : CtlState} {v : Settings} {now_s : Int}
    (hstate : d.s_state = ctl_step st (.decide (config_from_settings v) now_s))
    (htick : d.s_last_tick_s = now_s) (wall : WallClock) (detail : Option CStr) :
    decide_locked d v wall now_s {} detail =
      ({ d with
          s_today_yday := if wall.yday ≥ 0 then wall.yday else d.s_today_yday
          s_runtime_today_s := if rolls_over d wall then 0 else d.s_runtime_today_s
          s_starts_today := if rolls_over d wall then 0 else d.s_starts_today },
        { prev_reason := d.s_state.reason }) := by
  have hinterval : 1 ≤ (config_from_settings v).maintenance_interval_s.toNat :=
    show 1 ≤ MAINTENANCE_INTERVAL_S.toNat by decide
  have hrun : 1 ≤ (config_from_settings v).maintenance_run_s.toNat :=
    show 1 ≤ MAINTENANCE_RUN_S.toNat by decide
  have hagain := ctl_decide_again st (config_from_settings v) now_s hinterval hrun {}
  rw [← hstate] at hagain
  -- no time has passed since the last tick
  have helapsed : elapsed d now_s = 0 := by
    unfold elapsed
    rw [htick, sub_self]
    split <;> rfl
  rw [decide_locked_eq, hagain, count_runtime_locked_eq, helapsed]
  simp [count_start, decide_events, sensor_events, overheat_events, pump_events, htick]

/-- What a command leaves for the next decision. -/
theorem command_decided {d d' : Device} {cmd : Command}
    (h : SectionStep d (.command cmd) d') :
    (∃ st, d'.s_state = ctl_step st (.decide (config_from_settings cmd.settings) cmd.now_s)) ∧
      d'.s_last_tick_s = cmd.now_s := by
  cases h with
  | command cmd st accepted =>
    refine ⟨⟨st, ?_⟩, decide_locked_last_tick _ _ _ _ _ _⟩
    rw [decide_locked_state, ctl_decide_state]

/-- Refused calls leave the device alone. -/
theorem refused_exec {secs : List Section} {d d' : Device} (h : sections.exec d secs = some d')
    (hrefused : ∀ sec ∈ secs, ∃ q now_s, sec = .refused q now_s) : d' = d := by
  refine exec_invariant (P := fun x : Device => x = d) ?_ rfl h hrefused
  rintro x sec x' ⟨q, now_s, rfl⟩ rfl hstep
  have hstep' : section_step x (.refused q now_s) = some x' := hstep
  obtain ⟨-, hsection⟩ := section_step_inv hstep'
  cases hsection with
  | refused q now_s _ => rfl

/-! ## The woken control task -/

/-- The step publishes nothing, leaves the pin and the control state as they
    were, and counts neither a start nor any runtime; only a new day can
    restart the counters of the day. -/
structure CountsNothing (s s' : Firmware) (wall : WallClock) : Prop where
  events : s'.dev.events = s.dev.events
  relay : s'.relay = s.relay
  state : s'.dev.s_state = s.dev.s_state
  runtime_boot : s'.dev.s_runtime_boot_s = s.dev.s_runtime_boot_s
  starts_boot : s'.dev.s_starts_boot = s.dev.s_starts_boot
  runtime_today : s'.dev.s_runtime_today_s =
    if rolls_over s.dev wall then 0 else s.dev.s_runtime_today_s
  starts_today : s'.dev.s_starts_today = if rolls_over s.dev wall then 0 else s.dev.s_starts_today

/-- The device a command has left, while no section but a refused one has been
    completed since. -/
theorem firmware_after_command {acts pre post : List Label} {s : Firmware}
    (h : Run firmware acts s) {c : Nat} {cmd : Command}
    (hacts : acts = pre ++ .manual c (.unlock cmd) :: post)
    (hpost : ∀ sec ∈ sections_of post, ∃ q now_s, sec = .refused q now_s) :
    ∃ d₀ d, SectionStep d₀ (.command cmd) d ∧ Refines s d := by
  obtain ⟨s₀, ⟨nvs, clock_us, rfl⟩, hexec⟩ := h.exists_exec
  obtain ⟨d, hd, hR⟩ := firmware_refines_sections hexec
  have hsecs : sections_of acts =
      (sections_of pre ++ [.command cmd]) ++ sections_of post := by
    rw [hacts]
    simp [sections_of, Label.released]
  rw [hsecs, exec_append] at hd
  obtain ⟨d₁, hcommand, hrest⟩ := Option.bind_eq_some_iff.mp hd
  have hrun : Run sections (sections_of pre ++ [.command cmd]) d₁ :=
    Run.of_exec ⟨_, rfl⟩ hcommand
  obtain ⟨d₀, -, hstep⟩ := hrun.unsnoc
  have hsame := refused_exec hrest hpost
  exact ⟨d₀, d, hsame ▸ (section_step_inv hstep).2, hR⟩

theorem task_decide_again {acts pre post : List Label} {s s' : Firmware}
    (h : Run firmware acts s) {c : Nat} {cmd : Command}
    (hacts : acts = pre ++ .manual c (.unlock cmd) :: post)
    (hpost : ∀ sec ∈ sections_of post, ∃ q now_s, sec = .refused q now_s)
    {r : CtlResult} (hpc : s.task = .sensed cmd.now_s none r)
    (hsettings : s.s_settings = cmd.settings) {wall : WallClock}
    (hstep : step s (.task (.decide wall)) = some s') : CountsNothing s s' wall := by
  obtain ⟨d₀, d, hcommand, hR⟩ := firmware_after_command h hacts hpost
  -- without a read the decision is on the device as the command has left it
  obtain ⟨-, hin, -⟩ := hR.at_task hpc rfl
  obtain ⟨hdev, rfl⟩ : s.dev = d ∧ r = {} := Prod.mk.inj hin
  obtain ⟨⟨st, hstate⟩, htick⟩ := command_decided hcommand
  rw [← hdev] at hstate htick
  rw [← hsettings] at hstate
  have hagain := decide_locked_again hstate htick wall none
  have hdecide : task_step s (.decide wall) = some s' := hstep
  cases task_step_inv hdecide with
  | decide now_s rd r wall pc =>
    obtain ⟨rfl, rfl, rfl⟩ : cmd.now_s = now_s ∧ none = rd ∧ {} = r := by
      simpa [hpc] using pc
    unfold Firmware.task_decide
    rw [hagain]
    exact ⟨rfl, rfl, rfl, rfl, rfl, rfl, rfl⟩

/-- **A repeated decision is a no-op.**  On every state, `ctl_decide` with the
    configuration and the timestamp of the call before changes nothing and
    reports nothing.  So in every run an iteration of the control task that
    comes next after an accepted command, in the same second, without a read
    and with the thresholds the command had, publishes no event, leaves the
    pin alone and counts nothing. -/
theorem repeated_decision_no_op :
    (∀ (s : CtlState) (cfg : CtlConfig) (now_s : Int) (res : CtlResult),
      1 ≤ cfg.maintenance_interval_s.toNat → 1 ≤ cfg.maintenance_run_s.toNat →
        (ctl_decide (ctl_decide s cfg now_s res).1 cfg now_s {}).1 =
            (ctl_decide s cfg now_s res).1 ∧
          (ctl_decide (ctl_decide s cfg now_s res).1 cfg now_s {}).2.changed = false ∧
          (ctl_decide (ctl_decide s cfg now_s res).1 cfg now_s {}).2.manual_expired = false ∧
          (ctl_decide (ctl_decide s cfg now_s res).1 cfg now_s {}).2.manual_cancelled = false ∧
          (ctl_decide (ctl_decide s cfg now_s res).1 cfg now_s {}).2.maintenance_started =
            false) ∧
      ∀ (acts : List Label) (s : Firmware), Run firmware acts s →
        ∀ (pre post : List Label) (c : Nat) (cmd : Command) (r : CtlResult),
          acts = pre ++ .manual c (.unlock cmd) :: post →
          (∀ sec ∈ sections_of post, ∃ q now_s, sec = .refused q now_s) →
          s.task = .sensed cmd.now_s none r → s.s_settings = cmd.settings →
          ∀ (wall : WallClock) (s' : Firmware), step s (.task (.decide wall)) = some s' →
            CountsNothing s s' wall := by
  refine ⟨?_, ?_⟩
  · intro s cfg now_s res hinterval hrun
    rw [ctl_decide_state s, ctl_decide_again s cfg now_s hinterval hrun]
    exact ⟨rfl, rfl, rfl, rfl, rfl⟩
  · intro acts s h pre post c cmd r hacts hpost hpc hsettings wall s' hstep
    exact task_decide_again h hacts hpost hpc hsettings hstep

/-- A start at boot, given after the first read, and the iteration it wakes. -/
theorem repeated_decision_woken :
    (ctl_decide (ctl_decide (ctl_init 0) ⟨300, 250, 450, 604800, 60, 3⟩ 5 {}).1
        ⟨300, 250, 450, 604800, 60, 3⟩ 5 {}).2.changed = false ∧
      ∃ s s', Run firmware (iteration_labels ⟨0, some ⟨default_settings, true, 200⟩,
          default_settings, ⟨false, 0⟩⟩ ++
          command_labels 0 ⟨⟨.start, 600, "admin".toList⟩, 0, default_settings, ⟨false, 0⟩⟩ ++
          [.task .start, .task .lock, .task .sensor]) s ∧
        step s (.task (.decide ⟨false, 0⟩)) = some s' ∧ s.dev.s_state.on = true ∧
        CountsNothing s s' ⟨false, 0⟩ := by
  refine ⟨(repeated_decision_no_op.1 _ _ _ _ (by decide) (by decide)).2.1, ?_⟩
  have hrun := run_from_boot .missing 0
    (show firmware.exec _ (iteration_labels ⟨0, some ⟨default_settings, true, 200⟩,
        default_settings, ⟨false, 0⟩⟩ ++
      command_labels 0 ⟨⟨.start, 600, "admin".toList⟩, 0, default_settings, ⟨false, 0⟩⟩ ++
      [.task .start, .task .lock, .task .sensor]) = some _ from rfl)
  refine ⟨_, _, hrun, rfl, rfl, ?_⟩
  exact repeated_decision_no_op.2 _ _ hrun
    (iteration_labels ⟨0, some ⟨default_settings, true, 200⟩, default_settings, ⟨false, 0⟩⟩ ++
      [.manual 0 (.call ⟨.start, 600, "admin".toList⟩), .manual 0 .lock, .manual 0 .apply,
        .manual 0 (.decide ⟨false, 0⟩)])
    [.manual 0 .leave, .task .start, .task .lock, .task .sensor] 0
    ⟨⟨.start, 600, "admin".toList⟩, 0, default_settings, ⟨false, 0⟩⟩ {} rfl (by simp [sections_of,
      Label.released]) rfl rfl ⟨false, 0⟩ _ rfl

end FloorHeating
