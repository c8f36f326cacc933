import FloorHeating.Relay

/-! # Overheat protection

    The overheat latch is a function of the valid readings, each judged by
    the thresholds of its own read, and it dominates every other rule: as
    long as it is set the pump runs and a manual stop is refused.

    Its end does not stop the pump either.  The margins `sanitize` keeps
    between the thresholds make every overheat a hot water reading, so the
    hysteresis takes over where the latch lets go. -/

namespace FloorHeating

open LTS PastTime

/-! ## The latch dominates -/

/-- The valid readings of a run of the firmware, up to the last release. -/
def readings_of (acts : List Label) : List Reading := readings (ops_of (sections_of acts))

theorem readings_of_append (acts more : List Label) :
    readings_of (acts ++ more) = readings_of acts ++ readings_of more := by
  simp [readings_of, readings, ops_of, sections_of]

/-- With the flags settled, an overheat runs the pump. -/
theorem settled_overheat {s : CtlState} (h : Settled s) (hover : s.overheat = true) :
    s.on = true ∧ s.reason = .overheat := by
  have hrule := h.rule
  unfold ctl_rule at hrule
  rw [if_pos hover] at hrule
  simpa using hrule

/-- A stop during an overheat is refused, and changes nothing at all. -/
theorem control_manual_refused {d : Device} (hover : d.s_state.overheat = true) {c : Command}
    (hstop : c.request.manual = .stop) : control_manual d c = (.refused_overheat, d) := by
  have hnone := (ctl_manual_eq_none_iff d.s_state c.request.manual c.request.clamped_s
    c.now_s).mpr ⟨hstop, hover⟩
  unfold control_manual
  rw [hnone]

/-- The same for a whole call in the firmware: the caller is told, and nothing
    else has changed. -/
theorem stop_call_refused {s : Firmware} (hfree : s.s_lock = none)
    (hover : s.dev.s_state.overheat = true) {c : Nat} (hidle : s.callers c = .idle) {q : Request}
    (hstop : q.manual = .stop) :
    firmware.exec s (refused_labels c q s.mono_s) =
      some (s.set_caller c (.manual_returned .refused_overheat)) := by
  have hnone : ctl_manual s.dev.s_state q.manual q.clamped_s s.mono_s = none :=
    (ctl_manual_eq_none_iff _ _ _ _).mpr ⟨hstop, hover⟩
  -- the four steps, one state after the other
  have hcall : step s (.manual c (.call q)) = some (s.set_caller c (.manual_called q)) := by
    simp [step, manual_step, hidle]
  have hlock : step (s.set_caller c (.manual_called q)) (.manual c .lock) =
      some ({ s with s_lock := some (.caller c) }.set_caller c (.manual_locked q)) := by
    simp [step, manual_step, Firmware.set_caller, hfree]
  have happly : step ({ s with s_lock := some (.caller c) }.set_caller c (.manual_locked q))
        (.manual c .apply) =
      some ({ s with s_lock := some (.caller c) }.set_caller c
        (.manual_refused q s.mono_s)) := by
    simp [step, manual_step, Firmware.set_caller, Firmware.manual_apply, Firmware.mono_s] at hnone ⊢
    simp [hnone]
  have hrefuse : step ({ s with s_lock := some (.caller c) }.set_caller c
        (.manual_refused q s.mono_s)) (.manual c (.refuse q s.mono_s)) =
      some (s.set_caller c (.manual_returned .refused_overheat)) := by
    simp [step, manual_step, Firmware.set_caller, ← hfree]
  simp only [refused_labels, System.exec, firmware, hcall, hlock, happly, hrefuse,
    Option.bind_some]

/-- No run accepts a stop while the latch is set. -/
theorem stop_not_accepted {secs : List Section} {d d' : Device} {c : Command}
    (hrun : Run sections secs d) (hstep : section_step d (.command c) = some d')
    (hstop : c.request.manual = .stop) :
    ¬ Since Reading.critical (fun _ r => ¬ r.clears) (readings (ops_of secs)) := by
  intro hsince
  obtain ⟨boot_s, hstate⟩ := sections_run_ctl_run hrun
  have hover : d.s_state.overheat = true := by
    rw [hstate]
    exact (overheat_iff_since boot_s _).mpr hsince
  cases (section_step_inv hstep).2 with
  | command c st accepted =>
    have hnone := (ctl_manual_eq_none_iff d.s_state c.request.manual c.request.clamped_s
      c.now_s).mpr ⟨hstop, hover⟩
    rw [accepted] at hnone
    simp at hnone

/-- The latch at a release of the lock. -/
theorem firmware_overheat_iff {acts : List Label} {s : Firmware} (h : Run firmware acts s)
    (hfree : s.s_lock = none) : s.dev.s_state.overheat = true ↔
      Since Reading.critical (fun _ r => ¬ r.clears) (readings_of acts) := by
  obtain ⟨boot_s, hstate⟩ := sections_run_ctl_run (firmware_free h hfree)
  rw [hstate]
  exact overheat_iff_since boot_s _

/-- **Overheat protection.**  Whenever `s_lock` is free, overheat is the
    memory of a critical reading that no later reading has cleared.  While it
    is set the pump is on by the overheat rule, in an undisturbed run with the
    relay high; a stop issued then is refused and leaves everything as it
    was; and the pump stays on until a reading clears it, whatever else
    happens.  No stop that a run has accepted came during an overheat. -/
theorem overheat_protection (acts : List Label) (s : Firmware) (h : Run firmware acts s)
    (hfree : s.s_lock = none) :
    (s.dev.s_state.overheat = true ↔
        Since Reading.critical (fun _ r => ¬ r.clears) (readings_of acts)) ∧
      (s.dev.s_state.overheat = true →
        s.dev.s_state.on = true ∧ s.dev.s_state.reason = .overheat ∧
        ((∀ a ∈ acts, a.undisturbed) → s.relay = true) ∧
        (∀ c : Command, c.request.manual = .stop →
          control_manual s.dev c = (.refused_overheat, s.dev)) ∧
        (∀ (c : Nat) (q : Request), s.callers c = .idle → q.manual = .stop →
          firmware.exec s (refused_labels c q s.mono_s) =
            some (s.set_caller c (.manual_returned .refused_overheat))) ∧
        ∀ more s', firmware.exec s more = some s' → s'.s_lock = none →
          (∀ r ∈ readings_of more, ¬ r.clears) → s'.dev.s_state.on = true) ∧
      ∀ pre c post, sections_of acts = pre ++ .command c :: post →
        c.request.manual = .stop →
        ¬ Since Reading.critical (fun _ r => ¬ r.clears) (readings (ops_of pre)) := by
  have hlatch := firmware_overheat_iff h hfree
  have hsettled := sections_settled (firmware_free h hfree)
  refine ⟨hlatch, ?_, ?_⟩
  · -- while it is set
    intro hover
    obtain ⟨hon, hreason⟩ := settled_overheat hsettled hover
    refine ⟨hon, hreason, ?_, ?_, ?_, ?_⟩
    · intro hacts
      have hfollows : s.relay = s.dev.s_state.on := firmware_relay_follows h hacts
      rw [hfollows, hon]
    · intro c hstop
      exact control_manual_refused hover hstop
    · intro c q hidle hstop
      exact stop_call_refused hfree hover hidle hstop
    · -- the latch lives on through readings that do not clear it
      intro more s' hexec hfree' hcleared
      have hrun : Run firmware (acts ++ more) s' := h.append hexec
      have hsince := (hlatch.mp hover).append hcleared
      rw [← readings_of_append] at hsince
      have hover' := (firmware_overheat_iff hrun hfree').mpr hsince
      exact (settled_overheat (sections_settled (firmware_free hrun hfree')) hover').1
  · -- the device an accepted command found is where the sections before it lead
    intro pre c post hsecs hstop
    have hrun := firmware_free h hfree
    rw [hsecs] at hrun
    obtain ⟨d, hpre, hexec⟩ := hrun.split
    obtain ⟨d', hstep, -⟩ := Option.bind_eq_some_iff.mp hexec
    exact stop_not_accepted hpre hstep hstop

/-- A first reading at 45 °C. -/
theorem overheat_protection_first_reading :
    ∃ s, Run firmware (iteration_labels
        ⟨0, some ⟨default_settings, true, 450⟩, default_settings, ⟨false, 0⟩⟩) s ∧
      s.dev.s_state.overheat = true := by
  have hrun := run_from_boot .missing 0
    (show firmware.exec _ (iteration_labels
      ⟨0, some ⟨default_settings, true, 450⟩, default_settings, ⟨false, 0⟩⟩) = some _ from rfl)
  refine ⟨_, hrun, (overheat_protection _ _ hrun rfl).1.mpr ?_⟩
  exact ⟨[], ⟨config_from_settings default_settings, 450⟩, [], rfl, by decide, by simp⟩

/-! ## The end of an overheat -/

/-- Every read of the run is judged by sanitized thresholds. -/
def SanitizedReads (ops : List CtlOp) : Prop :=
  ∀ cfg now_s valid t, CtlOp.sensor cfg now_s valid t ∈ ops →
    ∃ s, cfg = config_from_settings (sanitize s)

/-- The margins: whatever is no more than 2 °C below critical is above start. -/
theorem start_lt_clear {s : Settings} (h : s.Valid) :
    s.start_x10.toInt < s.critical_x10.toInt - OVERHEAT_CLEAR_X10 := by
  have hmargin := h.critical_min
  simp only [CRITICAL_MARGIN_MIN_X10] at hmargin
  simp only [OVERHEAT_CLEAR_X10]
  omega

/-- A reading that leaves overheat set, leaves the memory hot. -/
theorem hot_next_of_overheat {s : Settings} (h : s.Valid) {t : Int16} {overheat hot : Bool}
    (hover : overheat_next (config_from_settings s) t overheat = true) :
    hot_next (config_from_settings s) t hot = true := by
  have hmargin := start_lt_clear h
  rw [overheat_next_iff] at hover
  rw [hot_next_iff]
  left
  show s.start_x10.toInt < t.toInt
  -- set by this reading or only not cleared by it: either way it is above start
  rcases hover with hcritical | ⟨-, hkept⟩
  · have hcritical' : s.critical_x10.toInt ≤ t.toInt := hcritical
    simp only [OVERHEAT_CLEAR_X10] at hmargin
    omega
  · have hkept' : ¬ t.toInt < s.critical_x10.toInt - OVERHEAT_CLEAR_X10 := hkept
    omega

theorem hot_of_overheat (boot_s : Int) {ops : List CtlOp} (hops : SanitizedReads ops) :
    (ctl_run boot_s ops).overheat = true → (ctl_run boot_s ops).hot = true := by
  induction ops using List.reverseRecOn with
  | nil => simp [ctl_init]
  | append_singleton ops op ih =>
    have hinv := ih fun cfg now_s valid t hmem => hops cfg now_s valid t (by simp [hmem])
    rw [ctl_run_concat]
    cases op with
    | sensor cfg now_s valid t =>
      cases valid with
      | false =>
        rw [ctl_step_bad]
        exact hinv
      | true =>
        -- the one call that moves the two: here the margins decide, whatever was before
        obtain ⟨v, rfl⟩ := hops cfg now_s true t (by simp)
        rw [ctl_step_good]
        exact hot_next_of_overheat (sanitize_valid v)
    | manual m d now_s =>
      obtain ⟨m', u, hstep⟩ := ctl_step_manual_frame (ctl_run boot_s ops) m d now_s
      rw [hstep]
      exact hinv
    | decide cfg now_s =>
      rw [ctl_step_decide]
      exact hinv

/-- Sane sections make sanitized reads: consistent thresholds are what
    `sanitize` makes of themselves. -/
theorem sane_sanitized_reads {secs : List Section} (h : ∀ sec ∈ secs, sec.Sane) :
    SanitizedReads (ops_of secs) := by
  intro cfg now_s valid t hmem
  obtain ⟨sec, hsec, hop⟩ := List.mem_flatMap.mp hmem
  cases sec with
  | refused q now_s' => simp [Section.ops] at hop
  | command c => simp [Section.ops] at hop
  | iteration it =>
    obtain ⟨-, hsane⟩ := h _ hsec
    cases hread : it.read with
    | none => simp [Section.ops, Iteration.read_ops, hread] at hop
    | some rd =>
      simp only [Section.ops, Iteration.read_ops, hread, List.mem_append, List.mem_singleton,
        CtlOp.sensor.injEq, reduceCtorEq, or_false] at hop
      refine ⟨rd.settings, ?_⟩
      rw [sanitize_eq_self_iff.mpr (hsane rd hread)]
      exact hop.1

/-- A decision on a hot, working sensor with no stop in force runs the pump. -/
theorem decide_hot_on {s : CtlState} (cfg : CtlConfig) (now_s : Int) (hhot : s.hot = true)
    (hstop : s.manual ≠ .stop) : (ctl_step s (.decide cfg now_s)).on = true := by
  rw [ctl_step_decide]
  show (ctl_rule (flags_next s cfg now_s)).1 = true
  have hstop' : (flags_next s cfg now_s).manual ≠ .stop := by
    show manual_next s now_s ≠ .stop
    unfold manual_next
    split
    · simp
    · exact hstop
  have hhot' : (flags_next s cfg now_s).hot = true := hhot
  unfold ctl_rule
  rw [if_neg hstop']
  simp only [hhot', if_true]
  repeat' split
  all_goals rfl

/-- The read that ends an overheat found it set, and was a valid one. -/
theorem overheat_ended_inv {d : Device} {now_s : Int} {rd : Read}
    (h : (iteration_sensor d now_s (some rd)).2.overheat_ended = true) :
    rd.valid = true ∧ d.s_state.overheat = true := by
  cases hv : rd.valid with
  | false => simp [iteration_sensor, hv, ctl_sensor_bad] at h
  | true =>
    simp only [iteration_sensor, hv, ctl_sensor_good, Bool.false_or, Bool.and_eq_true] at h
    exact ⟨rfl, h.1⟩

/-- An iteration whose read ends an overheat leaves the pump on, unless the
    reading is below stop. -/
theorem iteration_overheat_ended {secs : List Section} {d : Device} (hrun : Run sections secs d)
    {it : Iteration} {rd : Read} (hread : it.read = some rd)
    (hended : (iteration_sensor d it.now_s it.read).2.overheat_ended = true)
    (hstop : ¬ rd.temp_x10.toInt < rd.settings.stop_x10.toInt) :
    (control_iteration d it).s_state.on = true := by
  rw [hread] at hended
  obtain ⟨hvalid, hover⟩ := overheat_ended_inv hended
  have hsettled := sections_settled hrun
  have hhot : d.s_state.hot = true := by
    obtain ⟨boot_s, hstate⟩ := sections_run_ctl_run hrun
    rw [hstate] at hover ⊢
    exact hot_of_overheat boot_s (sane_sanitized_reads (sections_sane hrun)) hover
  have hmanual : d.s_state.manual ≠ .stop := by
    intro hman
    have hcool := hsettled.stop hman
    simp [hover] at hcool
  rw [control_iteration_state]
  simp only [Section.ops, Iteration.read_ops, hread, hvalid, List.singleton_append,
    List.foldl_cons, List.foldl_nil, ctl_step_good]
  apply decide_hot_on
  · -- the memory was hot before, and only a reading below stop clears it
    rw [hot_next_iff]
    exact Or.inr ⟨hhot, hstop⟩
  · exact hmanual

/-- **The end of an overheat never stops the pump by itself.**  With
    sanitized thresholds, possibly others at every read, overheat implies
    hot; and every iteration of the firmware whose read ends an overheat
    leaves the pump on, unless that reading is below the stop threshold it
    was judged by. -/
theorem overheat_end_keeps_pump :
    (∀ boot_s ops, SanitizedReads ops →
        (ctl_run boot_s ops).overheat = true → (ctl_run boot_s ops).hot = true) ∧
      ∀ acts it s, Run firmware (acts ++ [.task (.unlock it)]) s →
        ∃ d, Run sections (sections_of acts) d ∧ s.dev = control_iteration d it ∧
          ∀ rd, it.read = some rd →
            (iteration_sensor d it.now_s it.read).2.overheat_ended = true →
            ¬ rd.temp_x10.toInt < rd.settings.stop_x10.toInt → s.dev.s_state.on = true := by
  refine ⟨fun boot_s ops hops => hot_of_overheat boot_s hops, ?_⟩
  intro acts it s h
  obtain ⟨d, hrun, hdev⟩ := firmware_iteration h
  refine ⟨d, hrun, hdev, ?_⟩
  intro rd hread hended hstop
  rw [hdev]
  exact iteration_overheat_ended hrun hread hended hstop

/-- The iteration that finds 42.0 °C. -/
def cooled : Iteration :=
  ⟨5, some ⟨default_settings, true, 420⟩, default_settings, ⟨false, 0⟩⟩

/-- 45.0 °C, and five seconds later the iteration that finds 42.0 °C, up to its
    release of the lock. -/
def cooling_labels : List Label :=
  iteration_labels ⟨0, some ⟨default_settings, true, 450⟩, default_settings, ⟨false, 0⟩⟩ ++
    [.tick 5000000, .task .start, .task (.sample ⟨true, 420⟩), .task .lock, .task .sensor,
      .task (.decide ⟨false, 0⟩), .task .relay]

/-- 45.0 °C, then 42.0 °C: the second read ends the overheat, and the pump runs
    on. -/
theorem overheat_end_keeps_hot :
    ∃ d s, Run firmware (cooling_labels ++ [.task (.unlock cooled)]) s ∧
      s.dev = control_iteration d cooled ∧
      (iteration_sensor d cooled.now_s cooled.read).2.overheat_ended = true ∧
      s.dev.s_state.overheat = false ∧ s.dev.s_state.on = true := by
  obtain ⟨s, hrun, hcool⟩ : ∃ s, Run firmware (cooling_labels ++ [.task (.unlock cooled)]) s ∧
      s.dev.s_state.overheat = false := ⟨_, run_from_boot .missing 0 rfl, rfl⟩
  obtain ⟨d, hsections, hdev, hon⟩ := overheat_end_keeps_pump.2 _ _ _ hrun
  have hover : d.s_state.overheat = true := by
    obtain ⟨boot_s, hstate⟩ := sections_run_ctl_run hsections
    rw [hstate, overheat_iff_since]
    exact ⟨[], ⟨config_from_settings default_settings, 450⟩, [], rfl, by decide, by simp⟩
  -- the overheat of the first read is what the second one ends
  have hended : (iteration_sensor d cooled.now_s cooled.read).2.overheat_ended = true := by
    simp [cooled, iteration_sensor, ctl_sensor_good, hover]
    decide
  exact ⟨d, s, hrun, hdev, hended, hcool, hon _ rfl hended (by decide)⟩

end FloorHeating
