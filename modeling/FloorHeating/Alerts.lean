import FloorHeating.App
import FloorHeating.Notifications

/-! # What goes unsaid

    `notify` passes over some events.  Of the switches of the pump these are
    the end of a maintenance run, which is not worth a ping, and those for an
    overheat or a failed sensor, as the error topic already has it.  Whether
    it has is a matter of the events before: the alarm must have been raised,
    and not have been called off.

    Source: `notify` (`events.c`), `decide_locked` (`control.c`). -/

namespace FloorHeating

open LTS PastTime

/-- The error topic has been told, which means a line of `ESP_LOGE`, and nothing
    since has called it off. -/
def Alarm (type : EventType) (past : List Event) : Prop :=
  ∃ before alarm since, past = before ++ alarm :: since ∧ alarm.type = type ∧
    (∃ msg, notify alarm = some (.error_line msg)) ∧ ∀ e ∈ since, e.type ≠ type

/-- Why `notify` passes over an event that comes after `past`. -/
inductive Unsaid (past : List Event) (e : Event) : Prop where
  /-- An override ends, and the pump goes on as the events have left it. -/
  | manual_end (type : e.type = .manual_end) (on : e.on = level (ons .pump past))
  /-- The pump stops after a maintenance run. -/
  | maintenance (type : e.type = .pump) (off : e.on = false) (reason : e.reason = .auto_cold)
      (prev : e.prev_reason = .maintenance)
  /-- The pump starts because of an overheat that is known. -/
  | overheat (type : e.type = .pump) (on : e.on = true) (reason : e.reason = .overheat)
      (alarm : Alarm .overheat past)
  /-- The pump starts because of a sensor that is known to have failed. -/
  | sensor_fail (type : e.type = .pump) (on : e.on = true) (reason : e.reason = .sensor_fail)
      (alarm : Alarm .sensor past)

theorem notify_alarm {e : Event} (htype : e.type = .overheat ∨ e.type = .sensor)
    (hon : e.on = true) : ∃ msg, notify e = some (.error_line msg) := by
  unfold notify notify_event
  rcases htype with htype | htype <;> rw [htype, hon] <;> exact ⟨_, rfl⟩

/-- The alarm is raised while the events have the flag up. -/
theorem alarm_of_level {type : EventType} (htype : type = .overheat ∨ type = .sensor)
    {past : List Event} (h : level (ons type past) = true) : Alarm type past := by
  induction past using List.reverseRecOn with
  | nil => exact absurd h (by simp [ons, level])
  | append_singleton past e ih =>
    by_cases he : e.type = type
    · have hone : ons type [e] = [e.on] := by simp [ons, he]
      have hon : e.on = true := by
        rw [ons_append, hone, level_concat] at h
        exact h
      exact ⟨past, e, [], rfl, he, notify_alarm (he ▸ htype) hon, by simp⟩
    · have hnone : ons type [e] = [] := by simp [ons, he]
      rw [ons_append, hnone, List.append_nil] at h
      obtain ⟨before, alarm, since, rfl, halarm, hsaid, hsince⟩ := ih h
      refine ⟨before, alarm, since ++ [e], by simp, halarm, hsaid, ?_⟩
      intro e' he'
      rcases List.mem_append.mp he' with he' | he'
      · exact hsince e' he'
      · exact List.mem_singleton.mp he' ▸ he

/-! ## One decision -/

/-- The last event of a decision has the state of the pump. -/
theorem pump_events_state {st : CtlState} {now_s : Int} {r : CtlResult} {detail : Option CStr}
    {e : Event} (he : e ∈ pump_events st now_s r detail) :
    e.on = st.on ∧ e.reason = st.reason := by
  unfold pump_events at he
  split at he
  · rw [List.mem_singleton.mp he]
    exact ⟨rfl, rfl⟩
  · split at he
    · rw [List.mem_singleton.mp he]
      exact ⟨rfl, rfl⟩
    · exact nomatch he

/-- What a section publishes is what its decision has to say. -/
theorem SectionStep.publishes {d d' : Device} {sec : Section} (h : SectionStep d sec d') :
    d'.events.notified = d.events.notified ∨ ∃ st cfg now_s r detail,
      d'.s_state = (ctl_decide st cfg now_s r).1 ∧ d'.events.notified = d.events.notified ++
        decide_events (ctl_decide st cfg now_s r).1 now_s (ctl_decide st cfg now_s r).2 detail := by
  cases h with
  | iteration it =>
    have hevents : (iteration_sensor d it.now_s it.read).1.events = d.events := by
      rw [iteration_sensor_device]
    rw [control_iteration_eq]
    refine Or.inr ⟨_, _, _, _, none, decide_locked_state _ _ _ _ _ _, ?_⟩
    rw [← hevents]
    exact decide_locked_notified _ _ _ _ _ _
  | command c st accepted =>
    exact Or.inr ⟨_, _, _, _, _, decide_locked_state _ _ _ _ _ _,
      decide_locked_notified { d with s_state := st } _ _ _ _ _⟩
  | refused q now_s _ => exact Or.inl rfl

section decision
variable {st : CtlState} {now_s : Int} {r : CtlResult} {detail : Option CStr} {e : Event}

/-- An event of the pump is the last one of its decision. -/
theorem decide_events_last {before after : List Event}
    (h : decide_events st now_s r detail = before ++ e :: after)
    (htype : e.type = .pump ∨ e.type = .manual_end) :
    before = sensor_events st now_s r ++ overheat_events st now_s r ∧ after = [] := by
  have hmem : e ∈ pump_events st now_s r detail :=
    mem_pump_events (h ▸ List.mem_append.mpr (Or.inr List.mem_cons_self)) htype
  have hpump : pump_events st now_s r detail = [e] := by
    have hone : pump_events st now_s r detail = [] ∨
        ∃ e', pump_events st now_s r detail = [e'] := by
      unfold pump_events
      split
      · exact Or.inr ⟨_, rfl⟩
      · split
        · exact Or.inr ⟨_, rfl⟩
        · exact Or.inl rfl
    rcases hone with hone | ⟨e', hone⟩
    · rw [hone] at hmem
      exact nomatch hmem
    · rw [hone] at hmem
      rw [hone, List.mem_singleton.mp hmem]
  have hfront : e ∉ sensor_events st now_s r ++ overheat_events st now_s r := by
    intro he
    rcases List.mem_append.mp he with he | he
    · have := sensor_events_type st now_s r e he
      simp [this] at htype
    · have := overheat_events_type st now_s r e he
      simp [this] at htype
  rw [decide_events, hpump] at h
  obtain ⟨hbefore, -, hafter⟩ := (List.append_cons_inj_of_notMem hfront (by simp)).mp h
  exact ⟨hbefore.symm, hafter.symm⟩

end decision

theorem ctl_rule_overheat {s : CtlState} (h : (ctl_rule s).2 = .overheat) : s.overheat = true := by
  unfold ctl_rule at h
  grind

theorem ctl_rule_sensor_fail {s : CtlState} (h : (ctl_rule s).2 = .sensor_fail) :
    s.sensor_failed = true := by
  unfold ctl_rule at h
  grind

/-- The switches that `notify` passes over. -/
theorem notify_pump_none {e : Event} {temp : CStr} (h : notify_pump e temp = none) :
    e.reason = .overheat ∨ e.reason = .sensor_fail ∨
      e.reason = .auto_cold ∧ e.prev_reason = .maintenance := by
  unfold notify_pump at h
  split at h
  · exact nomatch h
  · rename_i hreason
    split at h
    · rename_i hprev
      exact Or.inr (Or.inr ⟨hreason, hprev⟩)
    · exact nomatch h
  · exact nomatch h
  · exact nomatch h
  · exact nomatch h
  · rename_i hreason
    exact Or.inr (Or.inl hreason)
  · rename_i hreason
    exact Or.inl hreason

/-- In a settled state the reason of a switch that is passed over is one that
    the error topic has, or the end of a maintenance run. -/
theorem unsaid_of_settled {s : CtlState} (hs : Settled s) {e : Event} {past : List Event}
    (htype : e.type = .pump) (hon : e.on = s.on) (hreason : e.reason = s.reason)
    (hnone : notify e = none) (hoverheat : s.overheat = level (ons .overheat past))
    (hsensor : s.sensor_failed = level (ons .sensor past)) : Unsaid past e := by
  have hrule : s.on = (ctl_rule s).1 ∧ s.reason = (ctl_rule s).2 := Prod.mk.inj hs.rule
  have hruns : e.on = e.reason.runs := by
    rw [hon, hreason, hrule.1, hrule.2]
    exact ctl_rule_runs s
  have hpump : notify_pump e (temp_text e TEMP_SIZE) = none := by
    rw [notify, notify_event, htype] at hnone
    exact hnone
  rcases notify_pump_none hpump with hcase | hcase | ⟨hcase, hprev⟩
  · refine .overheat htype (by rw [hruns, hcase]; rfl) hcase (alarm_of_level (Or.inl rfl) ?_)
    rw [← hoverheat]
    exact ctl_rule_overheat (by rw [← hrule.2, ← hreason, hcase])
  · refine .sensor_fail htype (by rw [hruns, hcase]; rfl) hcase (alarm_of_level (Or.inr rfl) ?_)
    rw [← hsensor]
    exact ctl_rule_sensor_fail (by rw [← hrule.2, ← hreason, hcase])
  · exact .maintenance htype (by rw [hruns, hcase]; rfl) hcase hprev

/-- What is passed over in a log, with the events before it. -/
def OnlyUnsaid (es : List Event) : Prop :=
  ∀ past e later, es = past ++ e :: later → notify e = none → Unsaid past e

theorem notify_some {e : Event} (htype : e.type = .overheat ∨ e.type = .sensor) :
    notify e ≠ none := by
  unfold notify notify_event
  rcases htype with htype | htype <;> rw [htype] <;> cases e.on <;> exact fun h => nomatch h

/-- A decision passes over nothing else. -/
theorem decision_unsaid {d d' : Device} (hd : OnlyUnsaid d.events.notified) (hlog : LogInv d')
    {st : CtlState} {cfg : CtlConfig} {now_s : Int} {r : CtlResult} {detail : Option CStr}
    (hstate : d'.s_state = (ctl_decide st cfg now_s r).1)
    (hevents : d'.events.notified = d.events.notified ++
      decide_events (ctl_decide st cfg now_s r).1 now_s (ctl_decide st cfg now_s r).2 detail) :
    OnlyUnsaid d'.events.notified := by
  have hset : Settled d'.s_state := by
    rw [hstate, ctl_decide_state]
    exact settled_decide _ _ _
  rw [← hstate] at hevents
  intro past e later hsplit hnone
  -- an event of this decision that is passed over is its last one
  have hnew : ∀ before, past = d.events.notified ++ before →
      decide_events d'.s_state now_s (ctl_decide st cfg now_s r).2 detail = before ++ e :: later →
      Unsaid past e := by
    rintro before rfl hes
    have htype : e.type = .pump ∨ e.type = .manual_end := by
      cases htype : e.type with
      | pump => exact Or.inl rfl
      | manual_end => exact Or.inr rfl
      | overheat => exact absurd hnone (notify_some (Or.inl htype))
      | sensor => exact absurd hnone (notify_some (Or.inr htype))
    obtain ⟨-, rfl⟩ := decide_events_last hes htype
    have hmem := mem_pump_events (hes ▸ List.mem_append.mpr (Or.inr List.mem_cons_self)) htype
    obtain ⟨hon, hreason⟩ := pump_events_state hmem
    have hother : ∀ type, type ≠ e.type →
        ons type d'.events.notified = ons type (d.events.notified ++ before) := by
      intro type hne
      have hnone : ons type [e] = [] := by simp [ons, hne.symm]
      rw [hevents, hes, ← List.append_assoc, ons_append _ _ [e], hnone, List.append_nil]
    rcases htype with htype | htype
    · refine unsaid_of_settled hset htype hon hreason hnone ?_ ?_
      · rw [← hother .overheat (by simp [htype])]
        exact hlog.overheat.level.symm
      · rw [← hother .sensor (by simp [htype])]
        exact hlog.sensor.level.symm
    · refine .manual_end htype ?_
      rw [← hother .pump (by simp [htype]), hon]
      exact hlog.pump.level.symm
  rw [hevents] at hsplit
  rcases List.append_eq_append_iff.mp hsplit with ⟨before, hpast, hes⟩ | ⟨after, hold, hafter⟩
  · exact hnew before hpast hes
  · cases after with
    | nil => exact hnew [] (by simpa using hold.symm) hafter.symm
    | cons e' after =>
      obtain ⟨rfl, -⟩ := List.cons.inj hafter
      exact hd past e after hold hnone

/-- **Nothing else goes unsaid.**  In every run each event that `notify` passes
    over leaves the pump as it is, or stops it after a maintenance run, or
    starts it because of an overheat or a failed sensor that an `ESP_LOGE` line
    has told of and that has not been called off.  That such a line gets to
    the error topic is for the library to see to. -/
theorem only_unsaid (acts : List Label) (s : Firmware) (h : Run firmware acts s)
    (past : List Event) (e : Event) (later : List Event)
    (hes : s.dev.events.notified = past ++ e :: later) (hnone : notify e = none) :
    Unsaid past e := by
  obtain ⟨secs, d, hrun, hev⟩ := firmware_events h
  have hsections : ∀ {secs d}, Run sections secs d → OnlyUnsaid d.events.notified := by
    intro secs d hrun
    induction hrun with
    | init hinit =>
      obtain ⟨now_s, rfl⟩ := hinit
      intro past e later hes
      simp [control_start, events_init] at hes
    | snoc hrun hstep ih =>
      rcases (section_step_inv hstep).2.publishes with hsame | ⟨_, _, _, _, _, hstate, hevents⟩
      · rw [hsame]
        exact ih
      · exact decision_unsaid ih (sections_log (hrun.snoc hstep)) hstate hevents
  rw [hev] at hes
  exact hsections hrun past e later hes hnone

/-- The first reading is critical: the pump starts after the alarm. -/
theorem only_unsaid_critical : ∃ s alarm e,
    Run firmware (iteration_labels
        ⟨0, some ⟨default_settings, true, 450⟩, default_settings, ⟨false, 0⟩⟩) s ∧
      s.dev.events.notified = [alarm, e] ∧ e.type = .pump ∧ Unsaid [alarm] e := by
  have hexec : firmware.exec (boot .missing 0) (iteration_labels
      ⟨0, some ⟨default_settings, true, 450⟩, default_settings, ⟨false, 0⟩⟩) = some _ := rfl
  have hrun := run_from_boot .missing 0 hexec
  exact ⟨_, _, _, hrun, rfl, rfl, only_unsaid _ _ hrun _ _ [] rfl rfl⟩

end FloorHeating
