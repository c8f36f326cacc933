import FloorHeating.Relay
import FloorHeating.Lib.PastTime

/-! # The event log replays the control state

    Each of the three flags an event reports (`on`, `overheat`,
    `sensor_failed`) starts low, and a section publishes one event for it
    where it ends with the flag moved and none where it does not.  So the
    events of one type alternate, the last of them is the flag, and the
    rising ones are the counted starts. -/

namespace FloorHeating

open LTS PastTime

/-! ## The edges in a result -/

/-- The result tells which of the flags have moved since the state `s`. -/
structure Reports (s st : CtlState) (r : CtlResult) : Prop where
  changed : r.changed = (st.on != s.on)
  sensor_failed : r.sensor_failed = (st.sensor_failed && !s.sensor_failed)
  sensor_recovered : r.sensor_recovered = (s.sensor_failed && !st.sensor_failed)
  overheat_started : r.overheat_started = (st.overheat && !s.overheat)
  overheat_ended : r.overheat_ended = (s.overheat && !st.overheat)

theorem reports_zeroed (s : CtlState) : Reports s s {} := by
  constructor <;> simp

/-- A read moves the overheat flag up only from low and down only from high. -/
theorem overheat_next_edges (cfg : CtlConfig) (t : Int16) (overheat : Bool) :
    (!overheat && decide (t.toInt ≥ cfg.critical_x10.toInt)) =
        (overheat_next cfg t overheat && !overheat) ∧
      (overheat && decide (t.toInt < cfg.critical_x10.toInt - OVERHEAT_CLEAR_X10)) =
        (overheat && !overheat_next cfg t overheat) := by
  -- a reading below the clearing bound is no critical one
  have hclear : t.toInt < cfg.critical_x10.toInt - OVERHEAT_CLEAR_X10 →
      ¬ cfg.critical_x10.toInt ≤ t.toInt := by
    unfold OVERHEAT_CLEAR_X10
    omega
  unfold overheat_next
  cases overheat with
  | false => simp
  | true =>
    by_cases hcritical : cfg.critical_x10.toInt ≤ t.toInt
    · have hkept : ¬ t.toInt < cfg.critical_x10.toInt - OVERHEAT_CLEAR_X10 :=
        fun h => hclear h hcritical
      simp [hcritical, hkept]
    · simp [hcritical]

theorem reports_sensor (s : CtlState) (cfg : CtlConfig) (now_s : Int) (valid : Bool) (t : Int16) :
    Reports s (ctl_sensor s cfg now_s valid t {}).1 (ctl_sensor s cfg now_s valid t {}).2 := by
  cases valid with
  | false =>
    rw [ctl_sensor_bad]
    constructor
    · simp
    · cases s.sensor_failed <;> simp
    · cases s.sensor_failed <;> simp
    · simp
    · simp
  | true =>
    obtain ⟨hstarted, hended⟩ := overheat_next_edges cfg t s.overheat
    rw [ctl_sensor_good]
    constructor
    · simp
    · simp
    · simp
    · simpa using hstarted
    · simpa using hended

theorem reports_iteration_sensor (d : Device) (now_s : Int) (rd : Option Read) :
    Reports d.s_state (iteration_sensor d now_s rd).1.s_state
      (iteration_sensor d now_s rd).2 := by
  cases rd with
  | none => exact reports_zeroed d.s_state
  | some rd => exact reports_sensor d.s_state _ now_s rd.valid rd.temp_x10

theorem reports_manual {s st : CtlState} {m : CtlManual} {duration_s : UInt32} {now_s : Int}
    (h : ctl_manual s m duration_s now_s = some st) : Reports s st {} := by
  unfold ctl_manual at h
  split at h
  · simp at h
  · obtain rfl := Option.some.inj h
    constructor <;> simp

/-- A decision adds the pump's edge, and leaves the other two flags to the
    read before it. -/
theorem Reports.decide {s st : CtlState} {r : CtlResult} (h : Reports s st r)
    (hon : st.on = s.on) (cfg : CtlConfig) (now_s : Int) :
    Reports s (ctl_decide st cfg now_s r).1 (ctl_decide st cfg now_s r).2 := by
  have hsame : r.changed = false := by simp [h.changed, hon]
  rw [ctl_decide_eq]
  constructor
  · simp [hsame, hon]
  · exact h.sensor_failed
  · exact h.sensor_recovered
  · exact h.overheat_started
  · exact h.overheat_ended

/-! ## The events of one type -/

/-- The `on` fields of the events of a type, in order. -/
def ons (type : EventType) (es : List Event) : List Bool :=
  (es.filter fun e => e.type = type).map Event.on

/-- The starts among the pump's events. -/
def starts (es : List Event) : Nat := es.countP fun e => e.type = .pump && e.on

@[simp] theorem ons_append (type : EventType) (es es' : List Event) :
    ons type (es ++ es') = ons type es ++ ons type es' := by
  simp [ons]

@[simp] theorem starts_append (es es' : List Event) :
    starts (es ++ es') = starts es + starts es' := by
  simp [starts]

section decide_events
variable (st : CtlState) (now_s : Int) (r : CtlResult) (detail : Option CStr)

/-- The types of the three groups of events. -/
theorem sensor_events_type : ∀ e ∈ sensor_events st now_s r, e.type = .sensor := by
  unfold sensor_events
  split <;> simp [make_event]

theorem overheat_events_type : ∀ e ∈ overheat_events st now_s r, e.type = .overheat := by
  unfold overheat_events
  split <;> simp [make_event]

theorem pump_events_type :
    ∀ e ∈ pump_events st now_s r detail, e.type = .pump ∨ e.type = .manual_end := by
  intro e he
  unfold pump_events at he
  split at he
  · rw [List.mem_singleton] at he
    exact Or.inl (he ▸ rfl)
  · split at he
    · rw [List.mem_singleton] at he
      exact Or.inr (he ▸ rfl)
    · simp at he

theorem ons_of_type {type : EventType} {es : List Event} (h : ∀ e ∈ es, e.type = type) :
    ons type es = es.map Event.on := by
  unfold ons
  rw [List.filter_eq_self.mpr]
  intro e he
  simp [h e he]

theorem ons_of_other {type : EventType} {es : List Event} (h : ∀ e ∈ es, e.type ≠ type) :
    ons type es = [] := by
  unfold ons
  rw [List.filter_eq_nil_iff.mpr, List.map_nil]
  intro e he
  simp [h e he]

end decide_events

/-- A flag that is reported going up and going down is reported with its edge. -/
theorem edge_eq (b b' : Bool) :
    (if (b' && !b) = true ∨ (b && !b') = true then [b' && !b] else []) = edge b b' := by
  cases b <;> cases b' <;> rfl

section reported
variable {s st : CtlState} {r : CtlResult} (h : Reports s st r) (now_s : Int)
         (detail : Option CStr)
include h

/-- The events of a decision are the edges of the three flags. -/
theorem Reports.sensor_edge :
    ons .sensor (decide_events st now_s r detail) = edge s.sensor_failed st.sensor_failed := by
  have hover : ons .sensor (overheat_events st now_s r) = [] :=
    ons_of_other fun e he => by simp [overheat_events_type st now_s r e he]
  have hpump : ons .sensor (pump_events st now_s r detail) = [] :=
    ons_of_other fun e he => by
      rcases pump_events_type st now_s r detail e he with ht | ht <;> simp [ht]
  rw [decide_events, ons_append, ons_append, hover, hpump, List.append_nil, List.append_nil,
    ons_of_type (sensor_events_type st now_s r), ← edge_eq, ← h.sensor_failed,
    ← h.sensor_recovered]
  unfold sensor_events
  split <;> rfl

theorem Reports.overheat_edge :
    ons .overheat (decide_events st now_s r detail) = edge s.overheat st.overheat := by
  have hsensor : ons .overheat (sensor_events st now_s r) = [] :=
    ons_of_other fun e he => by simp [sensor_events_type st now_s r e he]
  have hpump : ons .overheat (pump_events st now_s r detail) = [] :=
    ons_of_other fun e he => by
      rcases pump_events_type st now_s r detail e he with ht | ht <;> simp [ht]
  rw [decide_events, ons_append, ons_append, hsensor, hpump, List.append_nil, List.nil_append,
    ons_of_type (overheat_events_type st now_s r), ← edge_eq, ← h.overheat_started,
    ← h.overheat_ended]
  unfold overheat_events
  split <;> rfl

theorem Reports.pump_edge :
    ons .pump (decide_events st now_s r detail) = edge s.on st.on := by
  have hsensor : ons .pump (sensor_events st now_s r) = [] :=
    ons_of_other fun e he => by simp [sensor_events_type st now_s r e he]
  have hover : ons .pump (overheat_events st now_s r) = [] :=
    ons_of_other fun e he => by simp [overheat_events_type st now_s r e he]
  rw [decide_events, ons_append, ons_append, hsensor, hover, List.nil_append, List.nil_append]
  unfold pump_events edge
  by_cases hon : st.on = s.on
  · have hsame : r.changed = false := by simp [h.changed, hon]
    rw [if_pos hon, hsame]
    rw [if_neg (by decide)]
    -- an override that only ended is no event of the pump
    split
    · rfl
    · rfl
  · have hchanged : r.changed = true := by simp [h.changed, hon]
    rw [if_neg hon, hchanged]
    rfl

end reported

/-! ## One section -/

/-- The way from `d` to `d'` published `es` and counted their starts. -/
structure Logged (d d' : Device) (es : List Event) : Prop where
  notified : d'.events.notified = d.events.notified ++ es
  pump : ons .pump es = edge d.s_state.on d'.s_state.on
  overheat : ons .overheat es = edge d.s_state.overheat d'.s_state.overheat
  sensor : ons .sensor es = edge d.s_state.sensor_failed d'.s_state.sensor_failed
  starts : d'.s_starts_boot = d.s_starts_boot + UInt32.ofNat (starts es)

theorem logged_refl (d : Device) : Logged d d [] where
  notified := (List.append_nil _).symm
  pump := by simp [ons, edge]
  overheat := by simp [ons, edge]
  sensor := by simp [ons, edge]
  starts := by simp [starts]

/-- A rising pump is the one thing that is counted as a start. -/
theorem starts_decide_events (st : CtlState) (now_s : Int) (r : CtlResult)
    (detail : Option CStr) :
    starts (decide_events st now_s r detail) = started st r := by
  have hsensor : starts (sensor_events st now_s r) = 0 := by
    rw [starts, List.countP_eq_zero]
    intro e he
    simp [sensor_events_type st now_s r e he]
  have hover : starts (overheat_events st now_s r) = 0 := by
    rw [starts, List.countP_eq_zero]
    intro e he
    simp [overheat_events_type st now_s r e he]
  rw [decide_events, starts_append, starts_append, hsensor, hover, Nat.zero_add]
  unfold pump_events started
  by_cases hchanged : r.changed = true
  · rw [if_pos hchanged]
    cases hon : st.on <;> simp [starts, make_event, hon, hchanged]
  · have hnone : ¬ (r.changed = true ∧ st.on = true) := fun h => hchanged h.1
    rw [if_neg hchanged, if_neg hnone]
    split
    · rfl
    · rfl

theorem decide_locked_notified (d : Device) (s : Settings) (wall : WallClock) (now_s : Int)
    (r : CtlResult) (detail : Option CStr) :
    (decide_locked d s wall now_s r detail).1.events.notified = d.events.notified ++
      decide_events (ctl_decide d.s_state (config_from_settings s) now_s r).1 now_s
        (ctl_decide d.s_state (config_from_settings s) now_s r).2 detail := by
  rw [decide_locked_eq]
  exact publish_notified d.events _

/-- A decision publishes and counts what has moved since the device `d`. -/
theorem logged_decide (d : Device) {st : CtlState} {r : CtlResult}
    (hreports : Reports d.s_state st r) (hon : st.on = d.s_state.on) (s : Settings)
    (wall : WallClock) (now_s : Int) (detail : Option CStr) :
    ∃ es, Logged d (decide_locked { d with s_state := st } s wall now_s r detail).1 es := by
  have hdecided := hreports.decide hon (config_from_settings s) now_s
  refine ⟨decide_events (ctl_decide st (config_from_settings s) now_s r).1 now_s
    (ctl_decide st (config_from_settings s) now_s r).2 detail, ?_, ?_, ?_, ?_, ?_⟩
  · exact decide_locked_notified { d with s_state := st } s wall now_s r detail
  · rw [hdecided.pump_edge, decide_locked_state]
  · rw [hdecided.overheat_edge, decide_locked_state]
  · rw [hdecided.sensor_edge, decide_locked_state]
  · rw [starts_decide_events, decide_locked_eq]
    simp [count_start_eq, count_runtime_locked_eq]

/-- The read of an iteration changes the control state alone. -/
theorem iteration_sensor_device (d : Device) (now_s : Int) (rd : Option Read) :
    (iteration_sensor d now_s rd).1 =
      { d with s_state := (iteration_sensor d now_s rd).1.s_state } := by
  cases rd <;> rfl

/-- Whatever a section does, it publishes. -/
theorem SectionStep.logged {d d' : Device} {sec : Section} (h : SectionStep d sec d') :
    ∃ es, Logged d d' es := by
  cases h with
  | iteration it =>
    have hreports := reports_iteration_sensor d it.now_s it.read
    have hon := iteration_sensor_on d it.now_s it.read
    obtain ⟨es, hes⟩ := logged_decide d hreports hon it.settings it.wall it.now_s none
    rw [← iteration_sensor_device] at hes
    rw [control_iteration_eq]
    -- the heartbeat is nothing the log knows of
    exact ⟨es, hes.notified, hes.pump, hes.overheat, hes.sensor, hes.starts⟩
  | command c st accepted =>
    exact logged_decide d (reports_manual accepted) (ctl_manual_on accepted) c.settings c.wall
      c.now_s _
  | refused q now_s _ => exact ⟨[], logged_refl d⟩

/-! ## What one step of the firmware publishes -/

/-- The events a step hands to `events_publish`: only a decision has any. -/
def step_events (s : Firmware) : Label → List Event
  | .task (.decide _) => match s.task with
    | .sensed now_s _ r =>
      let dec := ctl_decide s.dev.s_state (config_from_settings s.s_settings) now_s r
      decide_events dec.1 now_s dec.2 none
    | _ => []
  | .manual c (.decide _) => match s.callers c with
    | .manual_accepted q now_s =>
      let dec := ctl_decide s.dev.s_state (config_from_settings s.s_settings) now_s {}
      decide_events dec.1 now_s dec.2 (some q.detail)
    | _ => []
  | _ => []

theorem OutsideStep.notified {s s' : Firmware} {o : Owner} (h : OutsideStep s o s') :
    s'.dev.events.notified = s.dev.events.notified ++ [] := by
  rw [h.dev, List.append_nil]

theorem TaskStep.notified {s s' : Firmware} {act : TaskAct} (h : TaskStep s act s') :
    s'.dev.events.notified = s.dev.events.notified ++ step_events s (.task act) := by
  cases h with
  | start pc => exact (task_start_outside pc).notified
  | sample smp pc => exact (task_sample_outside smp pc).notified
  | history it on pc => exact (task_history_outside pc).notified
  | lock _ _ _ _ | relay _ _ | unlock _ _ => exact (List.append_nil _).symm
  | sensor now_s smp pc =>
    show (iteration_sensor s.dev now_s _).1.events.notified = s.dev.events.notified ++ []
    rw [iteration_sensor_device, List.append_nil]
  | decide now_s rd r wall pc =>
    simp only [step_events, pc]
    exact decide_locked_notified s.dev s.s_settings wall now_s r none

theorem ManualStep.notified {s s' : Firmware} {c : Nat} {act : ManualAct}
    (h : ManualStep s c act s') :
    s'.dev.events.notified = s.dev.events.notified ++ step_events s (.manual c act) := by
  cases h with
  | decide q now_s wall pc =>
    simp only [step_events, pc]
    exact decide_locked_notified s.dev s.s_settings wall now_s {} (some q.detail)
  | call _ _ | lock _ _ _ | accept _ _ _ _ | reject _ _ _ | unlock _ _ | refuse _ _ _ | leave _ _ =>
    exact (List.append_nil _).symm

/-- Every step appends its events to the log. -/
theorem step_notified {s s' : Firmware} {a : Label} (h : step s a = some s') :
    s'.dev.events.notified = s.dev.events.notified ++ step_events s a := by
  cases a with
  | tick _ | disturb _ =>
    obtain rfl := Option.some.inj h
    exact (List.append_nil _).symm
  | task act => exact (task_step_inv h).notified
  | manual c act => exact (manual_step_inv h).notified
  | settings c act => exact (settings_step_inv h).outside.notified

/-! ## Whole runs -/

/-- The log tells the three flags and the number of starts. -/
structure LogInv (d : Device) : Prop where
  pump : Edges (ons .pump d.events.notified) d.s_state.on
  overheat : Edges (ons .overheat d.events.notified) d.s_state.overheat
  sensor : Edges (ons .sensor d.events.notified) d.s_state.sensor_failed
  starts : d.s_starts_boot = UInt32.ofNat (starts d.events.notified)

theorem logInv_start (now_s : Int) : LogInv (control_start now_s) :=
  ⟨edges_nil, edges_nil, edges_nil, rfl⟩

theorem LogInv.logged {d d' : Device} {es : List Event} (h : LogInv d) (hes : Logged d d' es) :
    LogInv d' where
  pump := by
    rw [hes.notified, ons_append, hes.pump]
    exact h.pump.edge _
  overheat := by
    rw [hes.notified, ons_append, hes.overheat]
    exact h.overheat.edge _
  sensor := by
    rw [hes.notified, ons_append, hes.sensor]
    exact h.sensor.edge _
  starts := by
    rw [hes.notified, starts_append, hes.starts, h.starts, UInt32.ofNat_add]

theorem sections_log {secs : List Section} {d : Device} (h : Run sections secs d) : LogInv d := by
  refine h.invariant ?_ ?_
  · rintro d ⟨now_s, rfl⟩
    exact logInv_start now_s
  · intro d sec d' hd hstep
    obtain ⟨es, hes⟩ := (section_step_inv hstep).2.logged
    exact hd.logged hes

/-- The events of `dev` are those `d` has, or those the section that is under
    way leaves: once they are out, it can only be finished. -/
def PublishedBy (d dev : Device) : Prop :=
  dev.events = d.events ∨ ∃ sec d', section_step d sec = some d' ∧ dev.events = d'.events

theorem TaskSection.published {d dev : Device} {pc : TaskPc} (h : TaskSection d dev pc) :
    PublishedBy d dev := by
  have hdone : ∀ it : Iteration, dev = (decide_locked (iteration_sensor d it.now_s it.read).1
        it.settings it.wall it.now_s (iteration_sensor d it.now_s it.read).2 none).1 →
      (Section.iteration it).Sane → PublishedBy d dev := by
    intro it hdev hsane
    refine Or.inr ⟨_, _, (SectionStep.iteration it).step hsane, ?_⟩
    rw [hdev, control_iteration_eq]
  cases pc with
  | locked now_s smp => exact Or.inl (congrArg Device.events h)
  | sensed now_s rd r =>
    have hdev : dev = (iteration_sensor d now_s rd).1 := congrArg Prod.fst h.1
    left
    rw [hdev, iteration_sensor_device]
  | decided it | relayed it => exact hdone it h.1 h.2
  | top | reading | ready _ _ | released _ _ => exact h.elim

theorem CallerSection.published {d dev : Device} {pc : CallerPc} (h : CallerSection d dev pc) :
    PublishedBy d dev := by
  match pc with
  | .manual_locked _ => exact Or.inl (congrArg Device.events h)
  | .manual_accepted q now_s =>
    obtain ⟨st, -, hdev⟩ := h
    left
    rw [hdev]
  | .manual_refused q now_s => exact Or.inl (congrArg Device.events h.2)
  | .manual_decided cmd => exact Or.inr ⟨_, _, h.1.step h.2, rfl⟩
  | .idle | .manual_called _ | .manual_returned _ | .set_called _ | .set_locked _ | .set_applied _
  | .set_opened _ | .set_written _ | .set_saved _ _ | .set_returned _ _ => exact False.elim h

/-- In every state of the firmware, also in the middle of a section, the log
    is that of a run of whole sections. -/
theorem firmware_events {acts : List Label} {s : Firmware} (h : Run firmware acts s) :
    ∃ secs d, Run sections secs d ∧ s.dev.events = d.events := by
  obtain ⟨s₀, ⟨nvs, clock_us, rfl⟩, hexec⟩ := h.exists_exec
  obtain ⟨d, hd, hR⟩ := firmware_refines_sections hexec
  have hrun : Run sections (sections_of acts) d := Run.of_exec ⟨_, rfl⟩ hd
  have hpublished : PublishedBy d s.dev := by
    cases hlock : s.s_lock with
    | none => exact Or.inl (congrArg Device.events (hR.inside.free hlock))
    | some o =>
      cases o with
      | task => exact (hR.inside.in_task hlock).published
      | caller c => exact (hR.inside.in_caller hlock).published
  rcases hpublished with hev | ⟨sec, d', hstep, hev⟩
  · exact ⟨_, d, hrun, hev⟩
  · exact ⟨_, d', hrun.snoc hstep, hev⟩

/-- **The event log replays the control state.**  In every state of the
    firmware the events of the pump, of the overheat and of the sensor
    alternate, the first of each one rising.  Whenever `s_lock` is free the
    last event of each type tells the flag, low where there is none, and
    `s_starts_boot` counts the starts. -/
theorem event_log_replays (acts : List Label) (s : Firmware) (h : Run firmware acts s) :
    Alternating (ons .pump s.dev.events.notified) ∧
      Alternating (ons .overheat s.dev.events.notified) ∧
      Alternating (ons .sensor s.dev.events.notified) ∧
      (s.s_lock = none →
        s.dev.s_state.on = level (ons .pump s.dev.events.notified) ∧
        s.dev.s_state.overheat = level (ons .overheat s.dev.events.notified) ∧
        s.dev.s_state.sensor_failed = level (ons .sensor s.dev.events.notified) ∧
        s.dev.s_starts_boot = UInt32.ofNat (starts s.dev.events.notified)) := by
  obtain ⟨secs, d, hrun, hev⟩ := firmware_events h
  have hlog := sections_log hrun
  rw [hev]
  refine ⟨hlog.pump.alternating, hlog.overheat.alternating, hlog.sensor.alternating, ?_⟩
  intro hfree
  have hfinal := sections_log (firmware_free h hfree)
  rw [← hev]
  exact ⟨hfinal.pump.level.symm, hfinal.overheat.level.symm, hfinal.sensor.level.symm,
    hfinal.starts⟩

/-- A critical reading starts the pump. -/
theorem event_log_replays_critical :
    ∃ s, Run firmware (iteration_labels
        ⟨0, some ⟨default_settings, true, 450⟩, default_settings, ⟨false, 0⟩⟩) s ∧
      ons .pump s.dev.events.notified = [true] ∧ ons .overheat s.dev.events.notified = [true] ∧
      s.dev.s_state.on = true ∧ s.dev.s_starts_boot = 1 := by
  obtain ⟨s, hexec, hfree, hpump, hoverheat, hcount⟩ :
      ∃ s, firmware.exec (boot .missing 0) (iteration_labels
          ⟨0, some ⟨default_settings, true, 450⟩, default_settings, ⟨false, 0⟩⟩) = some s ∧
        s.s_lock = none ∧ ons .pump s.dev.events.notified = [true] ∧
        ons .overheat s.dev.events.notified = [true] ∧ starts s.dev.events.notified = 1 :=
    ⟨_, rfl, rfl, rfl, rfl, rfl⟩
  have hrun := run_from_boot .missing 0 hexec
  obtain ⟨hon, -, -, hstarts⟩ := (event_log_replays _ s hrun).2.2.2 hfree
  rw [hpump] at hon
  rw [hcount] at hstarts
  exact ⟨s, hrun, hpump, hoverheat, hon, hstarts⟩

end FloorHeating
