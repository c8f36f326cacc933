import FloorHeating.EventLog

/-! # Manual overrides settle in one step

    When `s_lock` is released the pump does what the override in force asks
    for.  So a decision can follow an override only in the section of the
    command that gave it: there the event carries the text of the command.
    And an override that a decision drops for an overheat was a stop, so the
    drop switches the pump; an override that ends without a switch has
    expired. -/

namespace FloorHeating

open LTS

/-! ## Settled overrides -/

/-- A rule on an override is the rule of that override. -/
theorem ctl_rule_manual_on {s : CtlState} (h : (ctl_rule s).2 = .manual_on) :
    s.manual = .start ∧ (ctl_rule s).1 = true := by
  unfold ctl_rule at h ⊢
  grind

theorem ctl_rule_manual_off {s : CtlState} (h : (ctl_rule s).2 = .manual_off) :
    s.manual = .stop ∧ (ctl_rule s).1 = false := by
  unfold ctl_rule at h ⊢
  grind

theorem Settled.start_on {s : CtlState} (h : Settled s) (hstart : s.manual = .start) :
    s.on = true := by
  have hon : s.on = (ctl_rule s).1 := congrArg Prod.fst h.rule
  rw [hon]
  unfold ctl_rule
  cases s.overheat <;> simp [hstart]

theorem Settled.stop_off {s : CtlState} (h : Settled s) (hstop : s.manual = .stop) :
    s.on = false ∧ s.overheat = false := by
  have hcool := h.stop hstop
  have hon : s.on = (ctl_rule s).1 := congrArg Prod.fst h.rule
  refine ⟨?_, hcool⟩
  rw [hon]
  unfold ctl_rule
  simp [hcool, hstop]

/-! ## Decisions of the control task

    The read before the decision leaves the pump and the override alone. -/

/-- What the control task decides on: the override and the pump are still
    those of a settled state, and nothing was reported about them. -/
structure Unmoved (s st : CtlState) (r : CtlResult) : Prop where
  on : st.on = s.on
  manual : st.manual = s.manual
  changed : r.changed = false
  expired : r.manual_expired = false
  cancelled : r.manual_cancelled = false

theorem unmoved_iteration_sensor (d : Device) (now_s : Int) (rd : Option Read) :
    Unmoved d.s_state (iteration_sensor d now_s rd).1.s_state (iteration_sensor d now_s rd).2 := by
  cases rd with
  | none => exact ⟨rfl, rfl, rfl, rfl, rfl⟩
  | some rd =>
    unfold iteration_sensor
    cases hv : rd.valid with
    | false => simp only [hv, ctl_sensor_bad]; exact ⟨rfl, rfl, rfl, rfl, rfl⟩
    | true => simp only [hv, ctl_sensor_good]; exact ⟨rfl, rfl, rfl, rfl, rfl⟩

section task
variable {s st : CtlState} {r : CtlResult} (hs : Settled s) (h : Unmoved s st r)
         (cfg : CtlConfig) (now_s : Int)
include hs h

/-- Only a stop is dropped, and the pump it kept off goes on. -/
theorem Unmoved.cancelled_changed
    (hcancelled : (ctl_decide st cfg now_s r).2.manual_cancelled = true) :
    (ctl_decide st cfg now_s r).2.changed = true := by
  rw [ctl_decide_eq] at hcancelled ⊢
  simp only [h.cancelled, h.changed, Bool.false_or] at hcancelled ⊢
  obtain ⟨-, hstop, hover⟩ := (manual_cancels_iff st now_s).mp hcancelled
  have hoff : st.on = false := by
    rw [h.on]
    exact (hs.stop_off (h.manual ▸ hstop)).1
  have hrule : (ctl_rule (flags_next st cfg now_s)).1 = true := by
    have hkept : (flags_next st cfg now_s).overheat = true := hover
    unfold ctl_rule
    rw [if_pos hkept]
  rw [hoff, hrule]
  rfl

/-- An override that is still in force has had its way already. -/
theorem Unmoved.manual_unchanged
    (hreason : (ctl_decide st cfg now_s r).1.reason = .manual_on ∨
      (ctl_decide st cfg now_s r).1.reason = .manual_off) :
    (ctl_decide st cfg now_s r).2.changed = false := by
  -- what is left of the override is what there was
  have hkept : ∀ m, m ≠ .none → (flags_next st cfg now_s).manual = m → s.manual = m := by
    intro m hm hnext
    rw [← h.manual]
    have hmanual : manual_next st now_s = m := hnext
    unfold manual_next at hmanual
    split at hmanual
    · exact absurd hmanual.symm hm
    · exact hmanual
  rw [ctl_decide_eq] at hreason ⊢
  simp only [h.changed, Bool.false_or, h.on, bne_eq_false_iff_eq] at hreason ⊢
  rcases hreason with hreason | hreason
  · obtain ⟨hstart, hrule⟩ := ctl_rule_manual_on hreason
    rw [hrule, hs.start_on (hkept .start (by decide) hstart)]
  · obtain ⟨hstop, hrule⟩ := ctl_rule_manual_off hreason
    rw [hrule, (hs.stop_off (hkept .stop (by decide) hstop)).1]

end task

/-! ## Decisions of a command -/

/-- An override given at the moment of the decision is neither over nor
    dropped. -/
theorem manual_decide_keeps {s st : CtlState} {q : Request} {now_s : Int}
    (haccepted : ctl_manual s q.manual q.clamped_s now_s = some st) (cfg : CtlConfig) :
    (ctl_decide st cfg now_s {}).2.manual_expired = false ∧
      (ctl_decide st cfg now_s {}).2.manual_cancelled = false ∧
      (ctl_decide st cfg now_s {}).1.manual = q.manual := by
  unfold ctl_manual at haccepted
  split at haccepted
  · simp at haccepted
  · rename_i hallowed
    obtain rfl := Option.some.inj haccepted
    have hclamped := clamped_s_toNat q
    rw [ctl_decide_eq]
    -- at least a minute is left
    have hrunning : ∀ u : CtlState, u.manual = q.manual →
        u.manual_until_s = (if q.manual = .none then 0 else now_s + q.clamped_s.toNat) →
        manual_expires u now_s = false := by
      intro u hm hu
      rw [Bool.eq_false_iff]
      intro hexpires
      obtain ⟨hgiven, hover⟩ := (manual_expires_iff u now_s).mp hexpires
      rw [hu, if_neg (hm ▸ hgiven)] at hover
      omega
    have hexpires := hrunning { s with
      manual := q.manual
      manual_until_s := if q.manual = .none then 0 else now_s + q.clamped_s.toNat } rfl rfl
    have hcancels : manual_cancels { s with
        manual := q.manual
        manual_until_s := if q.manual = .none then 0 else now_s + q.clamped_s.toNat } now_s =
        false := by
      rw [Bool.eq_false_iff]
      intro hcancelled
      obtain ⟨-, hstop, hover⟩ := (manual_cancels_iff _ now_s).mp hcancelled
      exact hallowed ⟨hstop, hover⟩
    refine ⟨?_, ?_, ?_⟩
    · simp [hexpires]
    · simp [hcancels]
    · simp [flags_next, manual_next, hexpires, hcancels]

/-! ## The texts of the events -/

theorem snprintf_snprintf (size : Nat) (text : CStr) :
    snprintf size (snprintf size text) = snprintf size text := by
  rw [snprintf, snprintf, List.take_take, Nat.min_self]

/-- The text of a command fits its event. -/
theorem snprintf_detail (q : Request) : snprintf DETAIL_SIZE q.detail = q.detail := by
  unfold Request.detail
  split <;> exact snprintf_snprintf _ _

theorem detail_ne_nil (q : Request) : q.detail ≠ [] := by
  unfold Request.detail snprintf
  split <;> simp [DETAIL_SIZE]

/-- A decision publishes a switch of the pump, or else the end of an override. -/
theorem pump_events_cases {st : CtlState} {now_s : Int} {r : CtlResult} {detail : Option CStr}
    {e : Event} (he : e ∈ pump_events st now_s r detail) :
    (r.changed = true ∧ e.type = .pump ∧ e.reason = st.reason ∧
        ∀ text, detail = some text → e.detail = snprintf DETAIL_SIZE text) ∨
      (r.changed = false ∧ e.type = .manual_end ∧
        (r.manual_expired = true ∨ r.manual_cancelled = true) ∧ e.mono_s = now_s ∧
        (r.manual_cancelled = false → e.detail = "expired".toList)) := by
  unfold pump_events at he
  by_cases hchanged : r.changed = true
  · rw [if_pos hchanged, List.mem_singleton] at he
    subst he
    refine Or.inl ⟨hchanged, rfl, rfl, ?_⟩
    rintro text rfl
    rfl
  · rw [if_neg hchanged] at he
    by_cases hended : r.manual_expired = true ∨ r.manual_cancelled = true
    · rw [if_pos hended, List.mem_singleton] at he
      subst he
      refine Or.inr ⟨Bool.eq_false_iff.mpr hchanged, rfl, hended, rfl, ?_⟩
      intro hcancelled
      rw [hcancelled]
      rfl
    · rw [if_neg hended] at he
      simp at he

section events
variable {st : CtlState} {now_s : Int} {r : CtlResult} {detail : Option CStr} {e : Event}
         (he : e ∈ decide_events st now_s r detail)
include he

/-- An event of the pump, or of the end of an override, is the last one of its
    decision. -/
theorem mem_pump_events (htype : e.type = .pump ∨ e.type = .manual_end) :
    e ∈ pump_events st now_s r detail := by
  rw [decide_events, List.mem_append, List.mem_append] at he
  rcases he with (he | he) | he
  · have hsensor := sensor_events_type st now_s r e he
    simp [hsensor] at htype
  · have hover := overheat_events_type st now_s r e he
    simp [hover] at htype
  · exact he

theorem pump_event_inv (htype : e.type = .pump) :
    r.changed = true ∧ e.reason = st.reason ∧
      ∀ text, detail = some text → e.detail = snprintf DETAIL_SIZE text := by
  have hmem := mem_pump_events he (Or.inl htype)
  rcases pump_events_cases hmem with ⟨hchanged, -, hreason, htext⟩ | ⟨-, hother, -⟩
  · exact ⟨hchanged, hreason, htext⟩
  · -- what is published without a switch is of the other type
    rw [hother] at htype
    simp at htype

theorem manual_end_event_inv (htype : e.type = .manual_end) :
    r.changed = false ∧ (r.manual_expired = true ∨ r.manual_cancelled = true) ∧
      e.mono_s = now_s ∧ (r.manual_cancelled = false → e.detail = "expired".toList) := by
  have hmem := mem_pump_events he (Or.inr htype)
  rcases pump_events_cases hmem with ⟨-, hother, -⟩ | ⟨hchanged, -, hended, hnow, htext⟩
  · rw [hother] at htype
    simp at htype
  · exact ⟨hchanged, hended, hnow, htext⟩

end events

/-! ## Steps of the firmware -/

/-- The step ended an override that had run out, and switched nothing. -/
structure Expired (s : Firmware) (a : Label) (s' : Firmware) (e : Event) : Prop where
  by_task : ∃ wall, a = .task (.decide wall)
  detail : e.detail = "expired".toList
  ran_out : s.dev.s_state.manual ≠ .none ∧ s.dev.s_state.manual_until_s ≤ e.mono_s
  ended : s'.dev.s_state.manual = .none
  unswitched : s'.dev.s_state.on = s.dev.s_state.on

/-- The step is the decision of a call for `m`, and the event has its text. -/
structure GivenBy (m : CtlManual) (s : Firmware) (a : Label) (e : Event) : Prop where
  call : ∃ c q now_s wall, a = .manual c (.decide wall) ∧
    s.callers c = .manual_accepted q now_s ∧ q.manual = m ∧ e.detail = q.detail
  text : e.detail ≠ []

/-- The control task decides on a settled override. -/
theorem task_unmoved {acts : List Label} {s : Firmware} (h : Run firmware acts s) {now_s : Int}
    {rd : Option Read} {r : CtlResult} (hpc : s.task = .sensed now_s rd r) :
    ∃ st₀, Settled st₀ ∧ Unmoved st₀ s.dev.s_state r := by
  obtain ⟨s₀, ⟨nvs, clock_us, rfl⟩, hexec⟩ := h.exists_exec
  obtain ⟨d, hd, hR⟩ := firmware_refines_sections hexec
  obtain ⟨-, hin, -⟩ := hR.at_task hpc rfl
  have hunmoved := unmoved_iteration_sensor d now_s rd
  rw [← hin] at hunmoved
  exact ⟨d.s_state, sections_settled (Run.of_exec ⟨_, rfl⟩ hd), hunmoved⟩

/-- A caller decides on the override it has just given. -/
theorem caller_accepted {acts : List Label} {s : Firmware} (h : Run firmware acts s) {c : Nat}
    {q : Request} {now_s : Int} (hpc : s.callers c = .manual_accepted q now_s) :
    ∃ st₀, ctl_manual st₀ q.manual q.clamped_s now_s = some s.dev.s_state := by
  obtain ⟨s₀, ⟨nvs, clock_us, rfl⟩, hexec⟩ := h.exists_exec
  obtain ⟨d, -, hR⟩ := firmware_refines_sections hexec
  obtain ⟨-, st, hst, hdev⟩ := hR.at_caller hpc rfl
  refine ⟨d.s_state, ?_⟩
  rw [hst, hdev]

theorem task_step_expired {acts : List Label} {s s' : Firmware} (h : Run firmware acts s)
    {wall : WallClock} (hstep : step s (.task (.decide wall)) = some s') {e : Event}
    (he : e ∈ step_events s (.task (.decide wall))) :
    (e.type = .manual_end → Expired s (.task (.decide wall)) s' e) ∧
      (e.type = .pump → e.reason ≠ .manual_on ∧ e.reason ≠ .manual_off) := by
  have hdecide : task_step s (.decide wall) = some s' := hstep
  cases task_step_inv hdecide with
  | decide now_s rd r wall pc =>
    simp only [step_events, pc] at he
    obtain ⟨st₀, hsettled, hunmoved⟩ := task_unmoved h pc
    have hstate : (s.task_decide now_s rd r wall).dev.s_state =
        (ctl_decide s.dev.s_state (config_from_settings s.s_settings) now_s r).1 :=
      decide_locked_state s.dev s.s_settings wall now_s r none
    refine ⟨?_, ?_⟩
    · -- it was not dropped, for that would have switched the pump
      intro htype
      obtain ⟨hsame, hended, hmono, hdetail⟩ := manual_end_event_inv he htype
      have hkept : (ctl_decide s.dev.s_state (config_from_settings s.s_settings) now_s
          r).2.manual_cancelled = false := by
        rw [Bool.eq_false_iff]
        intro hcancelled
        have hchanged := hunmoved.cancelled_changed hsettled _ now_s hcancelled
        rw [hsame] at hchanged
        exact Bool.false_ne_true hchanged
      have hexpired : manual_expires s.dev.s_state now_s = true := by
        rcases hended with hexpired | hcancelled
        · rw [ctl_decide_eq] at hexpired
          simpa [hunmoved.expired] using hexpired
        · rw [hkept] at hcancelled
          exact absurd hcancelled Bool.false_ne_true
      refine ⟨⟨wall, rfl⟩, hdetail hkept, ?_, ?_, ?_⟩
      · rw [hmono]
        exact (manual_expires_iff s.dev.s_state now_s).mp hexpired
      · rw [hstate, ctl_decide_eq]
        simp [flags_next, manual_next, hexpired]
      · rw [ctl_decide_eq] at hsame
        rw [hstate, ctl_decide_eq]
        simpa [hunmoved.changed] using hsame
    · intro htype
      obtain ⟨hchanged, hreason, -⟩ := pump_event_inv he htype
      have hmanual := hunmoved.manual_unchanged hsettled (config_from_settings s.s_settings) now_s
      rw [hreason]
      refine ⟨?_, ?_⟩
      · intro hon
        rw [hmanual (Or.inl hon)] at hchanged
        exact Bool.false_ne_true hchanged
      · intro hoff
        rw [hmanual (Or.inr hoff)] at hchanged
        exact Bool.false_ne_true hchanged

theorem manual_step_given {acts : List Label} {s s' : Firmware} (h : Run firmware acts s)
    {c : Nat} {wall : WallClock} (hstep : step s (.manual c (.decide wall)) = some s')
    {e : Event} (he : e ∈ step_events s (.manual c (.decide wall))) :
    e.type ≠ .manual_end ∧
      (e.type = .pump → (e.reason = .manual_on → GivenBy .start s (.manual c (.decide wall)) e) ∧
        (e.reason = .manual_off → GivenBy .stop s (.manual c (.decide wall)) e)) := by
  have hdecide : manual_step s c (.decide wall) = some s' := hstep
  cases manual_step_inv hdecide with
  | decide q now_s wall pc =>
    simp only [step_events, pc] at he
    obtain ⟨st₀, hst⟩ := caller_accepted h pc
    obtain ⟨hexpired, hcancelled, hmanual⟩ :=
      manual_decide_keeps hst (config_from_settings s.s_settings)
    refine ⟨?_, ?_⟩
    · intro htype
      obtain ⟨-, hended, -⟩ := manual_end_event_inv he htype
      simp [hexpired, hcancelled] at hended
    · intro htype
      obtain ⟨-, hreason, hdetail⟩ := pump_event_inv he htype
      have htext : e.detail = q.detail := by rw [hdetail q.detail rfl, snprintf_detail]
      have hgiven : ∀ m, q.manual = m → GivenBy m s (.manual c (.decide wall)) e := fun m hm =>
        ⟨⟨c, q, now_s, wall, rfl, pc, hm, htext⟩, htext ▸ detail_ne_nil q⟩
      -- the rule that won is that of the override just given
      rw [ctl_decide_eq] at hmanual hreason
      rw [hreason]
      refine ⟨?_, ?_⟩
      · intro hon
        exact hgiven .start (hmanual.symm.trans (ctl_rule_manual_on hon).1)
      · intro hoff
        exact hgiven .stop (hmanual.symm.trans (ctl_rule_manual_off hoff).1)

/-! ## Whole runs -/

/-- The event `e` was published by the step `a` of a run to `s`, the one that
    leads from `s₁` to `s₂`. -/
structure PublishedAt (acts : List Label) (s : Firmware) (e : Event) (s₁ : Firmware) (a : Label)
    (s₂ : Firmware) : Prop where
  cut : ∃ pre post, acts = pre ++ a :: post ∧ Run firmware pre s₁ ∧
    firmware.exec s₂ post = some s
  step : step s₁ a = some s₂
  new : ∃ es, s₂.dev.events.notified = s₁.dev.events.notified ++ es ∧ e ∈ es

/-- Every event of the log was published by a step of the run. -/
theorem events_published {acts : List Label} {s : Firmware} (h : Run firmware acts s) :
    ∀ e ∈ s.dev.events.notified, ∃ s₁ a s₂, PublishedAt acts s e s₁ a s₂ := by
  induction h with
  | init hboot =>
    obtain ⟨nvs, clock_us, rfl⟩ := hboot
    intro e he
    exact absurd he (List.not_mem_nil)
  | @snoc acts s a s' hrun hstep ih =>
    have hlast : step s a = some s' := hstep
    intro e he
    rw [step_notified hlast, List.mem_append] at he
    rcases he with he | he
    · -- an older event: the run has gone on since
      obtain ⟨s₁, b, s₂, ⟨⟨pre, post, rfl, hpre, hpost⟩, hb, hnew⟩⟩ := ih e he
      refine ⟨s₁, b, s₂, ⟨⟨pre, post ++ [a], by simp, hpre, ?_⟩, hb, hnew⟩⟩
      rw [exec_append, hpost]
      show (firmware.step s a).bind _ = some s'
      rw [hstep]
      rfl
    · exact ⟨s, a, s', ⟨⟨acts, [], rfl, hrun, rfl⟩, hlast, ⟨_, step_notified hlast, he⟩⟩⟩

/-- What a step of a run publishes about overrides. -/
theorem step_attributed {acts : List Label} {s s' : Firmware} (h : Run firmware acts s)
    {a : Label} (hstep : step s a = some s') {e : Event} (he : e ∈ step_events s a) :
    (e.type = .manual_end → Expired s a s' e) ∧
      (e.type = .pump → (e.reason = .manual_on → GivenBy .start s a e) ∧
        (e.reason = .manual_off → GivenBy .stop s a e)) := by
  -- only a decision publishes anything
  match a with
  | .task (.decide wall) =>
    obtain ⟨hended, hpump⟩ := task_step_expired h hstep he
    refine ⟨hended, fun htype => ⟨fun hon => ?_, fun hoff => ?_⟩⟩
    · exact absurd hon (hpump htype).1
    · exact absurd hoff (hpump htype).2
  | .manual c (.decide wall) =>
    obtain ⟨hended, hpump⟩ := manual_step_given h hstep he
    exact ⟨fun htype => absurd htype hended, hpump⟩
  | .tick _ | .disturb _ | .settings _ _ => exact absurd he List.not_mem_nil
  | .task .start | .task (.sample _) | .task .lock | .task .sensor | .task .relay
  | .task (.unlock _) | .task .history => exact absurd he List.not_mem_nil
  | .manual _ (.call _) | .manual _ .lock | .manual _ .apply | .manual _ (.unlock _)
  | .manual _ (.refuse _ _) | .manual _ .leave => exact absurd he List.not_mem_nil

/-- **Manual overrides settle in one step and are always attributed.**
    Whenever `s_lock` is free, a start override has the pump on and a stop
    override has it off, without an overheat.  A decision of the control task
    that drops an override switches the pump, and a decision of
    `control_manual` neither drops an override nor finds one expired.  Every
    event of an ended override tells one that has expired, from a step that
    switched nothing; and every event of a pump switched by an override is
    from the call that gave it, with the text of that call. -/
theorem manual_overrides_settle (acts : List Label) (s : Firmware) (h : Run firmware acts s) :
    (s.s_lock = none →
        (s.dev.s_state.manual = .start → s.dev.s_state.on = true) ∧
        (s.dev.s_state.manual = .stop →
          s.dev.s_state.on = false ∧ s.dev.s_state.overheat = false)) ∧
      (∀ now_s rd r wall, s.task = .sensed now_s rd r →
        (decide_locked s.dev s.s_settings wall now_s r none).2.manual_cancelled = true →
        (decide_locked s.dev s.s_settings wall now_s r none).2.changed = true) ∧
      (∀ c q now_s wall, s.callers c = .manual_accepted q now_s →
        (decide_locked s.dev s.s_settings wall now_s {} (some q.detail)).2.manual_expired = false ∧
        (decide_locked s.dev s.s_settings wall now_s {} (some q.detail)).2.manual_cancelled =
          false) ∧
      ∀ e ∈ s.dev.events.notified, ∃ s₁ a s₂, PublishedAt acts s e s₁ a s₂ ∧
        (e.type = .manual_end → Expired s₁ a s₂ e) ∧
        (e.type = .pump → (e.reason = .manual_on → GivenBy .start s₁ a e) ∧
          (e.reason = .manual_off → GivenBy .stop s₁ a e)) := by
  refine ⟨?_, ?_, ?_, ?_⟩
  · intro hfree
    have hsettled := sections_settled (firmware_free h hfree)
    exact ⟨hsettled.start_on, hsettled.stop_off⟩
  · intro now_s rd r wall hpc
    obtain ⟨st₀, hsettled, hunmoved⟩ := task_unmoved h hpc
    rw [decide_locked_result]
    exact hunmoved.cancelled_changed hsettled _ now_s
  · intro c q now_s wall hpc
    obtain ⟨st₀, hst⟩ := caller_accepted h hpc
    obtain ⟨hexpired, hcancelled, -⟩ :=
      manual_decide_keeps hst (config_from_settings s.s_settings)
    rw [decide_locked_result]
    exact ⟨hexpired, hcancelled⟩
  · intro e he
    obtain ⟨s₁, a, s₂, hpub⟩ := events_published h e he
    refine ⟨s₁, a, s₂, hpub, ?_⟩
    obtain ⟨⟨pre, post, -, hpre, -⟩, hstep, es, hes, hmem⟩ := hpub
    -- the new events are those of the step
    obtain rfl : step_events s₁ a = es := by
      rw [step_notified hstep] at hes
      exact List.append_cancel_left hes
    exact step_attributed hpre hstep hmem

/-- A start for ten minutes, just given. -/
theorem manual_overrides_settle_start :
    ∃ s, Run firmware (command_labels 0
        ⟨⟨.start, 600, "admin".toList⟩, 0, default_settings, ⟨false, 0⟩⟩) s ∧
      s.dev.s_state.manual = .start ∧ s.dev.s_state.on = true := by
  have hrun := run_from_boot .missing 0
    (show firmware.exec _ (command_labels 0
      ⟨⟨.start, 600, "admin".toList⟩, 0, default_settings, ⟨false, 0⟩⟩) = some _ from rfl)
  exact ⟨_, hrun, rfl, ((manual_overrides_settle _ _ hrun).1 rfl).1 rfl⟩

end FloorHeating
