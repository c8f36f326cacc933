import FloorHeating.Attribution
import FloorHeating.Status
import FloorHeating.Lib.Tenths

/-! # The app (`app.html`)

    What the app makes of the documents: the headline and the lines of the
    event list.  It decides on several fields of a document at once, in an
    order of its own.  That its picture is right is a fact about the documents
    the firmware can send, not about the app alone.

    Source: `degU`, `headline`, `eventItem` (`app.html`).  Numbers are exact
    rationals. -/

namespace FloorHeating

open LTS Json PastTime Tenths

/-! ## Texts -/

/-- `toFixed(1)`: the nearest tenth, the larger one of two. -/
def to_fixed_1 (c : ℚ) : CStr :=
  if c < 0 then '-' :: unsigned ⌊-c * 10 + 1 / 2⌋₊ else unsigned ⌊c * 10 + 1 / 2⌋₊

/-- `degU`. -/
def degU : Option ℚ → CStr
  | none => "–".toList
  | some c => to_fixed_1 c ++ " °C".toList

/-- The app prints a temperature of the firmware exactly, its sign included. -/
theorem to_fixed_1_celsius (t : Int16) : to_fixed_1 (celsius t) = tenths t.toInt := by
  have hnearest : ∀ n : ℕ, ⌊(n : ℚ) + 1 / 2⌋₊ = n := by
    intro n
    rw [Nat.floor_eq_iff (by positivity)]
    constructor <;> linarith
  unfold to_fixed_1 tenths celsius
  by_cases hneg : t.toInt < 0
  · have habs : -((t.toInt : ℚ) / 10) * 10 = (t.toInt.natAbs : ℕ) := by
      rw [Nat.cast_natAbs, abs_of_neg hneg, Int.cast_neg]
      ring
    have hneg' : (t.toInt : ℚ) / 10 < 0 := by
      have : (t.toInt : ℚ) < 0 := by exact_mod_cast hneg
      linarith
    rw [if_pos hneg, if_pos hneg', habs, hnearest]
  · have habs : (t.toInt : ℚ) / 10 * 10 = (t.toInt.natAbs : ℕ) := by
      rw [Nat.cast_natAbs, abs_of_nonneg (not_lt.mp hneg)]
      ring
    have hpos : ¬ (t.toInt : ℚ) / 10 < 0 := by
      have : (0 : ℚ) ≤ t.toInt := by exact_mod_cast not_lt.mp hneg
      linarith
    rw [if_neg hneg, if_neg hpos, habs, hnearest]

/-! ## The headline -/

/-- The three texts of the headline: the text, the colour and the pill. -/
structure Headline where
  text : CStr
  kind : CStr
  pill : CStr
  deriving DecidableEq, Repr

/-- `headline`. -/
def headline (s : StatusJson) : Headline :=
  if s.temp.overheat then
    ⟨"Overheat: pump forced on".toList, "bad".toList, "Overheat".toList⟩
  else if s.pump.reason = "sensor_fail".toList then
    ⟨"Sensor failure: pump on to be safe".toList, "bad".toList, "Sensor error".toList⟩
  else if s.pump.manual = "start".toList then
    ⟨"Pump running by hand".toList, "flow".toList, "Manual".toList⟩
  else if s.pump.manual = "stop".toList then
    ⟨"Pump stopped by hand".toList, "warn".toList, "Manual".toList⟩
  else if s.pump.reason = "maintenance".toList then
    ⟨"Maintenance run".toList, "flow".toList, "Maintenance".toList⟩
  else if s.pump.on then ⟨"Pump running".toList, "flow".toList, "Running".toList⟩
  else if s.temp.c = none then ⟨"Waiting for the sensor".toList, "ok".toList, "Idle".toList⟩
  else ⟨"Pump idle".toList, "ok".toList, "Idle".toList⟩

/-- What there is to say of the rule that decided the pump. -/
def rule_headline (reason : CtlReason) (have_temp : Bool) : Headline :=
  match reason with
  | .overheat => ⟨"Overheat: pump forced on".toList, "bad".toList, "Overheat".toList⟩
  | .sensor_fail =>
    ⟨"Sensor failure: pump on to be safe".toList, "bad".toList, "Sensor error".toList⟩
  | .manual_on => ⟨"Pump running by hand".toList, "flow".toList, "Manual".toList⟩
  | .manual_off => ⟨"Pump stopped by hand".toList, "warn".toList, "Manual".toList⟩
  | .maintenance => ⟨"Maintenance run".toList, "flow".toList, "Maintenance".toList⟩
  | .auto_hot => ⟨"Pump running".toList, "flow".toList, "Running".toList⟩
  | .auto_cold =>
    if have_temp then ⟨"Pump idle".toList, "ok".toList, "Idle".toList⟩
    else ⟨"Waiting for the sensor".toList, "ok".toList, "Idle".toList⟩

/-- **The headline names the rule that decided the pump.**  It looks at five
    fields, and the override before the reason; yet on every document of a
    state that the device can be in between two critical sections it comes
    out as the rule's own. -/
theorem headline_names_rule (secs : List Section) (d : Device) (h : Run sections secs d)
    (now_s : Int) (s : Settings) (clock : HandlerClock) :
    headline (status_json (control_status d now_s) s clock) =
      rule_headline d.s_state.reason d.s_state.have_temp := by
  have hset := sections_settled h
  have hon : d.s_state.on = (ctl_rule d.s_state).1 := congrArg Prod.fst hset.rule
  have hreason : d.s_state.reason = (ctl_rule d.s_state).2 := congrArg Prod.snd hset.rule
  have hname : ∀ r, ctl_reason_name d.s_state.reason = ctl_reason_name r ↔ d.s_state.reason = r :=
    fun r => ctl_reason_name_inj
  have hmanual : ∀ m, manual_name d.s_state.manual = manual_name m ↔ d.s_state.manual = m :=
    fun m => manual_name_inj
  have hfail : ctl_reason_name d.s_state.reason = "sensor_fail".toList ↔
      d.s_state.reason = .sensor_fail := hname .sensor_fail
  have hmaint : ctl_reason_name d.s_state.reason = "maintenance".toList ↔
      d.s_state.reason = .maintenance := hname .maintenance
  have hstart : manual_name d.s_state.manual = "start".toList ↔ d.s_state.manual = .start :=
    hmanual .start
  have hstop : manual_name d.s_state.manual = "stop".toList ↔ d.s_state.manual = .stop :=
    hmanual .stop
  unfold headline
  simp only [status_json, control_status, hfail, hmaint, hstart, hstop]
  simp only [hon, hreason]
  -- the rules in their own order, which is not the app's
  unfold ctl_rule
  cases d.s_state.overheat with
  | true => rfl
  | false =>
    cases d.s_state.manual with
    | start | stop => rfl
    | none =>
      cases d.s_state.sensor_failed with
      | true => rfl
      | false =>
        cases d.s_state.hot with
        | true => rfl
        | false =>
          cases d.s_state.maintenance with
          | true => rfl
          | false =>
            show (if (if d.s_state.have_temp = true then some (celsius d.s_state.temp_x10)
                else none) = none then rule_headline .auto_cold false
              else rule_headline .auto_cold true) = rule_headline .auto_cold d.s_state.have_temp
            by_cases htemp : d.s_state.have_temp = true
            · rw [if_neg fun hcold => by simp [htemp] at hcold, htemp]
            · rw [if_pos (if_neg htemp), Bool.eq_false_iff.mpr htemp]

/-- Water at 35 °C, and a stop by hand: the pump is off though the water is
    hot. -/
theorem headline_names_rule_stopped : ∃ d,
    Run sections [.iteration ⟨0, some ⟨default_settings, true, 350⟩, default_settings, ⟨false, 0⟩⟩,
      .command ⟨⟨.stop, 600, "admin".toList⟩, 7, default_settings, ⟨false, 0⟩⟩] d ∧
      d.s_state.hot = true ∧
      headline (status_json (control_status d 8) default_settings ⟨false, 0, 8, 8⟩) =
        ⟨"Pump stopped by hand".toList, "warn".toList, "Manual".toList⟩ := by
  obtain ⟨d, hrun, hhot, hreason⟩ : ∃ d,
      Run sections [.iteration ⟨0, some ⟨default_settings, true, 350⟩, default_settings,
        ⟨false, 0⟩⟩, .command ⟨⟨.stop, 600, "admin".toList⟩, 7, default_settings, ⟨false, 0⟩⟩] d ∧
        d.s_state.hot = true ∧ d.s_state.reason = .manual_off :=
    ⟨_, Run.of_exec ⟨0, rfl⟩ rfl, rfl, rfl⟩
  refine ⟨d, hrun, hhot, ?_⟩
  rw [headline_names_rule _ d hrun, hreason]
  rfl

/-! ## The event list -/

/-- One line of the list. -/
structure EventItem where
  ts : Int
  what : CStr
  small : CStr
  amt : CStr
  kind : CStr
  deriving DecidableEq, Repr

/-- The texts of a pump event: `what`, `by` if it goes into `small`, `kind`. -/
def pump_texts (e : EventJson) : CStr × Bool × CStr :=
  if e.reason = "auto_hot".toList then ("Pump started".toList, false, [])
  else if e.reason = "manual_on".toList then ("Started by hand".toList, true, [])
  else if e.reason = "manual_off".toList then ("Stopped by hand".toList, true, "warn".toList)
  else if e.reason = "maintenance".toList then ("Maintenance run".toList, false, [])
  else if e.reason = "sensor_fail".toList then
    ("Pump on: sensor failure".toList, false, "bad".toList)
  else if e.reason = "overheat".toList then ("Pump on: overheat".toList, false, "bad".toList)
  else if e.prev_reason = "maintenance".toList then ("Maintenance run done".toList, false, [])
  else if e.prev_reason = "manual_on".toList ∨ e.prev_reason = "manual_off".toList then
    (if e.on then "Back to auto, pump running".toList else "Back to auto, pump stopped".toList,
      false, [])
  else (if e.on then "Pump running".toList else "Pump stopped".toList, false, [])

/-- `eventItem`. -/
def eventItem (e : EventJson) : EventItem :=
  let small := if e.temp_c = none then [] else "water ".toList ++ degU e.temp_c
  if e.type = "pump".toList then
    let (what, signed, kind) := pump_texts e
    -- an empty detail is no name
    let who := if e.detail = [] then [] else ", ".toList ++ e.detail
    { ts := e.ts
      what
      small := if signed then small ++ who else small
      amt := if e.on then "on".toList else "off".toList
      kind }
  else if e.type = "overheat".toList then
    { ts := e.ts
      what := if e.on then "Overheat".toList else "Overheat over".toList
      small
      amt := []
      kind := if e.on then "bad".toList else [] }
  else if e.type = "sensor".toList then
    { ts := e.ts
      what := if e.on then "Temperature sensor failed".toList
        else "Temperature sensor back".toList
      small
      amt := []
      kind := if e.on then "bad".toList else [] }
  else
    { ts := e.ts
      what := if e.detail = "overheat".toList then "Manual stop cancelled by overheat".toList
        else "Back to auto".toList
      small
      amt := []
      kind := if e.detail = "overheat".toList then "warn".toList else [] }

/-- What there is to say of a pump event. -/
def switch_text (reason prev_reason : CtlReason) : CStr :=
  match reason with
  | .auto_hot => "Pump started".toList
  | .manual_on => "Started by hand".toList
  | .manual_off => "Stopped by hand".toList
  | .maintenance => "Maintenance run".toList
  | .sensor_fail => "Pump on: sensor failure".toList
  | .overheat => "Pump on: overheat".toList
  | .auto_cold => match prev_reason with
    | .maintenance => "Maintenance run done".toList
    | .manual_on | .manual_off => "Back to auto, pump stopped".toList
    | _ => "Pump stopped".toList

/-- How a pump event is coloured. -/
def switch_kind : CtlReason → CStr
  | .manual_off => "warn".toList
  | .sensor_fail | .overheat => "bad".toList
  | _ => []

/-- The rules that let the pump run. -/
def CtlReason.runs : CtlReason → Bool
  | .auto_cold | .manual_off => false
  | _ => true

theorem ctl_rule_runs (s : CtlState) : (ctl_rule s).1 = (ctl_rule s).2.runs := by
  unfold ctl_rule
  cases s.overheat with
  | true => rfl
  | false =>
    cases s.manual with
    | start | stop => rfl
    | none => cases s.sensor_failed <;> cases s.hot <;> cases s.maintenance <;> rfl

theorem Settled.runs {s : CtlState} (h : Settled s) : s.on = s.reason.runs := by
  have hon : s.on = (ctl_rule s).1 := congrArg Prod.fst h.rule
  have hreason : s.reason = (ctl_rule s).2 := congrArg Prod.snd h.rule
  rw [hon, hreason]
  exact ctl_rule_runs s

/-- The last temperature of the control state, in the list. -/
def water (s : CtlState) : CStr :=
  if s.have_temp then "water ".toList ++ tenths s.temp_x10.toInt ++ " °C".toList else []

/-- The line tells what the step from `s` to `s'`, which published the event,
    did to the device. -/
structure EventItem.Tells (item : EventItem) (e : Event) (s : Firmware) (a : Label)
    (s' : Firmware) : Prop where
  switched : e.type = .pump → s'.dev.s_state.on = !s.dev.s_state.on ∧
    item.what = switch_text s'.dev.s_state.reason s.dev.s_state.reason ∧
    item.amt = (if s'.dev.s_state.on then "on".toList else "off".toList) ∧
    item.kind = switch_kind s'.dev.s_state.reason
  by_rule : e.type = .pump → s'.dev.s_state.reason ≠ .manual_on →
    s'.dev.s_state.reason ≠ .manual_off → item.small = water s'.dev.s_state
  started : e.type = .pump → s'.dev.s_state.reason = .manual_on → GivenBy .start s a e ∧
    item.small = water s'.dev.s_state ++ (", ".toList ++ e.detail)
  stopped : e.type = .pump → s'.dev.s_state.reason = .manual_off → GivenBy .stop s a e ∧
    item.small = water s'.dev.s_state ++ (", ".toList ++ e.detail)
  overheat : e.type = .overheat →
    item.what = (if s'.dev.s_state.overheat then "Overheat".toList else "Overheat over".toList) ∧
    item.amt = [] ∧ item.kind = if s'.dev.s_state.overheat then "bad".toList else []
  sensor : e.type = .sensor →
    item.what = (if s'.dev.s_state.sensor_failed then "Temperature sensor failed".toList
      else "Temperature sensor back".toList) ∧
    item.amt = [] ∧ item.kind = if s'.dev.s_state.sensor_failed then "bad".toList else []
  ended : e.type = .manual_end → Expired s a s' e ∧ item.what = "Back to auto".toList ∧
    item.amt = [] ∧ item.kind = []
  temp : e.type ≠ .pump → item.small = water s'.dev.s_state

/-! ### The events of a step -/

/-- A step that publishes is a decision, on a result that reports what moved
    since a state with the same pump. -/
theorem publishing_decides {acts : List Label} {s s' : Firmware} {a : Label} {e : Event}
    (h : Run firmware acts s) (hstep : step s a = some s') (he : e ∈ step_events s a) :
    ∃ st₀ cfg now_s r detail, Reports st₀ s.dev.s_state r ∧ s.dev.s_state.on = st₀.on ∧
      s'.dev.s_state = (ctl_decide s.dev.s_state cfg now_s r).1 ∧
      e ∈ decide_events (ctl_decide s.dev.s_state cfg now_s r).1 now_s
        (ctl_decide s.dev.s_state cfg now_s r).2 detail := by
  match a with
  | .task (.decide wall) =>
    have hdecide : task_step s (.decide wall) = some s' := hstep
    cases task_step_inv hdecide with
    | decide now_s rd r wall pc =>
      simp only [step_events, pc] at he
      obtain ⟨s₀, ⟨nvs, clock_us, rfl⟩, hexec⟩ := h.exists_exec
      obtain ⟨d, -, hR⟩ := firmware_refines_sections hexec
      obtain ⟨-, hin, -⟩ := hR.at_task pc rfl
      have hreports := reports_iteration_sensor d now_s rd
      have hon := iteration_sensor_on d now_s rd
      rw [← hin] at hreports hon
      exact ⟨d.s_state, _, now_s, r, none, hreports, hon,
        decide_locked_state s.dev s.s_settings wall now_s r none, he⟩
  | .manual c (.decide wall) =>
    have hdecide : manual_step s c (.decide wall) = some s' := hstep
    cases manual_step_inv hdecide with
    | decide q now_s wall pc =>
      simp only [step_events, pc] at he
      exact ⟨s.dev.s_state, _, now_s, {}, some q.detail, reports_zeroed _, rfl,
        decide_locked_state s.dev s.s_settings wall now_s {} (some q.detail), he⟩
  | .tick _ | .disturb _ | .settings _ _ => exact absurd he List.not_mem_nil
  | .task .start | .task (.sample _) | .task .lock | .task .sensor | .task .relay
  | .task (.unlock _) | .task .history => exact absurd he List.not_mem_nil
  | .manual _ (.call _) | .manual _ .lock | .manual _ .apply | .manual _ (.unlock _)
  | .manual _ (.refuse _ _) | .manual _ .leave => exact absurd he List.not_mem_nil

/-- What an event has of the device the step leaves. -/
structure Event.Shows (e : Event) (st st' : CtlState) : Prop where
  runs : st'.on = st'.reason.runs
  has_temp : e.has_temp = st'.have_temp
  temp_x10 : e.temp_x10 = st'.temp_x10
  pump : e.type = .pump → e.on = st'.on ∧ e.reason = st'.reason ∧ e.prev_reason = st.reason ∧
    st'.on = !st.on
  overheat : e.type = .overheat → e.on = st'.overheat
  sensor : e.type = .sensor → e.on = st'.sensor_failed

/-- Every event of a decision has the temperature of its state. -/
theorem decide_events_temp {st : CtlState} {now_s : Int} {r : CtlResult} {detail : Option CStr}
    {e : Event} (he : e ∈ decide_events st now_s r detail) :
    e.has_temp = st.have_temp ∧ e.temp_x10 = st.temp_x10 := by
  unfold decide_events sensor_events overheat_events pump_events at he
  simp only [List.mem_append] at he
  rcases he with (he | he) | he
  · split at he
    · obtain rfl := List.mem_singleton.mp he
      exact ⟨rfl, rfl⟩
    · simp at he
  · split at he
    · obtain rfl := List.mem_singleton.mp he
      exact ⟨rfl, rfl⟩
    · simp at he
  · split at he
    · obtain rfl := List.mem_singleton.mp he
      exact ⟨rfl, rfl⟩
    · split at he
      · obtain rfl := List.mem_singleton.mp he
        exact ⟨rfl, rfl⟩
      · simp at he

/-- An edge has nothing but the flag after it. -/
theorem on_of_edge {type : EventType} {es : List Event} {e : Event} {b b' : Bool} (he : e ∈ es)
    (htype : e.type = type) (hedge : ons type es = edge b b') : e.on = b' ∧ b ≠ b' := by
  have hmem : e.on ∈ ons type es :=
    List.mem_map.mpr ⟨e, List.mem_filter.mpr ⟨he, decide_eq_true htype⟩, rfl⟩
  rw [hedge, edge] at hmem
  split at hmem
  · simp at hmem
  · rename_i hne
    exact ⟨List.mem_singleton.mp hmem, fun heq => hne heq.symm⟩

/-- A pump event has the state after the switch and the rule before it. -/
theorem pump_event_rules {st : CtlState} {now_s : Int} {r : CtlResult} {detail : Option CStr}
    {e : Event} (he : e ∈ decide_events st now_s r detail) (htype : e.type = .pump) :
    e.reason = st.reason ∧ e.prev_reason = r.prev_reason := by
  have hmem := mem_pump_events he (Or.inl htype)
  unfold pump_events at hmem
  split at hmem
  · obtain rfl := List.mem_singleton.mp hmem
    exact ⟨rfl, rfl⟩
  · split at hmem
    · obtain rfl := List.mem_singleton.mp hmem
      exact absurd htype (by simp [make_event])
    · simp at hmem

theorem step_shows {acts : List Label} {s s' : Firmware} {a : Label} {e : Event}
    (h : Run firmware acts s) (hstep : step s a = some s') (he : e ∈ step_events s a) :
    e.Shows s.dev.s_state s'.dev.s_state := by
  obtain ⟨st₀, cfg, now_s, r, detail, hreports, hon, hstate, hmem⟩ := publishing_decides h hstep he
  have hdecided := hreports.decide hon cfg now_s
  obtain ⟨hhas, htemp⟩ := decide_events_temp hmem
  have hset := settled_decide s.dev.s_state cfg now_s
  rw [← ctl_decide_state s.dev.s_state cfg now_s r] at hset
  rw [hstate]
  refine ⟨?_, hhas, htemp, ?_, ?_, ?_⟩
  · exact hset.runs
  · intro htype
    obtain ⟨hafter, hne⟩ := on_of_edge hmem htype (hdecided.pump_edge now_s detail)
    obtain ⟨hreason, hprev⟩ := pump_event_rules hmem htype
    have hfrom : (ctl_decide s.dev.s_state cfg now_s r).2.prev_reason = s.dev.s_state.reason := by
      rw [ctl_decide_eq]
    refine ⟨hafter, hreason, hprev.trans hfrom, ?_⟩
    rw [hon]
    exact (Bool.eq_not.mpr hne.symm)
  · intro htype
    exact (on_of_edge hmem htype (hdecided.overheat_edge now_s detail)).1
  · intro htype
    exact (on_of_edge hmem htype (hdecided.sensor_edge now_s detail)).1

/-! ### The line of an event -/

section line
variable {e : Event} {st st' : CtlState} (hshows : e.Shows st st') (clock : HandlerClock)
include hshows

theorem small_water :
    (if (event_json e clock).temp_c = none then []
      else "water ".toList ++ degU (event_json e clock).temp_c) = water st' := by
  unfold event_json water
  rw [← hshows.has_temp, ← hshows.temp_x10]
  cases e.has_temp with
  | false => rfl
  | true =>
    show "water ".toList ++ (to_fixed_1 (celsius e.temp_x10) ++ " °C".toList) = _
    rw [to_fixed_1_celsius, if_pos rfl, List.append_assoc]

omit hshows in
theorem type_pump_iff : (event_json e clock).type = "pump".toList ↔ e.type = .pump := by
  show event_type_name e.type = _ ↔ _
  cases e.type <;> decide

/-- A pump event that agrees with its reason has the texts of its reason. -/
theorem pump_texts_eq (htype : e.type = .pump) :
    pump_texts (event_json e clock) = (switch_text st'.reason st.reason,
      decide (st'.reason = .manual_on ∨ st'.reason = .manual_off), switch_kind st'.reason) := by
  obtain ⟨hon, hreason, hprev, -⟩ := hshows.pump htype
  unfold pump_texts switch_text switch_kind
  simp only [event_json, hon, hreason, hprev, hshows.runs]
  cases st'.reason with
  | auto_cold => cases st.reason <;> rfl
  | auto_hot | manual_on | manual_off | maintenance | sensor_fail | overheat => rfl

theorem eventItem_pump (htype : e.type = .pump) :
    eventItem (event_json e clock) =
      { ts := (event_json e clock).ts
        what := switch_text st'.reason st.reason
        small := if st'.reason = .manual_on ∨ st'.reason = .manual_off then
            water st' ++ if e.detail = [] then [] else ", ".toList ++ e.detail
          else water st'
        amt := if st'.on then "on".toList else "off".toList
        kind := switch_kind st'.reason } := by
  unfold eventItem
  rw [small_water hshows, if_pos ((type_pump_iff clock).mpr htype),
    pump_texts_eq hshows clock htype]
  simp only [decide_eq_true_eq, ← (hshows.pump htype).1]
  rfl

theorem eventItem_overheat (htype : e.type = .overheat) :
    eventItem (event_json e clock) =
      { ts := (event_json e clock).ts
        what := if st'.overheat then "Overheat".toList else "Overheat over".toList
        small := water st'
        amt := []
        kind := if st'.overheat then "bad".toList else [] } := by
  have hname : (event_json e clock).type = "overheat".toList := congrArg event_type_name htype
  unfold eventItem
  rw [small_water hshows, hname, ← hshows.overheat htype]
  rfl

theorem eventItem_sensor (htype : e.type = .sensor) :
    eventItem (event_json e clock) =
      { ts := (event_json e clock).ts
        what := if st'.sensor_failed then "Temperature sensor failed".toList
          else "Temperature sensor back".toList
        small := water st'
        amt := []
        kind := if st'.sensor_failed then "bad".toList else [] } := by
  have hname : (event_json e clock).type = "sensor".toList := congrArg event_type_name htype
  unfold eventItem
  rw [small_water hshows, hname, ← hshows.sensor htype]
  rfl

theorem eventItem_manual_end (htype : e.type = .manual_end)
    (hdetail : e.detail = "expired".toList) :
    eventItem (event_json e clock) =
      { ts := (event_json e clock).ts
        what := "Back to auto".toList
        small := water st'
        amt := []
        kind := [] } := by
  have hname : (event_json e clock).type = "manual_end".toList := congrArg event_type_name htype
  have hother : (event_json e clock).detail = "expired".toList := hdetail
  unfold eventItem
  rw [small_water hshows, hname, hother]
  rfl

end line

/-- **The event list says what happened.**  Every event of every run was
    published by a step, and its line in the list tells what that step did to
    the device: that the pump was switched, by which rule and from which, and
    how it is now; that the overheat or the failure of the sensor began or
    ended; that an override ran out.  An override names its caller, as far as
    the text of the event holds the name, and every line has the temperature
    that the device had.  In particular the two texts for a pump that goes on
    running and that of a stop cancelled by an overheat are never seen. -/
theorem event_item_tells (acts : List Label) (s : Firmware) (h : Run firmware acts s) (e : Event)
    (he : e ∈ s.dev.events.notified) (clock : HandlerClock) :
    ∃ s₁ a s₂, PublishedAt acts s e s₁ a s₂ ∧
      (eventItem (event_json e clock)).Tells e s₁ a s₂ := by
  obtain ⟨s₁, a, s₂, hpub⟩ := events_published h e he
  refine ⟨s₁, a, s₂, hpub, ?_⟩
  obtain ⟨⟨pre, post, -, hpre, -⟩, hstep, es, hes, hmem⟩ := hpub
  obtain rfl : step_events s₁ a = es := by
    rw [step_notified hstep] at hes
    exact List.append_cancel_left hes
  obtain ⟨hended, hpump⟩ := step_attributed hpre hstep hmem
  have hshows := step_shows hpre hstep hmem
  refine ⟨?_, ?_, ?_, ?_, ?_, ?_, ?_, ?_⟩
  · intro htype
    rw [eventItem_pump hshows clock htype]
    exact ⟨(hshows.pump htype).2.2.2, rfl, rfl, rfl⟩
  · intro htype hon hoff
    rw [eventItem_pump hshows clock htype]
    exact if_neg (not_or.mpr ⟨hon, hoff⟩)
  · intro htype hreason
    have hgiven := (hpump htype).1 ((hshows.pump htype).2.1.trans hreason)
    rw [eventItem_pump hshows clock htype]
    exact ⟨hgiven, by simp only [hreason, hgiven.text, true_or, if_true, if_false]⟩
  · intro htype hreason
    have hgiven := (hpump htype).2 ((hshows.pump htype).2.1.trans hreason)
    rw [eventItem_pump hshows clock htype]
    exact ⟨hgiven, by simp only [hreason, hgiven.text, or_true, if_true, if_false]⟩
  · intro htype
    rw [eventItem_overheat hshows clock htype]
    exact ⟨rfl, rfl, rfl⟩
  · intro htype
    rw [eventItem_sensor hshows clock htype]
    exact ⟨rfl, rfl, rfl⟩
  · intro htype
    rw [eventItem_manual_end hshows clock htype (hended htype).detail]
    exact ⟨hended htype, rfl, rfl, rfl⟩
  · intro htype
    cases hkind : e.type with
    | pump => exact absurd hkind htype
    | overheat => rw [eventItem_overheat hshows clock hkind]
    | sensor => rw [eventItem_sensor hshows clock hkind]
    | manual_end => rw [eventItem_manual_end hshows clock hkind (hended hkind).detail]

/-- A critical reading right after boot, of which the log says that the overheat
    began, and then that the pump was switched on. -/
theorem event_item_tells_overheat : ∃ s e s₁ a s₂,
    Run firmware (iteration_labels
      ⟨0, some ⟨default_settings, true, 450⟩, default_settings, ⟨false, 0⟩⟩) s ∧
      e ∈ s.dev.events.notified ∧ e.type = .overheat ∧
      PublishedAt (iteration_labels
        ⟨0, some ⟨default_settings, true, 450⟩, default_settings, ⟨false, 0⟩⟩) s e s₁ a s₂ ∧
      (eventItem (event_json e ⟨false, 0, 0, 0⟩)).Tells e s₁ a s₂ ∧
      eventItem (event_json e ⟨false, 0, 0, 0⟩) =
        ⟨0, "Overheat".toList, "water 45.0 °C".toList, [], "bad".toList⟩ := by
  obtain ⟨s, e, hexec, hmem, htype, hline⟩ : ∃ s e, firmware.exec (boot .missing 0)
      (iteration_labels ⟨0, some ⟨default_settings, true, 450⟩, default_settings, ⟨false, 0⟩⟩) =
        some s ∧ e ∈ s.dev.events.notified ∧ e.type = .overheat ∧
      eventItem (event_json e ⟨false, 0, 0, 0⟩) =
        ⟨0, "Overheat".toList, "water 45.0 °C".toList, [], "bad".toList⟩ :=
    ⟨_, _, rfl, List.mem_cons_self, rfl, by decide +kernel⟩
  have hrun := run_from_boot .missing 0 hexec
  obtain ⟨s₁, a, s₂, hpub, htells⟩ := event_item_tells _ _ hrun e hmem ⟨false, 0, 0, 0⟩
  exact ⟨s, e, s₁, a, s₂, hrun, hmem, htype, hpub, htells, hline⟩

end FloorHeating
