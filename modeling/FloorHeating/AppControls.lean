import FloorHeating.App
import FloorHeating.StatusReplies

/-! # What the app sends

    The slide switches the pump: it is armed on the state the app knows, and
    sends the command that turns the pump over.  The steppers move a threshold
    by half a degree from the one the app knows, over `settings_handler`,
    which clamps what it gets.

    Both go by `state`, the document the app has, which lags behind the
    device: it changes only when an answer comes.  A slide is therefore only
    as good as its document is current, and a second click before the answer
    to the first starts from the same number again.

    Source: `swipe`, `command`, `saveSettings` and the click handlers of the
    steppers (`app.html`). -/

namespace FloorHeating

open LTS Binary64

/-! ## The slide -/

/-- What the app keeps: the last document, whether a command is on its way,
    and the duration that is chosen, a number of the language and so a double. -/
structure App where
  state : Option StatusJson
  busy : Bool
  minutes : ℚ
  minutes_double : IsBinary64 minutes

/-- `canStart` of the slide. -/
def App.canStart (app : App) : Bool :=
  !app.busy && match app.state with
    | none => false
    | some s => !(s.pump.on && s.temp.overheat)

/-- The body that `command` posts. -/
def command_body (stateName : CStr) (minutes : ℚ) : Body := fun key =>
  if key = "state".toList then some (.string stateName)
  else if key = "minutes".toList ∧ stateName ≠ "auto".toList then some (.number minutes)
  else none

/-- `onFire` of the slide. -/
def App.onFire (app : App) (s : StatusJson) : Body :=
  command_body (if s.pump.on then "stop".toList else "start".toList) app.minutes

/-- What a slide to its end posts, if the slide is armed. -/
def App.slide (app : App) : Option Body :=
  if app.canStart then app.state.map app.onFire else none

/-- The override that turns the pump over. -/
def turning (on : Bool) : CtlManual := if on then .stop else .start

theorem onFire_command (app : App) (hminutes : 0 < app.minutes) (s : StatusJson) (who : CStr) :
    pump_command (app.onFire s) who =
      .ok ⟨turning s.pump.on, minutes_duration_s app.minutes, who⟩ := by
  -- a double is read as it was sent
  have hread : valuedouble app.minutes = app.minutes := app.minutes_double.round64_eq
  have hpositive : positive_minutes (some (.number app.minutes)) = some app.minutes := by
    simp [positive_minutes, hread, hminutes]
  unfold App.onFire turning
  cases s.pump.on with
  | true => exact pump_command_override rfl CtlManual.noConfusion hpositive who
  | false => exact pump_command_override rfl CtlManual.noConfusion hpositive who

/-- A command that is accepted leaves its override in force, and the pump as it
    has to be. -/
theorem command_settles {d : Device} {c : Command} {st : CtlState}
    (h : ctl_manual d.s_state c.request.manual c.request.clamped_s c.now_s = some st) :
    ∃ d', control_manual d c = (.ok, d') ∧ d'.s_state.manual = c.request.manual ∧
      Settled d'.s_state := by
  have hmanual : control_manual d c = (.ok, (decide_locked { d with s_state := st } c.settings
      c.wall c.now_s {} (some c.request.detail)).1) := by
    simp [control_manual, h]
  refine ⟨_, hmanual, ?_, ?_⟩
  · rw [decide_locked_state, ctl_decide_state]
    rcases (overrideSince_command h (config_from_settings c.settings)).manual with hkept | ⟨-, hend⟩
    · exact hkept
    · -- nothing has happened since
      simp [Ended] at hend
  · rw [decide_locked_state, ctl_decide_state]
    exact settled_decide _ _ _

/-- **A slide turns the pump over, as long as the app's document is current.**
    Whatever state the device can be in between two critical sections, a slide
    on a document of that state posts a command that passes every check of the
    handler, is accepted and switches the pump.  Where the slide is not armed,
    though nothing is on its way, the pump runs in an overheat, and a stop
    would be refused.  On an older document the command may find the pump
    already as it asks for, or be refused. -/
theorem slide_turns_pump (secs : List Section) (d : Device) (h : Run sections secs d)
    (now_s : Int) (s : Settings) (clock : HandlerClock) (app : App) (hminutes : 0 < app.minutes)
    (hstate : app.state = some (status_json (control_status d now_s) s clock)) (who : CStr) :
    (∀ body, app.slide = some body → ∃ q, pump_command body who = .ok q ∧
        ∀ c : Command, c.request = q → ∃ d', control_manual d c = (.ok, d') ∧
          d'.s_state.on = !d.s_state.on) ∧
      (app.slide = none → app.busy = false → d.s_state.on = true ∧ d.s_state.overheat = true ∧
        ∀ c : Command, c.request.manual = .stop →
          control_manual d c = (.refused_overheat, d)) := by
  have hset := sections_settled h
  have harmed : app.canStart = (!app.busy && !(d.s_state.on && d.s_state.overheat)) := by
    simp [App.canStart, hstate, status_json, control_status]
  refine ⟨?_, ?_⟩
  · intro body hslide
    unfold App.slide at hslide
    rw [hstate] at hslide
    obtain ⟨hcan, hbody⟩ := Option.ite_none_right_eq_some.mp hslide
    obtain rfl := Option.some.inj hbody
    refine ⟨_, onFire_command app hminutes _ who, ?_⟩
    rintro c hc
    have hturning : c.request.manual = turning d.s_state.on := by
      rw [hc]
      rfl
    -- the slide is armed for the commands that are accepted
    have haccepted : ctl_manual d.s_state c.request.manual c.request.clamped_s c.now_s ≠ none := by
      rw [Ne, ctl_manual_eq_none_iff, hturning]
      rintro ⟨hstop, hover⟩
      rw [harmed, hover] at hcan
      cases hon : d.s_state.on with
      | true => simp [hon] at hcan
      | false => simp [turning, hon] at hstop
    obtain ⟨st, hst⟩ := Option.ne_none_iff_exists'.mp haccepted
    obtain ⟨d', hd', hmanual, hset'⟩ := command_settles hst
    refine ⟨d', hd', ?_⟩
    rw [hturning] at hmanual
    cases hon : d.s_state.on with
    | true =>
      rw [hon] at hmanual
      exact hset'.stop_off hmanual |>.1
    | false =>
      rw [hon] at hmanual
      exact hset'.start_on hmanual
  · intro hslide hbusy
    have hcan : app.canStart = false := by
      by_contra hcan
      unfold App.slide at hslide
      rw [if_pos (by simpa using hcan), hstate] at hslide
      simp at hslide
    rw [harmed, hbusy] at hcan
    obtain ⟨hon, hover⟩ : d.s_state.on = true ∧ d.s_state.overheat = true := by
      simpa using hcan
    refine ⟨hon, hover, ?_⟩
    intro c hstop
    rcases control_manual_cases d c with ⟨-, hrefused⟩ | ⟨st, hst, -⟩
    · exact hrefused
    · rw [(ctl_manual_eq_none_iff _ _ _ _).mpr ⟨hstop, hover⟩] at hst
      simp at hst

/-- The app after boot, for half an hour. -/
def boot_app : App :=
  ⟨some (status_json (control_status (control_start 0) 3) default_settings ⟨false, 0, 3, 3⟩),
    false, 30, isBinary64_intCast (by norm_num)⟩

/-- The first slide after boot. -/
theorem slide_turns_pump_boot : ∃ q,
    pump_command (command_body "start".toList 30) "app".toList = .ok q ∧
      ∀ c : Command, c.request = q → ∃ d', control_manual (control_start 0) c = (.ok, d') ∧
        d'.s_state.on = true :=
  (slide_turns_pump [] (control_start 0) (.init ⟨0, rfl⟩) 3 default_settings ⟨false, 0, 3, 3⟩
    boot_app (by norm_num [boot_app]) rfl "app".toList).1 _ rfl

/-! ## The steppers -/

/-- `data-set` of a stepper. -/
inductive Threshold where
  | start_c
  | stop_c
  | critical_c
  deriving DecidableEq, Repr

def Threshold.key : Threshold → CStr
  | .start_c => "start_c".toList
  | .stop_c => "stop_c".toList
  | .critical_c => "critical_c".toList

/-- The threshold in the settings of the firmware. -/
def Threshold.x10 (s : Settings) : Threshold → Int16
  | .start_c => s.start_x10
  | .stop_c => s.stop_x10
  | .critical_c => s.critical_x10

/-- `state.settings[key]`. -/
def Threshold.shown (st : SettingsStatus) : Threshold → ℚ
  | .start_c => st.start_c
  | .stop_c => st.stop_c
  | .critical_c => st.critical_c

/-- `data-step` of the two buttons. -/
def data_step (up : Bool) : ℚ := if up then 1 / 2 else -(1 / 2)

/-- `Math.round`. -/
def math_round (x : ℚ) : Int := ⌊x + 1 / 2⌋

/-- `next` of the click handler. -/
def next (st : SettingsStatus) (th : Threshold) (up : Bool) : ℚ :=
  math_round ((th.shown st + data_step up) * 10) / 10

/-- The bounds of a threshold that leave the other two alone. -/
def Threshold.bounds (s : Settings) : Threshold → Int × Int
  | .start_c => (START_MIN_X10, START_MAX_X10)
  | .stop_c => (STOP_MIN_X10, s.start_x10.toInt - HYSTERESIS_MIN_X10)
  | .critical_c => (s.start_x10.toInt + CRITICAL_MARGIN_MIN_X10, CRITICAL_MAX_X10)

section click
variable {t s : Settings} (ht : t.Valid) (hs : s.Valid) (th : Threshold) (up : Bool)

include ht

include hs

end click

end FloorHeating
