import FloorHeating.Overheat

/-! # Threshold changes

    `control.h` promises that a threshold change is applied on the next
    decision.  A decision, though, only looks at the two latches, and only a
    valid reading moves them; between two readings the loop decides about
    five times.  So the new thresholds reach the next decision exactly when
    the latches it finds already stand where the new thresholds would put
    them, as a valid read under the new thresholds leaves them. -/

namespace FloorHeating

open LTS

/-! ## Evaluating a stored reading -/

section latches
variable (cfg : CtlConfig) (t : Int16)

/-- Where the overheat latch stays put. -/
theorem overheat_next_eq_self_iff (b : Bool) : overheat_next cfg t b = b ↔
    (cfg.critical_x10.toInt ≤ t.toInt → b = true) ∧
      (t.toInt < cfg.critical_x10.toInt - OVERHEAT_CLEAR_X10 → b = false) := by
  rw [Bool.eq_iff_iff, overheat_next_iff]
  unfold OVERHEAT_CLEAR_X10
  cases b with
  | false => simp
  | true =>
    simp
    omega

/-- Where the hysteresis memory stays put. -/
theorem hot_next_eq_self_iff (hcfg : cfg.stop_x10.toInt ≤ cfg.start_x10.toInt) (b : Bool) :
    hot_next cfg t b = b ↔
      (cfg.start_x10.toInt < t.toInt → b = true) ∧
        (t.toInt < cfg.stop_x10.toInt → b = false) := by
  rw [Bool.eq_iff_iff, hot_next_iff]
  cases b with
  | false => simp
  | true =>
    simp
    omega

end latches

/-- The two latches as the stored reading and the thresholds have them. -/
def evaluate_latches (s : CtlState) (cfg : CtlConfig) : CtlState :=
  { s with
    overheat := overheat_next cfg s.temp_x10 s.overheat
    hot := hot_next cfg s.temp_x10 s.hot }

/-- The state the decision of an iteration finds: its read is behind it. -/
def found_state (d : Device) (it : Iteration) : CtlState :=
  (iteration_sensor d it.now_s it.read).1.s_state

/-- The state the promise asks for after the decision: the last valid reading
    against the thresholds, then the rules. -/
def promised_state (d : Device) (it : Iteration) : CtlState :=
  ctl_step (evaluate_latches (found_state d it) (config_from_settings it.settings))
    (.decide (config_from_settings it.settings) it.now_s)

/-- The iteration applies its thresholds: the latches and the pump are where
    the promise has them, and a reading at or above critical runs the pump
    and refuses a stop. -/
structure Applied (d : Device) (it : Iteration) : Prop where
  overheat : (control_iteration d it).s_state.overheat = (promised_state d it).overheat
  hot : (control_iteration d it).s_state.hot = (promised_state d it).hot
  on : (control_iteration d it).s_state.on = (promised_state d it).on
  critical : it.settings.critical_x10.toInt ≤ (control_iteration d it).s_state.temp_x10.toInt →
    (control_iteration d it).s_state.on = true ∧
    ∀ c : Command, c.request.manual = .stop →
      (control_manual (control_iteration d it) c).1 = .refused_overheat

/-- The latches already stand where the thresholds put them. -/
structure LatchesAgree (s : CtlState) (v : Settings) : Prop where
  at_critical : v.critical_x10.toInt ≤ s.temp_x10.toInt → s.overheat = true
  clear : s.temp_x10.toInt < v.critical_x10.toInt - OVERHEAT_CLEAR_X10 → s.overheat = false
  above_start : v.start_x10.toInt < s.temp_x10.toInt → s.hot = true
  below_stop : s.temp_x10.toInt < v.stop_x10.toInt → s.hot = false

/-- The same where the iteration makes a valid read `t`, judged by `v`: what it
    makes of the latches is where the thresholds `w` put them. -/
structure ReadAgrees (s : CtlState) (v w : Settings) (t : Int16) : Prop where
  at_critical : w.critical_x10.toInt ≤ t.toInt → v.critical_x10.toInt ≤ t.toInt ∨
    s.overheat = true ∧ v.critical_x10.toInt - OVERHEAT_CLEAR_X10 ≤ t.toInt
  clear : t.toInt < w.critical_x10.toInt - OVERHEAT_CLEAR_X10 → t.toInt < v.critical_x10.toInt ∧
    (s.overheat = true → t.toInt < v.critical_x10.toInt - OVERHEAT_CLEAR_X10)
  above_start : w.start_x10.toInt < t.toInt → v.start_x10.toInt < t.toInt ∨
    s.hot = true ∧ v.stop_x10.toInt ≤ t.toInt
  below_stop : t.toInt < w.stop_x10.toInt → t.toInt ≤ v.start_x10.toInt ∧
    (s.hot = true → t.toInt < v.stop_x10.toInt)

/-- The condition, on the state before the iteration and on what the iteration
    is given. -/
def TakesEffect (s : CtlState) (it : Iteration) : Prop :=
  match it.read with
  | some ⟨v, true, t⟩ => ReadAgrees s v it.settings t
  | _ => LatchesAgree s it.settings

theorem latchesAgree_congr {s s' : CtlState} (hover : s'.overheat = s.overheat)
    (hhot : s'.hot = s.hot) (htemp : s'.temp_x10 = s.temp_x10) (v : Settings) :
    LatchesAgree s' v ↔ LatchesAgree s v := by
  constructor
  · intro h
    obtain ⟨h₁, h₂, h₃, h₄⟩ := h
    rw [hover, htemp] at h₁ h₂
    rw [hhot, htemp] at h₃ h₄
    exact ⟨h₁, h₂, h₃, h₄⟩
  · intro h
    obtain ⟨h₁, h₂, h₃, h₄⟩ := h
    rw [← hover, ← htemp] at h₁ h₂
    rw [← hhot, ← htemp] at h₃ h₄
    exact ⟨h₁, h₂, h₃, h₄⟩

theorem latchesAgree_iff {s : CtlState} {v : Settings} (hv : v.Valid) :
    LatchesAgree s v ↔
      overheat_next (config_from_settings v) s.temp_x10 s.overheat = s.overheat ∧
        hot_next (config_from_settings v) s.temp_x10 s.hot = s.hot := by
  have hcfg : (config_from_settings v).stop_x10.toInt ≤ (config_from_settings v).start_x10.toInt := by
    have hmax := hv.stop_max
    simp only [HYSTERESIS_MIN_X10] at hmax
    show v.stop_x10.toInt ≤ v.start_x10.toInt
    omega
  rw [overheat_next_eq_self_iff, hot_next_eq_self_iff _ _ hcfg]
  constructor
  · intro h
    exact ⟨⟨h.at_critical, h.clear⟩, h.above_start, h.below_stop⟩
  · intro h
    exact ⟨h.1.1, h.1.2, h.2.1, h.2.2⟩

/-! ## When the promise is kept -/

/-- An iteration is a decision on what its read has left. -/
theorem control_iteration_decide (d : Device) (it : Iteration) :
    (control_iteration d it).s_state =
      ctl_step (found_state d it) (.decide (config_from_settings it.settings) it.now_s) := by
  rw [control_iteration_state, found_state, iteration_sensor_state, Section.ops,
    List.foldl_append]
  rfl

/-- Where the evaluation changes nothing, the promise is kept. -/
theorem applied_of_evaluated {d : Device} {it : Iteration}
    (h : evaluate_latches (found_state d it) (config_from_settings it.settings) =
      found_state d it) : Applied d it := by
  have hstate : (control_iteration d it).s_state = promised_state d it := by
    rw [control_iteration_decide, promised_state, h]
  refine ⟨by rw [hstate], by rw [hstate], by rw [hstate], ?_⟩
  intro hcritical
  -- the reading is still the one the evaluation has looked at
  have hover : (control_iteration d it).s_state.overheat = true := by
    rw [control_iteration_decide, ctl_step_decide] at hcritical
    rw [hstate, promised_state, ctl_step_decide]
    show overheat_next _ _ _ = true
    rw [overheat_next_iff]
    exact Or.inl hcritical
  have hsettled : Settled (control_iteration d it).s_state := by
    rw [control_iteration_decide]
    exact settled_decide _ _ _
  refine ⟨(settled_overheat hsettled hover).1, ?_⟩
  intro c hstop
  rw [control_manual_refused hover hstop]

theorem applied_iff (d : Device) {it : Iteration} (hv : it.settings.Valid) :
    Applied d it ↔ LatchesAgree (found_state d it) it.settings := by
  rw [latchesAgree_iff hv]
  constructor
  · intro h
    have hover := h.overheat
    have hhot := h.hot
    -- a decision hands the two latches through on both sides
    rw [control_iteration_decide, promised_state, ctl_step_decide, ctl_step_decide] at hover hhot
    exact ⟨hover.symm, hhot.symm⟩
  · intro h
    obtain ⟨hover, hhot⟩ := h
    apply applied_of_evaluated
    unfold evaluate_latches
    rw [hover, hhot]

/-- The latches after a valid read, from those before it. -/
theorem latchesAgree_read_iff (d : Device) {it : Iteration} {v : Settings} {t : Int16}
    (hread : it.read = some ⟨v, true, t⟩) (w : Settings) :
    LatchesAgree (found_state d it) w ↔ ReadAgrees d.s_state v w t := by
  have hover : (found_state d it).overheat = true ↔ v.critical_x10.toInt ≤ t.toInt ∨
      d.s_state.overheat = true ∧ v.critical_x10.toInt - OVERHEAT_CLEAR_X10 ≤ t.toInt := by
    simp only [found_state, iteration_sensor, hread, ctl_sensor_good]
    rw [overheat_next_iff, Int.not_lt]
    rfl
  have hhot : (found_state d it).hot = true ↔ v.start_x10.toInt < t.toInt ∨
      d.s_state.hot = true ∧ v.stop_x10.toInt ≤ t.toInt := by
    simp only [found_state, iteration_sensor, hread, ctl_sensor_good]
    rw [hot_next_iff, Int.not_lt]
    rfl
  have htemp : (found_state d it).temp_x10 = t := by
    simp only [found_state, iteration_sensor, hread, ctl_sensor_good]
  constructor
  · intro h
    obtain ⟨h₁, h₂, h₃, h₄⟩ := h
    rw [htemp] at h₁ h₂ h₃ h₄
    rw [← Bool.not_eq_true, hover, not_or, not_and, Int.not_le, Int.not_le] at h₂
    rw [← Bool.not_eq_true, hhot, not_or, not_and, Int.not_le, Int.not_lt] at h₄
    exact ⟨fun h => hover.mp (h₁ h), h₂, fun h => hhot.mp (h₃ h), h₄⟩
  · intro h
    obtain ⟨h₁, h₂, h₃, h₄⟩ := h
    refine ⟨?_, ?_, ?_, ?_⟩
    · rw [htemp]
      exact fun h => hover.mpr (h₁ h)
    · rw [htemp, ← Bool.not_eq_true, hover, not_or, not_and, Int.not_le, Int.not_le]
      exact h₂
    · rw [htemp]
      exact fun h => hhot.mpr (h₃ h)
    · rw [htemp, ← Bool.not_eq_true, hhot, not_or, not_and, Int.not_le, Int.not_lt]
      exact h₄

/-- Without a valid read the decision finds the latches and the stored reading
    of before. -/
theorem found_state_unread (d : Device) {it : Iteration}
    (h : ∀ v t, it.read ≠ some ⟨v, true, t⟩) :
    (found_state d it).overheat = d.s_state.overheat ∧
      (found_state d it).hot = d.s_state.hot ∧
      (found_state d it).temp_x10 = d.s_state.temp_x10 := by
  unfold found_state iteration_sensor
  cases hread : it.read with
  | none => exact ⟨rfl, rfl, rfl⟩
  | some rd =>
    obtain ⟨v, valid, t⟩ := rd
    cases valid with
    | true => exact absurd hread (h v t)
    | false =>
      simp only [ctl_sensor_bad]
      exact ⟨trivial, trivial, trivial⟩

theorem latchesAgree_found_iff (d : Device) (it : Iteration) :
    LatchesAgree (found_state d it) it.settings ↔ TakesEffect d.s_state it := by
  have hunread : (∀ v t, it.read ≠ some ⟨v, true, t⟩) →
      (LatchesAgree (found_state d it) it.settings ↔ LatchesAgree d.s_state it.settings) := by
    intro h
    obtain ⟨hover, hhot, htemp⟩ := found_state_unread d h
    rw [latchesAgree_congr hover hhot htemp]
  unfold TakesEffect
  split
  · rename_i v t hread
    exact latchesAgree_read_iff d hread it.settings
  · rename_i hread
    exact hunread fun v t h => hread v t h

/-- A valid read under the very thresholds takes effect. -/
theorem readAgrees_self (s : CtlState) {v : Settings} (hv : v.Valid) (t : Int16) :
    ReadAgrees s v v t := by
  have hmax := hv.stop_max
  simp only [HYSTERESIS_MIN_X10] at hmax
  refine ⟨Or.inl, ?_, Or.inl, ?_⟩
  · intro h
    refine ⟨?_, fun _ => h⟩
    simp only [OVERHEAT_CLEAR_X10] at h
    omega
  · intro h
    exact ⟨by omega, fun _ => h⟩

/-- **When a threshold change is applied on the next decision.**  Every
    iteration of the firmware applies the thresholds its decision finds if
    and only if they take effect on the state before the iteration: without a
    valid read the latches already stand where the thresholds put them, and
    a valid read under other thresholds puts them there.  A valid read under
    the thresholds themselves always does. -/
theorem threshold_change_applied_iff (acts : List Label) (it : Iteration) (s : Firmware)
    (h : Run firmware (acts ++ [.task (.unlock it)]) s) :
    ∃ d, Run sections (sections_of acts) d ∧ s.dev = control_iteration d it ∧
      (Applied d it ↔ TakesEffect d.s_state it) ∧
      ∀ t, it.read = some ⟨it.settings, true, t⟩ → Applied d it := by
  obtain ⟨d, hrun, hdev⟩ := firmware_iteration h
  obtain ⟨hvalid, -⟩ := firmware_sane h (.iteration it) (by simp [sections_of, Label.released])
  have hiff := applied_iff d hvalid
  refine ⟨d, hrun, hdev, hiff.trans (latchesAgree_found_iff d it), ?_⟩
  intro t hread
  rw [hiff, latchesAgree_read_iff d hread]
  exact readAgrees_self d.s_state hvalid t

/-- 40.0 °C read under the default thresholds, the pump stopped by hand, then
    the critical threshold lowered to 38.0 °C: the next iteration, a second
    later and without a read, leaves the pump off. -/
theorem threshold_change_not_applied :
    ∃ s s', Run firmware
        (iteration_labels ⟨0, some ⟨default_settings, true, 400⟩, default_settings, ⟨false, 0⟩⟩ ++
          command_labels 0 ⟨⟨.stop, 3600, "admin".toList⟩, 0, default_settings, ⟨false, 0⟩⟩ ++
          save_labels 0 ⟨300, 250, 380⟩ ++ [.tick 1000000]) s ∧
      s.s_lock = none ∧ s.dev.s_state.have_temp = true ∧ s.s_settings = ⟨300, 250, 380⟩ ∧
      firmware.exec s (iteration_labels ⟨1, none, ⟨300, 250, 380⟩, ⟨false, 0⟩⟩) = some s' ∧
      s'.dev.s_state.temp_x10 = 400 ∧ s'.dev.s_state.overheat = false ∧
      s'.dev.s_state.on = false ∧ ¬ Applied s.dev ⟨1, none, ⟨300, 250, 380⟩, ⟨false, 0⟩⟩ := by
  have hrun := run_from_boot .missing 0
    (show firmware.exec _
      (iteration_labels ⟨0, some ⟨default_settings, true, 400⟩, default_settings, ⟨false, 0⟩⟩ ++
        command_labels 0 ⟨⟨.stop, 3600, "admin".toList⟩, 0, default_settings, ⟨false, 0⟩⟩ ++
        save_labels 0 ⟨300, 250, 380⟩ ++ [.tick 1000000]) = some _ from rfl)
  refine ⟨_, _, hrun, rfl, rfl, rfl, rfl, rfl, rfl, rfl, ?_⟩
  intro happlied
  have hon := (happlied.critical (by decide)).1
  exact absurd hon (by decide)

/-- 32.0 °C read under the default thresholds, and the start threshold raised
    to 31.0 °C. -/
def raised_labels : List Label :=
  iteration_labels ⟨0, some ⟨default_settings, true, 320⟩, default_settings, ⟨false, 0⟩⟩ ++
    save_labels 0 ⟨310, 250, 450⟩ ++ [.tick 1000000] ++
    [.task .start, .task .lock, .task .sensor, .task (.decide ⟨false, 0⟩), .task .relay]

/-- The next iteration makes no read, and still applies the new thresholds: the
    pump runs on. -/
theorem threshold_change_applied_raised : ∃ d, Run sections (sections_of raised_labels) d ∧
    (control_iteration d ⟨1, none, ⟨310, 250, 450⟩, ⟨false, 0⟩⟩).s_state.on = true ∧
    Applied d ⟨1, none, ⟨310, 250, 450⟩, ⟨false, 0⟩⟩ := by
  obtain ⟨s, hrun, hstate⟩ : ∃ s, Run firmware (raised_labels ++
      [.task (.unlock ⟨1, none, ⟨310, 250, 450⟩, ⟨false, 0⟩⟩)]) s ∧
      s.dev.s_state.on = true ∧ s.dev.s_state.overheat = false ∧ s.dev.s_state.hot = true ∧
      s.dev.s_state.temp_x10 = 320 :=
    ⟨_, run_from_boot .missing 0 rfl, rfl, rfl, rfl, rfl⟩
  obtain ⟨d, hd, hdev, hiff, -⟩ := threshold_change_applied_iff raised_labels _ s hrun
  rw [hdev] at hstate
  refine ⟨d, hd, hstate.1, hiff.mpr ((latchesAgree_found_iff d _).mp ?_)⟩
  -- the decision has left the latches as it found them
  rw [control_iteration_decide, ctl_step_decide] at hstate
  obtain ⟨-, hover, hhot, htemp⟩ := hstate
  refine ⟨?_, fun _ => hover, fun _ => hhot, ?_⟩
  · show _ ≤ (found_state d _).temp_x10.toInt → _
    rw [show (found_state d _).temp_x10 = 320 from htemp]
    exact fun h => absurd h (by decide)
  · show (found_state d _).temp_x10.toInt < _ → _
    rw [show (found_state d _).temp_x10 = 320 from htemp]
    exact fun h => absurd h (by decide)

end FloorHeating
