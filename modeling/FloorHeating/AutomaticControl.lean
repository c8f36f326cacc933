import FloorHeating.ControlRuns

/-! # Automatic control

    With no overheat, no sensor fail-safe, no maintenance run and no manual
    override in force, the pump follows the hysteresis memory alone.  The
    memory is moved by valid readings only, so whatever overrode the pump in
    the meantime leaves no trace in it. -/

namespace FloorHeating

open PastTime

/-- Nothing but the readings decides the pump. -/
structure Automatic (s : CtlState) : Prop where
  overheat : s.overheat = false
  sensor_failed : s.sensor_failed = false
  maintenance : s.maintenance = false
  manual : s.manual = .none

/-- Without an override the cascade comes down to the hysteresis memory. -/
theorem ctl_rule_automatic {s : CtlState} (h : Automatic s) : (ctl_rule s).1 = s.hot := by
  unfold ctl_rule
  rw [h.overheat, h.sensor_failed, h.maintenance, h.manual]
  cases s.hot <;> rfl

/-- A decision that leaves automatic control in force leaves the pump where
    the hysteresis memory is. -/
theorem decide_automatic (s : CtlState) (cfg : CtlConfig) (now_s : Int)
    (h : Automatic (ctl_step s (.decide cfg now_s))) :
    (ctl_step s (.decide cfg now_s)).on = s.hot := by
  rw [ctl_step_decide] at h ⊢
  have hflags : Automatic (flags_next s cfg now_s) :=
    ⟨h.overheat, h.sensor_failed, h.maintenance, h.manual⟩
  show (ctl_rule (flags_next s cfg now_s)).1 = s.hot
  rw [ctl_rule_automatic hflags]
  rfl

/-- **Automatic control is a Schmitt trigger of the readings.**  After a
    decision that leaves automatic control in force the pump is on exactly
    when some reading was above its start threshold and none since was below
    its stop threshold.  Two runs with the same readings agree on the pump,
    whatever commands, failed reads and decisions lie between the readings. -/
theorem automatic_schmitt_trigger (boot_s : Int) (ops : List CtlOp) (cfg : CtlConfig)
    (now_s : Int) (hauto : Automatic (ctl_run boot_s (ops ++ [.decide cfg now_s]))) :
    ((ctl_run boot_s (ops ++ [.decide cfg now_s])).on = true ↔
        Since Reading.above_start (fun _ r => ¬ r.below_stop) (readings ops)) ∧
      ∀ (boot_s' : Int) (ops' : List CtlOp) (cfg' : CtlConfig) (now_s' : Int),
        readings ops' = readings ops →
        Automatic (ctl_run boot_s' (ops' ++ [.decide cfg' now_s'])) →
        (ctl_run boot_s' (ops' ++ [.decide cfg' now_s'])).on =
          (ctl_run boot_s (ops ++ [.decide cfg now_s])).on := by
  rw [ctl_run_concat] at hauto ⊢
  rw [decide_automatic _ cfg now_s hauto]
  refine ⟨hot_iff_since boot_s ops, ?_⟩
  -- the other run has the same readings, so the same memory
  intro boot_s' ops' cfg' now_s' hreadings hauto'
  rw [ctl_run_concat] at hauto' ⊢
  rw [decide_automatic _ cfg' now_s' hauto', (ctl_run_latches boot_s' ops').2,
    (ctl_run_latches boot_s ops).2, hreadings]

/-- A hot reading under a manual stop that is then lifted. -/
theorem automatic_after_manual_stop :
    (ctl_run 0 ([.sensor ⟨300, 250, 450, 604800, 60, 3⟩ 5 true 310, .manual .stop 60 6,
        .decide ⟨300, 250, 450, 604800, 60, 3⟩ 6] ++
      [.decide ⟨300, 250, 450, 604800, 60, 3⟩ 66])).on = true := by
  refine (automatic_schmitt_trigger 0 _ _ 66 ?_).1.mpr ?_
  · exact ⟨by decide, by decide, by decide, by decide⟩
  · exact ⟨[], ⟨⟨300, 250, 450, 604800, 60, 3⟩, 310⟩, [], rfl, by decide, by simp⟩

end FloorHeating
