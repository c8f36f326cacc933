import FloorHeating.Progress

/-! # The control logic among the steps

    Each step of the firmware makes one call of the control logic at most: a
    read that is taken in, a command, or a decision.  What it is called with
    is on its way before: the sample in the locals of `control_task`, the
    command in those of its caller.

    Source: `control_task`, `control_manual` (`control.c`), `ctl_sensor`,
    `ctl_manual`, `ctl_decide` (`control_logic.c`). -/

namespace FloorHeating

open LTS

/-! ## The sample on its way -/

/-- The sample that the control task carries. -/
def TaskPc.sample : TaskPc → Option Sample
  | .ready _ sample | .locked _ sample => sample
  | .sensed _ read _ => read.map fun rd => ⟨rd.valid, rd.temp_x10⟩
  | .decided it | .relayed it | .released it _ => it.read.map fun rd => ⟨rd.valid, rd.temp_x10⟩
  | .top | .reading => none

/-- The sample that the task carries is the one before, or a new one. -/
theorem step_sample {s s' : Firmware} {a : Label} (h : step s a = some s') {smp : Sample}
    (hsmp : s'.task.sample = some smp) :
    s.task.sample = some smp ∨ a = .task (.sample smp) := by
  by_cases hmover : a.mover = some .task
  · cases a with
    | task act =>
      cases task_step_inv h with
      | start pc =>
        unfold Firmware.task_start at hsmp
        split at hsmp <;> simp [TaskPc.sample] at hsmp
      | sample new pc =>
        obtain rfl : new = smp := Option.some.inj hsmp
        exact Or.inr rfl
      | sensor now_s carried pc =>
        left
        rw [pc, ← hsmp]
        cases carried <;> rfl
      | lock _ _ pc _ | decide _ _ _ _ pc | relay _ pc | unlock _ pc =>
        left
        rw [pc, ← hsmp]
        rfl
      | history it on pc =>
        have htop : (s.task_history it on).task = .top := by
          unfold Firmware.task_history
          split
          · split <;> rfl
          · rfl
        rw [htop] at hsmp
        simp [TaskPc.sample] at hsmp
    | tick _ | disturb _ | manual _ _ | settings _ _ => simp [Label.mover] at hmover
  · rw [(step_others h).1 hmover] at hsmp
    exact Or.inl hsmp

/-! ## The calls -/

/-- The call of the control logic that a step makes. -/
inductive CallsLogic (s : Firmware) : Label → CtlOp → Prop where
  | sensor (now_s : Int) (smp : Sample) (pc : s.task = .locked now_s (some smp)) :
      CallsLogic s (.task .sensor)
        (.sensor (config_from_settings s.s_settings) now_s smp.valid smp.temp_x10)
  | task_decide (now_s : Int) (read : Option Read) (r : CtlResult) (wall : WallClock)
      (pc : s.task = .sensed now_s read r) :
      CallsLogic s (.task (.decide wall)) (.decide (config_from_settings s.s_settings) now_s)
  | manual (c : Nat) (q : Request) (pc : s.callers c = .manual_locked q) :
      CallsLogic s (.manual c .apply) (.manual q.manual q.clamped_s s.mono_s)
  | manual_decide (c : Nat) (q : Request) (now_s : Int) (wall : WallClock)
      (pc : s.callers c = .manual_accepted q now_s) :
      CallsLogic s (.manual c (.decide wall)) (.decide (config_from_settings s.s_settings) now_s)

theorem CallsLogic.state {s s' : Firmware} {a : Label} {op : CtlOp} (hop : CallsLogic s a op)
    (h : step s a = some s') : s'.dev.s_state = ctl_step s.dev.s_state op := by
  cases hop with
  | sensor now_s smp pc =>
    have hstep : TaskStep s .sensor s' := task_step_inv h
    cases hstep with
    | sensor _ _ pc' =>
      obtain ⟨rfl, rfl⟩ := TaskPc.locked.inj (pc.symm.trans pc')
      rfl
  | task_decide now_s read r wall pc =>
    have hstep : TaskStep s (.decide wall) s' := task_step_inv h
    cases hstep with
    | decide _ _ _ _ pc' =>
      obtain ⟨rfl, rfl, rfl⟩ := TaskPc.sensed.inj (pc.symm.trans pc')
      show (decide_locked s.dev s.s_settings wall now_s r none).1.s_state = _
      rw [decide_locked_state, ctl_decide_state]
  | manual c q pc =>
    have hstep : ManualStep s c .apply s' := manual_step_inv h
    cases hstep with
    | accept q' st pc' accepted =>
      obtain rfl := CallerPc.manual_locked.inj (pc.symm.trans pc')
      show st = ctl_step s.dev.s_state (.manual q.manual q.clamped_s s.mono_s)
      rw [ctl_step, accepted, Option.getD_some]
    | reject q' pc' refused =>
      obtain rfl := CallerPc.manual_locked.inj (pc.symm.trans pc')
      show s.dev.s_state = ctl_step s.dev.s_state (.manual q.manual q.clamped_s s.mono_s)
      rw [ctl_step, refused, Option.getD_none]
  | manual_decide c q now_s wall pc =>
    have hstep : ManualStep s c (.decide wall) s' := manual_step_inv h
    cases hstep with
    | decide _ _ _ pc' =>
      obtain ⟨rfl, rfl⟩ := CallerPc.manual_accepted.inj (pc.symm.trans pc')
      show (decide_locked s.dev s.s_settings wall now_s {} _).1.s_state = _
      rw [decide_locked_state, ctl_decide_state]

/-- A step that makes no call leaves the control state as it is. -/
theorem step_calls_logic {s s' : Firmware} {a : Label} (h : step s a = some s') :
    s'.dev.s_state = s.dev.s_state ∨ ∃ op, CallsLogic s a op := by
  cases a with
  | tick _ | disturb _ =>
    obtain rfl := Option.some.inj h
    exact Or.inl rfl
  | settings c act => exact Or.inl (congrArg Device.s_state (settings_step_inv h).outside.dev)
  | task act =>
    cases task_step_inv h with
    | start pc => exact Or.inl (congrArg Device.s_state (task_start_outside pc).dev)
    | history it on pc => exact Or.inl (congrArg Device.s_state (task_history_outside pc).dev)
    | sensor now_s smp pc =>
      cases smp with
      | none => exact Or.inl rfl
      | some smp => exact Or.inr ⟨_, .sensor now_s smp pc⟩
    | decide now_s read r wall pc => exact Or.inr ⟨_, .task_decide now_s read r wall pc⟩
    | sample _ _ | lock _ _ _ _ | relay _ _ | unlock _ _ => exact Or.inl rfl
  | manual c act =>
    cases manual_step_inv h with
    | accept q st pc accepted => exact Or.inr ⟨_, .manual c q pc⟩
    | decide q now_s wall pc => exact Or.inr ⟨_, .manual_decide c q now_s wall pc⟩
    | call _ _ | lock _ _ _ | reject _ _ _ | unlock _ _ | refuse _ _ _ | leave _ _ =>
      exact Or.inl rfl

/-- A read that is taken in is the sample that the task carries. -/
theorem CallsLogic.read {s : Firmware} {a : Label} {cfg : CtlConfig} {now_s : Int} {valid : Bool}
    {t : Int16} (h : CallsLogic s a (.sensor cfg now_s valid t)) :
    s.task.sample = some ⟨valid, t⟩ ∧ cfg = config_from_settings s.s_settings := by
  cases h with
  | sensor _ smp pc =>
    rw [pc]
    exact ⟨rfl, rfl⟩

/-- A command that is taken in is that of a caller with the lock. -/
theorem CallsLogic.command {s : Firmware} {a : Label} {m : CtlManual} {d : UInt32} {now_s : Int}
    (h : CallsLogic s a (.manual m d now_s)) :
    ∃ c q, s.callers c = .manual_locked q ∧ q.manual = m := by
  cases h with
  | manual c q pc => exact ⟨c, q, pc, rfl⟩

/-- What every call keeps that a step may make is kept by the step. -/
theorem step_keeps {s s' : Firmware} {a : Label} (h : step s a = some s') {P : CtlState → Prop}
    (hcalls : ∀ op, CallsLogic s a op → P s.dev.s_state → P (ctl_step s.dev.s_state op))
    (hP : P s.dev.s_state) : P s'.dev.s_state := by
  rcases step_calls_logic h with hsame | ⟨op, hop⟩
  · rw [hsame]
    exact hP
  · rw [hop.state h]
    exact hcalls op hop hP

end FloorHeating
