import FloorHeating.Relay
import FloorHeating.Status
import FloorHeating.WiredSensor

/-! # Again and again

    If the scheduler is fair and the clock goes on, the control loop reads the
    sensor again and again, takes the sample in, and decides the pump with it
    (`sensor_again`, `decide_again`).  So what every read, or every decision,
    brings about from some step on, and no other call of the control logic
    touches, is true for good from some step on (`reads_settle`,
    `pump_settles`).

    Source: `control_task`, `control_manual` (`control.c`), `ctl_sensor`,
    `ctl_manual`, `ctl_decide` (`control_logic.c`). -/

namespace FloorHeating

open LTS Filter

/-! ## One call -/

/-- What the sensor is known by is the same. -/
structure SensorFrame (s s' : CtlState) : Prop where
  overheat : s'.overheat = s.overheat := by rfl
  hot : s'.hot = s.hot := by rfl
  sensor_failed : s'.sensor_failed = s.sensor_failed := by rfl
  failures : s'.failures = s.failures := by rfl
  have_temp : s'.have_temp = s.have_temp := by rfl
  temp_x10 : s'.temp_x10 = s.temp_x10 := by rfl

/-- Only a read touches it. -/
theorem ctl_step_sensor_frame {s : CtlState} {op : CtlOp}
    (hop : ∀ cfg now_s valid t, op ≠ .sensor cfg now_s valid t) :
    SensorFrame s (ctl_step s op) := by
  cases op with
  | sensor cfg now_s valid t => exact absurd rfl (hop cfg now_s valid t)
  | manual m d now_s =>
    obtain ⟨m', u, hstep⟩ := ctl_step_manual_frame s m d now_s
    rw [hstep]
    exact {}
  | decide cfg now_s =>
    rw [ctl_step_decide]
    exact {}

/-- The pump and its clocks are the same. -/
structure PumpFrame (s s' : CtlState) : Prop where
  on : s'.on = s.on := by rfl
  reason : s'.reason = s.reason := by rfl
  last_on_s : s'.last_on_s = s.last_on_s := by rfl
  maintenance_until_s : s'.maintenance_until_s = s.maintenance_until_s := by rfl

/-- Only a decision touches them. -/
theorem ctl_step_pump_frame {s : CtlState} {op : CtlOp}
    (hop : ∀ cfg now_s, op ≠ .decide cfg now_s) : PumpFrame s (ctl_step s op) := by
  cases op with
  | decide cfg now_s => exact absurd rfl (hop cfg now_s)
  | manual m d now_s =>
    obtain ⟨m', u, hstep⟩ := ctl_step_manual_frame s m d now_s
    rw [hstep]
    exact {}
  | sensor cfg now_s valid t =>
    cases valid with
    | true =>
      rw [ctl_step_good]
      exact {}
    | false =>
      rw [ctl_step_bad]
      exact {}

/-- Where no command comes, an override stays as it is or ends. -/
theorem ctl_step_override {s : CtlState} {op : CtlOp} (hop : ∀ m d now_s, op ≠ .manual m d now_s) :
    ((ctl_step s op).manual = s.manual ∨ (ctl_step s op).manual = .none) ∧
      (ctl_step s op).manual_until_s = s.manual_until_s := by
  cases op with
  | manual m d now_s => exact absurd rfl (hop m d now_s)
  | sensor cfg now_s valid t =>
    cases valid with
    | true =>
      rw [ctl_step_good]
      exact ⟨Or.inl rfl, rfl⟩
    | false =>
      rw [ctl_step_bad]
      exact ⟨Or.inl rfl, rfl⟩
  | decide cfg now_s =>
    rw [ctl_step_decide]
    refine ⟨?_, rfl⟩
    show manual_next s now_s = s.manual ∨ manual_next s now_s = .none
    unfold manual_next
    split
    · exact Or.inr rfl
    · exact Or.inl rfl

/-- After its end no decision leaves an override. -/
theorem manual_next_late {s : CtlState} {now_s : Int} (h : s.manual_until_s ≤ now_s) :
    manual_next s now_s = .none := by
  by_cases hnone : s.manual = .none
  · simp [manual_next, hnone]
  · have hexpires := (manual_expires_iff s now_s).mpr ⟨hnone, h⟩
    simp [manual_next, hexpires]

theorem ctl_rule_sensor_failed (s : CtlState) (h : s.sensor_failed = true)
    (hstop : s.manual ≠ .stop) : (ctl_rule s).1 = true := by
  rw [ctl_rule, if_neg hstop, if_pos h]
  split_ifs <;> rfl

theorem ctl_rule_hot (s : CtlState) (h : s.hot = true) (hstop : s.manual ≠ .stop) :
    (ctl_rule s).1 = true := by
  rw [ctl_rule, if_neg hstop, if_pos h]
  split_ifs <;> rfl

/-- A failed read, counted. -/
theorem failed_read (s : CtlState) (now_s : Int) (settings : Settings) (t : Int16) :
    ((ctl_step s (.sensor (config_from_settings settings) now_s false t)).sensor_failed = true ↔
        s.sensor_failed = true ∨ 3 ≤ min 255 (s.failures.toNat + 1)) ∧
      (ctl_step s (.sensor (config_from_settings settings) now_s false t)).failures.toNat =
        min 255 (s.failures.toNat + 1) := by
  have hreads : (config_from_settings settings).sensor_fail_reads.toNat = 3 := rfl
  rw [ctl_step_bad]
  refine ⟨?_, bump_failures_toNat s.failures⟩
  rw [← bump_failures_toNat, ← hreads, ← UInt8.le_iff_toNat_le]
  simp

/-! ## What is on its way -/

/-- The time of the next read moves when one begins. -/
theorem step_next_read {s s' : Firmware} {a : Label} (h : step s a = some s') :
    s'.task = .reading ∨ s'.next_read_s = s.next_read_s := by
  cases a with
  | tick _ | disturb _ =>
    obtain rfl := Option.some.inj h
    exact Or.inr rfl
  | task act =>
    cases task_step_inv h with
    | start pc =>
      unfold Firmware.task_start
      split
      · exact Or.inl rfl
      · exact Or.inr rfl
    | history it on pc =>
      right
      unfold Firmware.task_history
      split
      · split <;> rfl
      · rfl
    | sample _ _ | lock _ _ _ _ | sensor _ _ _ | decide _ _ _ _ _ | relay _ _ | unlock _ _ =>
      exact Or.inr rfl
  | manual c act =>
    right
    cases manual_step_inv h <;> rfl
  | settings c act =>
    right
    cases settings_step_inv h <;> rfl

/-- The caller is on its way to give this override. -/
def CallerPc.Asks (m : CtlManual) : CallerPc → Prop
  | .manual_called q | .manual_locked q => q.manual = m
  | _ => False

theorem step_asks {s s' : Firmware} {a : Label} (h : step s a = some s') {m : CtlManual} {c : Nat}
    (hasks : (s'.callers c).Asks m) :
    (s.callers c).Asks m ∨ ∃ q, a = .manual c (.call q) ∧ q.manual = m := by
  by_cases hmover : a.mover = some (.caller c)
  · cases a with
    | manual c' act =>
      obtain rfl : c' = c := by simpa [Label.mover] using hmover
      cases manual_step_inv h with
      | call q pc =>
        rw [set_caller_same] at hasks
        exact Or.inr ⟨q, rfl, hasks⟩
      | lock q pc free =>
        rw [set_caller_same] at hasks
        left
        rw [pc]
        exact hasks
      | decide q now_s wall pc =>
        unfold Firmware.manual_decide at hasks
        rw [set_caller_same] at hasks
        exact hasks.elim
      | accept _ _ _ _ | reject _ _ _ | unlock _ _ | refuse _ _ _ | leave _ _ =>
        rw [set_caller_same] at hasks
        exact hasks.elim
    | settings c' act =>
      obtain rfl : c' = c := by simpa [Label.mover] using hmover
      cases settings_step_inv h with
      | nvs_open _ ok _ | nvs_set_blob _ ok _ _ =>
        rw [set_caller_same] at hasks
        cases ok <;> exact hasks.elim
      | call _ _ | lock _ _ _ | apply _ _ | nvs_commit _ _ _ _ | unlock _ _ _ | leave _ _ _ =>
        rw [set_caller_same] at hasks
        exact hasks.elim
    | tick _ | disturb _ | task _ => simp [Label.mover] at hmover
  · rw [(step_others h).2 c hmover] at hasks
    exact Or.inl hasks

/-- What the step of the task from here comes to, as far as the decision. -/
def TaskPc.Goes (s : Firmware) (act : TaskAct) (s' : Firmware) : TaskPc → Prop
  | .top => s' = s.task_start
  | .reading => ∃ smp, s'.task = .ready s.mono_s (some smp)
  | .ready now_s smp => s'.task = .locked now_s smp
  | .locked now_s smp => act = .sensor ∧ s'.task = (s.task_sensor now_s smp).task
  | .sensed _ _ _ => ∃ wall, act = .decide wall
  | .decided _ | .relayed _ | .released _ _ => True

theorem TaskStep.goes {s s' : Firmware} {act : TaskAct} (h : TaskStep s act s') :
    s.task.Goes s act s' := by
  cases h with
  | sample smp pc =>
    rw [pc]
    exact ⟨smp, rfl⟩
  | sensor _ _ pc =>
    rw [pc]
    exact ⟨rfl, rfl⟩
  | decide _ _ _ wall pc =>
    rw [pc]
    exact ⟨wall, rfl⟩
  | start pc | lock _ _ pc _ =>
    rw [pc]
    rfl
  | relay _ pc | unlock _ pc | history _ _ pc =>
    rw [pc]
    trivial

/-! ## Again and again -/

section fair
variable {e : Execution firmware} (hfair : ∀ o, e.Fair (Due o))
include hfair

/-- The next step of the task, from where it is. -/
theorem task_acts {n : Nat} {pc : TaskPc} (hpc : (e.states n).task = pc) :
    ∃ m ≥ n, ∃ act, e.labels m = .task act ∧ (e.states m).task = pc ∧
      pc.Goes (e.states m) act (e.states (m + 1)) := by
  obtain ⟨m, hm, hmine, hbefore⟩ := (hfair .task).next (fun k => by
    obtain ⟨m, hm, hfree⟩ := s_lock_free hfair k
    exact ⟨m, hm, task_ready _ fun _ => hfree⟩) n
  have hsame : ∀ k, n ≤ k → k ≤ m → (e.states k).task = pc := by
    intro k hk hle
    induction k, hk using Nat.le_induction with
    | base => exact hpc
    | succ k hk ih =>
      rw [(step_others (e.step k)).1 (hbefore k hk (by omega))]
      exact ih (by omega)
  have hstep := e.step m
  cases ha : e.labels m with
  | task act =>
    rw [ha] at hstep
    have hgoes := (task_step_inv hstep).goes
    rw [hsame m hm le_rfl] at hgoes
    exact ⟨m, hm, act, ha, hsame m hm le_rfl, hgoes⟩
  | tick _ | disturb _ | manual _ _ | settings _ _ => simp [Due, Label.mover, ha] at hmine

variable (hclock : ∀ t : Int, ∃ n, t ≤ (e.states n).mono_s)
include hclock

omit hfair in
theorem clock_passes (t : Int) : ∀ᶠ n in atTop, t ≤ (e.states n).mono_s := by
  obtain ⟨n, hn⟩ := hclock t
  refine eventually_atTop.mpr ⟨n, ?_⟩
  intro m hm
  induction m, hm using Nat.le_induction with
  | base => exact hn
  | succ m _ ih => exact ih.trans (step_times (e.step m)).clock

/-- A read begins again and again: its time comes, and the next iteration
    from then on finds it. -/
theorem reading_again : ∃ᶠ n in atTop, (e.states n).task = .reading := by
  intro hnever
  obtain ⟨n, hnever⟩ := eventually_atTop.mp hnever
  have hsame : ∀ m ≥ n, (e.states m).next_read_s = (e.states n).next_read_s := by
    intro m hm
    induction m, hm using Nat.le_induction with
    | base => rfl
    | succ m hm ih =>
      rcases step_next_read (e.step m) with hreading | hnext
      · exact absurd hreading (hnever (m + 1) (by omega))
      · exact hnext.trans ih
  obtain ⟨late, hlate⟩ := eventually_atTop.mp (clock_passes hclock (e.states n).next_read_s)
  obtain ⟨m, hm, htop⟩ := task_done hfair (max n late)
  obtain ⟨k, hk, act, -, -, hgoes⟩ := task_acts hfair htop
  have hdue : (e.states k).mono_s ≥ (e.states k).next_read_s := by
    rw [hsame k (by omega)]
    exact hlate k (by omega)
  have hstart : e.states (k + 1) = (e.states k).task_start := hgoes
  refine hnever (k + 1) (by omega) ?_
  show (e.states (k + 1)).task = .reading
  rw [hstart, Firmware.task_start, if_pos hdue]

/-- A sample is taken in again and again, with a timestamp as late as you
    please. -/
theorem sensor_again (t : Int) : ∃ᶠ n in atTop, ∃ now_s smp, t ≤ now_s ∧
    (e.states n).task = .locked now_s (some smp) ∧ e.labels n = .task .sensor := by
  refine frequently_atTop.mpr fun n => ?_
  obtain ⟨late, hlate⟩ := eventually_atTop.mp (clock_passes hclock t)
  obtain ⟨k₀, hk₀, hreading⟩ := frequently_atTop.mp (reading_again hfair hclock) (max n late)
  obtain ⟨k₁, hk₁, _, -, -, smp, hready⟩ := task_acts hfair hreading
  obtain ⟨k₂, hk₂, _, -, -, hlocked⟩ := task_acts hfair hready
  obtain ⟨k, hk, act, hsensor, hpc, rfl, -⟩ := task_acts hfair hlocked
  exact ⟨k, by omega, _, smp, hlate k₁ (by omega), hpc, hsensor⟩

/-- So the pump is decided again and again. -/
theorem decide_again (t : Int) : ∃ᶠ n in atTop, ∃ now_s read r wall, t ≤ now_s ∧
    (e.states n).task = .sensed now_s read r ∧ e.labels n = .task (.decide wall) := by
  refine frequently_atTop.mpr fun n => ?_
  obtain ⟨k₀, hk₀, now_s, smp, hlate, hlocked, -⟩ :=
    frequently_atTop.mp (sensor_again hfair hclock t) n
  obtain ⟨k₁, hk₁, _, -, -, -, hsensed⟩ := task_acts hfair hlocked
  obtain ⟨k, hk, act, hdecide, hpc, wall, rfl⟩ := task_acts hfair hsensed
  exact ⟨k, by omega, now_s, _, _, wall, hlate, hpc, hdecide⟩

omit hclock in
/-- Once all samples are of a kind, so is the one that the task carries. -/
theorem carried_eventually {P : Sample → Prop}
    (hP : ∀ᶠ n in atTop, ∀ smp, e.labels n = .task (.sample smp) → P smp) :
    ∀ᶠ n in atTop, ∀ smp, (e.states n).task.sample = some smp → P smp := by
  refine eventually_of_stays ?_ ?_
  · filter_upwards [hP] with n hnew hcarried smp hsmp
    rcases step_sample (e.step n) hsmp with hold | hlabel
    · exact hcarried smp hold
    · exact hnew smp hlabel
  · refine frequently_atTop.mpr fun n => ?_
    obtain ⟨m, hm, htop⟩ := task_done hfair n
    refine ⟨m, hm, ?_⟩
    intro smp hsmp
    rw [htop] at hsmp
    exact nomatch hsmp

omit hfair hclock in
theorem decide_calls {n : Nat} {now_s : Int} {read : Option Read} {r : CtlResult}
    {wall : WallClock} (hpc : (e.states n).task = .sensed now_s read r)
    (hlabel : e.labels n = .task (.decide wall)) :
    CallsLogic (e.states n) (e.labels n)
      (.decide (config_from_settings (e.states n).s_settings) now_s) := by
  rw [hlabel]
  exact .task_decide now_s read r wall hpc

omit hfair hclock in
theorem sensor_calls {n : Nat} {now_s : Int} {smp : Sample}
    (hpc : (e.states n).task = .locked now_s (some smp)) (hlabel : e.labels n = .task .sensor) :
    CallsLogic (e.states n) (e.labels n)
      (.sensor (config_from_settings (e.states n).s_settings) now_s smp.valid smp.temp_x10) := by
  rw [hlabel]
  exact .sensor now_s smp hpc

omit hfair hclock in
/-- What some call brings about again and again, and no call undoes any more,
    is true of the control state for good. -/
theorem state_settles {P : CtlState → Prop}
    (hkeeps : ∀ᶠ n in atTop, ∀ op, CallsLogic (e.states n) (e.labels n) op →
      P (e.states n).dev.s_state → P (ctl_step (e.states n).dev.s_state op))
    (hgets : ∃ᶠ n in atTop, ∃ op, CallsLogic (e.states n) (e.labels n) op ∧
      P (ctl_step (e.states n).dev.s_state op)) :
    ∀ᶠ n in atTop, P (e.states n).dev.s_state := by
  refine eventually_of_stays ?_ ?_
  · filter_upwards [hkeeps] with n hn
    exact step_keeps (e.step n) hn
  · refine (tendsto_add_atTop_nat 1).frequently (hgets.mono ?_)
    rintro n ⟨op, hop, hP⟩
    rw [hop.state (e.step n)]
    exact hP

/-- So is what every read brings about in the end, and only reads touch. -/
theorem reads_settle {P : CtlState → Prop} (hframe : ∀ {s s'}, SensorFrame s s' → P s → P s')
    (hreads : ∀ᶠ n in atTop, ∀ now_s smp, (e.states n).task.sample = some smp →
      P (ctl_step (e.states n).dev.s_state
        (.sensor (config_from_settings (e.states n).s_settings) now_s smp.valid smp.temp_x10))) :
    ∀ᶠ n in atTop, P (e.states n).dev.s_state := by
  refine state_settles ?_ ?_
  · filter_upwards [hreads] with n hreads op hop hP
    cases op with
    | sensor cfg now_s valid t =>
      obtain ⟨hsmp, rfl⟩ := hop.read
      exact hreads now_s _ hsmp
    | manual _ _ _ | decide _ _ => exact hframe (ctl_step_sensor_frame (by simp)) hP
  · refine ((sensor_again hfair hclock 0).and_eventually hreads).mono ?_
    rintro n ⟨⟨now_s, smp, -, hpc, hlabel⟩, hreads⟩
    exact ⟨_, sensor_calls hpc hlabel, hreads now_s smp (by rw [hpc]; rfl)⟩

/-- And what every decision brings about in the end. -/
theorem pump_settles {P : Bool × CtlReason → Prop}
    (hrule : ∀ᶠ n in atTop, ∀ cfg now_s,
      P (ctl_rule (flags_next (e.states n).dev.s_state cfg now_s))) :
    ∀ᶠ n in atTop, P ((e.states n).dev.s_state.on, (e.states n).dev.s_state.reason) := by
  have hframe : ∀ {s s'}, PumpFrame s s' → P (s.on, s.reason) → P (s'.on, s'.reason) := by
    intro s s' h hP
    rw [h.on, h.reason]
    exact hP
  have hdecides : ∀ {s : CtlState} {cfg now_s}, P (ctl_rule (flags_next s cfg now_s)) →
      P ((ctl_step s (.decide cfg now_s)).on, (ctl_step s (.decide cfg now_s)).reason) := by
    intro s cfg now_s hP
    rw [ctl_step_decide]
    exact hP
  refine state_settles (P := fun s => P (s.on, s.reason)) ?_ ?_
  · filter_upwards [hrule] with n hn op _ hP
    cases op with
    | decide cfg now_s => exact hdecides (hn cfg now_s)
    | sensor _ _ _ _ | manual _ _ _ => exact hframe (ctl_step_pump_frame (by simp)) hP
  · refine ((decide_again hfair hclock 0).and_eventually hrule).mono ?_
    rintro n ⟨⟨now_s, read, r, wall, -, hpc, hlabel⟩, hn⟩
    exact ⟨_, decide_calls hpc hlabel, hdecides (hn _ _)⟩

omit hfair hclock in
/-- A decision of the task, as it leaves the pump. -/
theorem task_decides {n : Nat} {now_s : Int} {read : Option Read} {r : CtlResult}
    {wall : WallClock} (hpc : (e.states n).task = .sensed now_s read r)
    (hlabel : e.labels n = .task (.decide wall)) :
    (e.states (n + 1)).dev.s_state.on = (ctl_rule (flags_next (e.states n).dev.s_state
      (config_from_settings (e.states n).s_settings) now_s)).1 := by
  rw [(decide_calls hpc hlabel).state (e.step n), ctl_step_decide]

/-- Once the pin is left alone it is where the pump is, for good. -/
theorem relay_settles (hpin : ∀ᶠ n in atTop, (e.labels n).undisturbed) :
    ∀ᶠ n in atTop, (e.states n).relay = (e.states n).dev.s_state.on := by
  have hchecked : ∀ᶠ n in atTop, RelayChecked (e.states n) := by
    refine eventually_of_stays ?_ ?_
    · exact hpin.mono fun n hn hs => relayChecked_step _ _ _ hn hs (e.step n)
    · exact (reading_again hfair hclock).mono fun n hn => Or.inl (by rw [hn]; rfl)
  refine eventually_of_stays ?_ ?_
  · exact hpin.mono fun n hn hs => relayFollows_step _ _ _ hn hs (e.step n)
  · -- at the top of the loop the check is through
    have htop : ∃ᶠ n in atTop, (e.states n).task = .top := frequently_atTop.mpr (task_done hfair)
    refine (htop.and_eventually hchecked).mono ?_
    rintro n ⟨hpc, hbefore | hfollows⟩
    · rw [hpc] at hbefore
      exact nomatch hbefore
    · exact hfollows

/-- So the relay is on where the pump is on for good. -/
theorem relay_runs (hpump : ∀ᶠ n in atTop, (e.states n).dev.s_state.on = true)
    (hpin : ∀ᶠ n in atTop, (e.labels n).undisturbed) :
    ∀ᶠ n in atTop, (e.states n).relay = true := by
  filter_upwards [hpump, relay_settles hfair hclock hpin] with n hn hrelay
  rw [hrelay]
  exact hn

end fair

end FloorHeating
