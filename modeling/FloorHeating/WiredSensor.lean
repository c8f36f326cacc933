import FloorHeating.EventLog
import FloorHeating.LogicCalls
import FloorHeating.TempSensor
import FloorHeating.TimeAxis

/-! # The firmware on a real bus

    `control_task` takes its readings from `temp_sensor_read`, whatever the
    bus answers.  So the driver's filter holds for everything behind it: the
    85 °C a DS18B20 has after power-on, which is above any critical
    threshold, or a value off its scale never gets into the control state, an
    event or the history.  There the mark for a missing reading is no
    temperature either, so a `null` is a failed read and nothing else.

    Source: `temp_sensor_read` (`temp_sensor.c`), its call in `control_task`
    (`control.c`), `history_add` (`history.c`). -/

namespace FloorHeating

open LTS

/-! ## The wired device -/

/-- The firmware and the statics of its driver. -/
structure Wired where
  fw : Firmware
  sensor : TempSensor

inductive WiredLabel where
  | other (a : Label)
  | read (bus : Bus)

/-- The step is a read's. -/
def Label.is_sample : Label → Bool
  | .task (.sample _) => true
  | _ => false

/-- `valid` and `temp_x10` of `control_task` after the read. -/
def sample_of (r : Option Int16) : Sample := ⟨r.isSome, r.getD 0⟩

def wired_step (s : Wired) : WiredLabel → Option Wired
  | .other a => if a.is_sample then none else (step s.fw a).map fun fw => { s with fw }
  | .read bus =>
    let (sensor, r) := temp_sensor_read s.sensor bus
    (step s.fw (.task (.sample (sample_of r)))).map fun fw => ⟨fw, sensor⟩

/-- The device from any boot, on any bus. -/
def wired : System Wired WiredLabel where
  init s := ∃ nvs clock_us, s = ⟨boot nvs clock_us, temp_sensor_init⟩
  step := wired_step

/-- A sample of the driver: a value that a working sensor delivers, or none. -/
def Sample.Delivered (smp : Sample) : Prop := smp.valid = true → Deliverable smp.temp_x10.toInt

/-- Every sample among the labels is the driver's. -/
def AllDelivered (acts : List Label) : Prop :=
  ∀ smp, .task (.sample smp) ∈ acts → smp.Delivered

theorem sample_of_delivered (d : TempSensor) (bus : Bus) :
    (sample_of (temp_sensor_read d bus).2).Delivered := by
  cases h : (temp_sensor_read d bus).2 with
  | none => exact fun hvalid => nomatch hvalid
  | some t => exact fun _ => read_deliverable h

/-- What the firmware does in a run of the wired device. -/
def wired_labels : TempSensor → List WiredLabel → List Label
  | _, [] => []
  | d, .other a :: acts => a :: wired_labels d acts
  | d, .read bus :: acts =>
    .task (.sample (sample_of (temp_sensor_read d bus).2)) ::
      wired_labels (temp_sensor_read d bus).1 acts

/-- A run of the wired device is a run of the firmware on samples of the driver. -/
theorem wired_firmware {acts : List WiredLabel} {s s' : Wired}
    (h : wired.exec s acts = some s') :
    firmware.exec s.fw (wired_labels s.sensor acts) = some s'.fw ∧
      AllDelivered (wired_labels s.sensor acts) := by
  induction acts generalizing s with
  | nil =>
    obtain rfl := Option.some.inj h
    exact ⟨rfl, fun smp hsmp => nomatch hsmp⟩
  | cons a acts ih =>
    obtain ⟨s₁, hstep, hrest⟩ := Option.bind_eq_some_iff.mp h
    obtain ⟨hexec, hdelivered⟩ := ih hrest
    cases a with
    | other b =>
      obtain ⟨hsample, hstep⟩ := Option.ite_none_left_eq_some.mp hstep
      obtain ⟨fw, hfw, rfl⟩ := Option.map_eq_some_iff.mp hstep
      refine ⟨Option.bind_eq_some_iff.mpr ⟨fw, hfw, hexec⟩, ?_⟩
      rintro smp hsmp
      rcases List.mem_cons.mp hsmp with rfl | hsmp
      · exact absurd rfl hsample
      · exact hdelivered smp hsmp
    | read bus =>
      obtain ⟨fw, hfw, rfl⟩ := Option.map_eq_some_iff.mp hstep
      refine ⟨Option.bind_eq_some_iff.mpr ⟨fw, hfw, hexec⟩, ?_⟩
      rintro smp hsmp
      rcases List.mem_cons.mp hsmp with hlabel | hsmp
      · rw [TaskAct.sample.inj (Label.task.inj hlabel)]
        exact sample_of_delivered s.sensor bus
      · exact hdelivered smp hsmp

/-! ## What is behind the filter -/

/-- The control state's temperature is one that was delivered. -/
def StateDelivered (s : CtlState) : Prop := s.have_temp = true → Deliverable s.temp_x10.toInt

def Event.Delivered (e : Event) : Prop := e.has_temp = true → Deliverable e.temp_x10.toInt

structure DeliveredInv (ts : List Add) (s : Firmware) : Prop where
  task : ∀ smp, s.task.sample = some smp → smp.Delivered
  state : StateDelivered s.dev.s_state
  events : ∀ e ∈ s.dev.events.notified, e.Delivered
  samples : ∀ t ∈ ts, t.valid = true → Deliverable t.temp_x10.toInt

theorem stateDelivered_step {s : CtlState} (h : StateDelivered s) {op : CtlOp}
    (hop : ∀ cfg now_s t, op = .sensor cfg now_s true t → Deliverable t.toInt) :
    StateDelivered (ctl_step s op) := by
  cases op with
  | sensor cfg now_s valid t =>
    cases valid with
    | false =>
      rw [ctl_step_bad]
      exact h
    | true =>
      rw [ctl_step_good]
      exact fun _ => hop cfg now_s t rfl
  | manual m d now_s =>
    obtain ⟨m', u, hstep⟩ := ctl_step_manual_frame s m d now_s
    rw [hstep]
    exact h
  | decide cfg now_s =>
    rw [ctl_step_decide]
    exact h

/-- Every event of a decision shows the temperature of the state. -/
theorem decide_events_delivered {st : CtlState} (h : StateDelivered st) (now_s : Int)
    (r : CtlResult) (detail : Option CStr) :
    ∀ e ∈ decide_events st now_s r detail, e.Delivered := by
  intro e he
  simp only [decide_events, List.mem_append] at he
  rcases he with (he | he) | he
  · unfold sensor_events at he
    split at he
    · obtain rfl := List.mem_singleton.mp he
      exact h
    · simp at he
  · unfold overheat_events at he
    split at he
    · obtain rfl := List.mem_singleton.mp he
      exact h
    · simp at he
  · unfold pump_events at he
    split at he
    · obtain rfl := List.mem_singleton.mp he
      exact h
    · split at he
      · obtain rfl := List.mem_singleton.mp he
        exact h
      · simp at he

/-- The events of a step show the temperature that is in the state. -/
theorem step_events_delivered {s : Firmware} (h : StateDelivered s.dev.s_state) (a : Label) :
    ∀ e ∈ step_events s a, e.Delivered := by
  have hdecide : ∀ cfg now_s res, StateDelivered (ctl_decide s.dev.s_state cfg now_s res).1 := by
    intro cfg now_s res
    rw [ctl_decide_state]
    exact stateDelivered_step h (by simp)
  unfold step_events
  split
  · split
    · exact decide_events_delivered (hdecide _ _ _) _ _ _
    · simp
  · split
    · exact decide_events_delivered (hdecide _ _ _) _ _ _
    · simp
  · simp

/-- A sample of the history is the read of its iteration. -/
theorem taken_sample {s : Firmware} {a : Label} {t : Add} (h : taken s a = some t) :
    s.task.sample = some ⟨t.valid, t.temp_x10⟩ := by
  unfold taken at h
  split at h
  · split at h
    · rename_i it on pc
      split at h
      · rename_i rd hread
        split at h
        · rw [← Option.some.inj h, pc, TaskPc.sample, hread]
          rfl
        · simp at h
      · simp at h
    · simp at h
  · simp at h

theorem deliveredInv_step {ts : List Add} {s s' : Firmware} {a : Label} (hs : DeliveredInv ts s)
    (h : step s a = some s') (hsmp : ∀ smp, a = .task (.sample smp) → smp.Delivered) :
    DeliveredInv (ts ++ (taken s a).toList) s' where
  task := by
    intro smp hcarried
    rcases step_sample h hcarried with hold | hnew
    · exact hs.task smp hold
    · exact hsmp smp hnew
  state := by
    refine step_keeps h (fun op hop hstate => stateDelivered_step hstate ?_) hs.state
    rintro cfg now_s t rfl
    exact hs.task _ hop.read.1 rfl
  events := by
    intro e he
    rw [step_notified h, List.mem_append] at he
    rcases he with he | he
    · exact hs.events e he
    · exact step_events_delivered hs.state a e he
  samples := by
    intro t ht
    rcases List.mem_append.mp ht with ht | ht
    · exact hs.samples t ht
    · exact hs.task _ (taken_sample (Option.mem_toList.mp ht))

theorem firmware_delivered {nvs : NvsBlob} {clock_us : Nat} {acts : List Label} {s : Firmware}
    (h : firmware.exec (boot nvs clock_us) acts = some s) (hacts : AllDelivered acts) :
    DeliveredInv (firmware_taken nvs clock_us acts) s := by
  have hboot : DeliveredInv [] (boot nvs clock_us) := by
    refine ⟨?_, ?_, ?_, ?_⟩
    · exact fun smp hsmp => nomatch hsmp
    · exact fun htemp => nomatch htemp
    · simp [boot, control_start, events_init]
    · simp
  have hall : firmware.Steps (fun _ a => ∀ smp, a = .task (.sample smp) → smp.Delivered)
      (boot nvs clock_us) acts := by
    refine steps_of_forall ?_ _
    rintro a ha - smp rfl
    exact hacts smp ha
  exact trace_invariant (P := DeliveredInv)
    (fun _ _ _ _ hok hs hstep => deliveredInv_step hs hstep hok) hboot h hall

/-- **Only readings get behind the driver.**  Whatever the bus answers in
    whatever interleaving, the temperature in the control state and those in
    the events are values that a working sensor delivers, never the one it
    has after power-on.  The history holds the last of the samples taken, in
    order: such a value, or the mark for none exactly where the read failed. -/
theorem only_readings_arrive (nvs : NvsBlob) (clock_us : Nat) (acts : List WiredLabel) (s : Wired)
    (h : wired.exec ⟨boot nvs clock_us, temp_sensor_init⟩ acts = some s) :
    (s.fw.dev.s_state.have_temp = true → Deliverable s.fw.dev.s_state.temp_x10.toInt) ∧
      (∀ e ∈ s.fw.dev.events.notified, e.has_temp = true → Deliverable e.temp_x10.toInt) ∧
      (history_copy s.fw.history HISTORY_SAMPLES).temps =
        (kept (firmware_taken nvs clock_us (wired_labels temp_sensor_init acts))).map Add.stored ∧
      ∀ t ∈ firmware_taken nvs clock_us (wired_labels temp_sensor_init acts),
        (t.stored = HISTORY_NO_READING ↔ t.valid = false) ∧
          (t.valid = true → Deliverable t.stored.toInt) := by
  obtain ⟨hlabels, hdelivered⟩ := wired_firmware h
  have hs := firmware_delivered hlabels hdelivered
  have hcopy := kept_copy (firmware_ring hlabels)
  refine ⟨hs.state, hs.events, ?_, ?_⟩
  · rw [hcopy]
  · intro t ht
    have hvalid := hs.samples t ht
    unfold Add.stored
    cases hv : t.valid with
    | false => simp
    | true =>
      -- no temperature of the sensor is the mark
      obtain ⟨hlow, hhigh, hne⟩ := hvalid hv
      have hmark : t.temp_x10 ≠ HISTORY_NO_READING := by
        intro hmark
        rw [hmark] at hlow
        exact absurd hlow (by decide)
      simp only [if_true, Bool.true_eq_false, iff_false]
      exact ⟨hmark, fun _ => ⟨hlow, hhigh, hne⟩⟩

/-- The first read of a sensor at 30.5 °C, up to `ctl_sensor`. -/
theorem only_readings_arrive_first : ∃ s,
    wired.exec ⟨boot .missing 0, temp_sensor_init⟩
      [.other (.task .start), .read ⟨⟨true, 40, 1⟩, fun _ => some 305⟩, .other (.task .lock),
        .other (.task .sensor)] = some s ∧
      s.fw.dev.s_state.have_temp = true ∧ Deliverable s.fw.dev.s_state.temp_x10.toInt := by
  refine ⟨_, rfl, rfl, ?_⟩
  exact (only_readings_arrive .missing 0
    [.other (.task .start), .read ⟨⟨true, 40, 1⟩, fun _ => some 305⟩, .other (.task .lock),
      .other (.task .sensor)] _ rfl).1 rfl

end FloorHeating
