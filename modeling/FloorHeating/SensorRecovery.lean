import FloorHeating.Response

/-! # A replaced sensor, in the running device

    `replaced_sensor_found` counts the reads it takes the driver to drop the
    address of a device that is gone and to find the new one.  Here the
    driver is where it belongs, in `control_task`, among the steps of all the
    tasks: whatever the device is doing when the sensor is replaced, it reads
    the new one from some time on, and the fail-safe is over for good.

    Source: `temp_sensor_read` (`temp_sensor.c`), `control_task`
    (`control.c`), `ctl_sensor`, `ctl_decide` (`control_logic.c`). -/

namespace FloorHeating

open LTS Filter

/-! ## The firmware's part -/

/-- What a step of the wired device is in the firmware. -/
def WiredLabel.firmware (d : TempSensor) : WiredLabel → Label
  | .other a => a
  | .read bus => .task (.sample (sample_of (temp_sensor_read d bus).2))

theorem wired_step_firmware {s s' : Wired} {a : WiredLabel} (h : wired_step s a = some s') :
    step s.fw (a.firmware s.sensor) = some s'.fw := by
  cases a with
  | other a =>
    obtain ⟨-, hstep⟩ := Option.ite_none_left_eq_some.mp h
    obtain ⟨fw, hfw, rfl⟩ := Option.map_eq_some_iff.mp hstep
    exact hfw
  | read bus =>
    obtain ⟨fw, hfw, rfl⟩ := Option.map_eq_some_iff.mp h
    exact hfw

/-- The driver moves in a read, and a sample is a read's. -/
theorem wired_step_sensor {s s' : Wired} {a : WiredLabel} (h : wired_step s a = some s') :
    (s'.sensor = s.sensor ∧ ∀ smp, a.firmware s.sensor ≠ .task (.sample smp)) ∨
      ∃ bus, a = .read bus ∧ s'.sensor = (temp_sensor_read s.sensor bus).1 := by
  cases a with
  | other a =>
    obtain ⟨hsample, hstep⟩ := Option.ite_none_left_eq_some.mp h
    obtain ⟨fw, -, rfl⟩ := Option.map_eq_some_iff.mp hstep
    refine Or.inl ⟨rfl, ?_⟩
    rintro smp rfl
    exact hsample rfl
  | read bus =>
    obtain ⟨fw, -, rfl⟩ := Option.map_eq_some_iff.mp h
    exact Or.inr ⟨bus, rfl, rfl⟩

/-- The firmware's part of an execution of the wired device. -/
def in_firmware (e : Execution wired) : Execution firmware where
  states n := (e.states n).fw
  labels n := (e.labels n).firmware (e.states n).sensor
  init := by
    obtain ⟨nvs, clock_us, hboot⟩ := e.init
    exact ⟨nvs, clock_us, congrArg Wired.fw hboot⟩
  step n := wired_step_firmware (e.step n)

theorem wired_driverInv (e : Execution wired) (n : Nat) : DriverInv (e.states n).sensor := by
  induction n with
  | zero =>
    obtain ⟨nvs, clock_us, hboot⟩ := e.init
    rw [hboot]
    exact driverInv_init
  | succ n ih =>
    rcases wired_step_sensor (e.step n) with ⟨hsame, -⟩ | ⟨bus, -, hread⟩
    · rw [hsame]
      exact ih
    · rw [hread]
      exact driverInv_read ih bus

/-- A read ends with a sample. -/
theorem TaskStep.samples {s s' : Firmware} {act : TaskAct} (h : TaskStep s act s')
    (hreading : s.task = .reading) : ∃ smp, act = .sample smp := by
  cases h with
  | sample smp _ => exact ⟨smp, rfl⟩
  | start pc | lock _ _ pc _ | sensor _ _ pc | decide _ _ _ _ pc | relay _ pc | unlock _ pc
  | history _ _ pc =>
    rw [hreading] at pc
    simp at pc

/-! ## From the replacement on -/

section fair
variable {e : Execution wired} (hfair : ∀ o, (in_firmware e).Fair (Due o))
         (hclock : ∀ t : Int, ∃ n, t ≤ (e.states n).fw.mono_s)
include hfair hclock

/-- The driver is asked again and again. -/
theorem read_again : ∃ᶠ n in atTop, ∃ bus, e.labels n = .read bus := by
  refine frequently_atTop.mpr fun n => ?_
  obtain ⟨m, hm, hreading⟩ := frequently_atTop.mp (reading_again hfair hclock) n
  obtain ⟨k, hk, act, hlabel, hpc, -⟩ := task_acts hfair hreading
  obtain ⟨smp, rfl⟩ : ∃ smp, act = .sample smp := by
    have hstep := (in_firmware e).step k
    rw [hlabel] at hstep
    exact (task_step_inv hstep).samples hpc
  rcases wired_step_sensor (e.step k) with ⟨-, hnone⟩ | ⟨bus, hread, -⟩
  · exact absurd hlabel (hnone smp)
  · exact ⟨k, by omega, bus, hread⟩

variable {b : OnewireAddr}
         (hbus : ∀ᶠ n in atTop, ∀ bus, e.labels n = .read bus → Replaced b bus)
include hbus

/-- No address of a device that is gone is left. -/
theorem stale_over : ∀ᶠ n in atTop, stale_reads b (e.states n).sensor = 0 := by
  have hread : ∀ {n bus}, Replaced b bus →
      stale_reads b (temp_sensor_read (e.states n).sensor bus).1 ≤
        stale_reads b (e.states n).sensor - 1 := by
    intro n bus h
    have hinv := wired_driverInv e n
    by_cases hstale : stale_reads b (e.states n).sensor = 0
    · rw [(read_replaced h hstale hinv).2]
      exact Nat.zero_le _
    · exact (read_stale h hstale hinv).le
  refine eventually_zero_of_falls ?_ ?_
  · filter_upwards [hbus] with n hbus
    rcases wired_step_sensor (e.step n) with ⟨hsame, -⟩ | ⟨bus, hlabel, hafter⟩
    · rw [hsame]
    · rw [hafter]
      exact (hread (hbus bus hlabel)).trans (Nat.sub_le _ _)
  · refine ((read_again hfair hclock).and_eventually hbus).mono ?_
    rintro n ⟨⟨bus, hlabel⟩, hbus⟩
    have hless := hread (n := n) (hbus bus hlabel)
    rcases wired_step_sensor (e.step n) with ⟨-, hnone⟩ | ⟨bus', hlabel', hafter⟩
    · rw [hlabel] at hnone
      exact absurd rfl (hnone _)
    · obtain rfl : bus' = bus := WiredLabel.read.inj (hlabel'.symm.trans hlabel)
      rw [hafter]
      omega

/-- **A replaced sensor is read, and the fail-safe is over, for good.**  From
    some time on the device `b` is the only one on the bus that delivers, and
    the one that scans find.  Then, whatever the driver and the control logic
    were at, and whatever the callers do: from some time on every read
    succeeds, the sensor counts as working, and the pump is never again on
    for a failure of it. -/
theorem replacement_answered :
    (∀ᶠ n in atTop, ∀ bus, e.labels n = .read bus →
        (temp_sensor_read (e.states n).sensor bus).2.isSome = true) ∧
      ∀ᶠ n in atTop, (e.states n).fw.dev.s_state.sensor_failed = false ∧
        (e.states n).fw.dev.s_state.reason ≠ .sensor_fail := by
  have hreads : ∀ᶠ n in atTop, ∀ bus, e.labels n = .read bus →
      (temp_sensor_read (e.states n).sensor bus).2.isSome = true := by
    filter_upwards [stale_over hfair hclock hbus, hbus] with n hstale hbus bus hlabel
    exact (read_replaced (hbus bus hlabel) hstale (wired_driverInv e n)).1
  have hvalid : ∀ᶠ n in atTop, ∀ smp, (in_firmware e).labels n = .task (.sample smp) →
      smp.valid = true := by
    filter_upwards [hreads] with n hreads smp hsmp
    rcases wired_step_sensor (e.step n) with ⟨-, hnone⟩ | ⟨bus, hlabel, -⟩
    · exact absurd hsmp (hnone smp)
    · have hsome := hreads bus hlabel
      have hsmp' : (e.labels n).firmware (e.states n).sensor = .task (.sample smp) := hsmp
      rw [hlabel] at hsmp'
      rw [← TaskAct.sample.inj (Label.task.inj hsmp')]
      exact hsome
  have hflag : ∀ᶠ n in atTop, ((in_firmware e).states n).dev.s_state.sensor_failed = false := by
    refine reads_settle hfair hclock (P := fun s => s.sensor_failed = false) ?_ ?_
    · exact fun h hflag => h.sensor_failed.trans hflag
    · filter_upwards [carried_eventually hfair hvalid] with n hcarried now_s smp hsmp
      rw [hcarried smp hsmp, ctl_step_good]
  have hpump : ∀ᶠ n in atTop, ((in_firmware e).states n).dev.s_state.reason ≠ .sensor_fail := by
    refine pump_settles hfair hclock (P := fun p => p.2 ≠ .sensor_fail) ?_
    filter_upwards [hflag] with n hflag cfg now_s
    have hflag' : (flags_next ((in_firmware e).states n).dev.s_state cfg now_s).sensor_failed =
        false := hflag
    rw [ctl_rule, hflag']
    split_ifs <;> simp_all
  exact ⟨hreads, hflag.and hpump⟩

end fair

/-! An execution to which it applies: the device 7 is replaced by the device 9,
    and then `control_task` goes on in lockstep. -/

/-- An iteration with a read, from a driver whose read gives `r`. -/
def read_labels (bus : Bus) (now_s : Int) (r : Option Int16) : List WiredLabel :=
  [.other (.task .start), .read bus, .other (.task .lock), .other (.task .sensor),
    .other (.task (.decide ⟨false, 0⟩)), .other (.task .relay),
    .other (.task (.unlock ⟨now_s, some ⟨default_settings, r.isSome, r.getD 0⟩, default_settings,
      ⟨false, 0⟩⟩)), .other (.task .history), .other (.tick 5000000)]

/-- A read of the device 7, and three after its replacement. -/
def replaced_labels : List WiredLabel :=
  read_labels (one_device 7 350) 0 (some 350) ++ read_labels (one_device 9 350) 5 none ++
    read_labels (one_device 9 350) 10 none ++ read_labels (one_device 9 350) 15 none

/-- The task alone, on a bus with the device 9. -/
def lockstep_label (n : Nat) (s : Wired) : WiredLabel :=
  if n % 2 = 0 then .other (.tick 1000000)
  else match s.fw.task with
    | .reading => .read (one_device 9 350)
    | pc => .other (.task pc.next)

theorem lockstep_next {s : Wired} (h : Alone s.fw) (n : Nat) :
    ∃ s', wired.step s (lockstep_label n s) = some s' ∧ Alone s'.fw := by
  have hcallers : ∀ c, ((lockstep_label n s).firmware s.sensor).mover ≠ some (.caller c) := by
    intro c
    unfold lockstep_label
    split
    · simp [WiredLabel.firmware, Label.mover]
    · split <;> simp [WiredLabel.firmware, Label.mover]
  obtain ⟨s', hs'⟩ : ∃ s', wired_step s (lockstep_label n s) = some s' := by
    unfold lockstep_label
    split
    · exact ⟨_, rfl⟩
    · have hnext := alone_next h
      cases hpc : s.fw.task with
      | reading => simp [wired_step, step, task_step, hpc]
      | top | ready _ _ | locked _ _ | sensed _ _ _ | decided _ | relayed _ | released _ _ =>
        rw [hpc] at hnext
        simp only [TaskPc.next] at hnext ⊢
        simp [wired_step, Label.is_sample, hnext]
  exact ⟨s', hs', h.keep (wired_step_firmware hs') hcallers⟩

/-- The task and the clock, and every read on the same bus. -/
theorem lockstep_labels (n : Nat) (s : Wired) :
    (n % 2 = 0 → (lockstep_label n s).firmware s.sensor = .tick 1000000) ∧
      (n % 2 ≠ 0 → ∃ act, (lockstep_label n s).firmware s.sensor = .task act) ∧
      ∀ bus, lockstep_label n s = .read bus → bus = one_device 9 350 := by
  unfold lockstep_label
  refine ⟨fun heven => by rw [if_pos heven]; rfl, fun hodd => ?_, fun bus hread => ?_⟩
  · rw [if_neg hodd]
    split <;> exact ⟨_, rfl⟩
  · split at hread
    · simp at hread
    · split at hread
      · exact (WiredLabel.read.inj hread).symm
      · simp at hread

/-- The fail-safe is on when the driver has read the device that is gone three
    times, and it goes off again. -/
theorem replacement_answered_other : ∃ e : Execution wired,
    (e.states 9).sensor.s_addr = 7 ∧ (e.states 36).fw.dev.s_state.sensor_failed = true ∧
      ∀ᶠ n in atTop, (e.states n).fw.dev.s_state.sensor_failed = false := by
  obtain ⟨s₁, s, hfirst, hexec, hold, hfailed⟩ : ∃ s₁ s,
      wired.exec ⟨boot .missing 0, temp_sensor_init⟩ (replaced_labels.take 9) = some s₁ ∧
      wired.exec ⟨boot .missing 0, temp_sensor_init⟩ replaced_labels = some s ∧
      s₁.sensor.s_addr = 7 ∧ s.fw.dev.s_state.sensor_failed = true := ⟨_, _, rfl, rfl, rfl, rfl⟩
  have hnobody : ∀ a ∈ replaced_labels, ∀ d c, (a.firmware d).mover ≠ some (.caller c) := by
    simp [replaced_labels, read_labels, WiredLabel.firmware, Label.mover]
  have halone : Alone s.fw :=
    exec_invariant (P := fun s : Wired => Alone s.fw)
      (fun s a s' ha hs hstep => hs.keep (wired_step_firmware hstep) (ha s.sensor))
      (alone_boot .missing 0) hexec hnobody
  obtain ⟨e, hstart, hlater⟩ := Execution.carry_on (P := fun _ (s : Wired) => Alone s.fw) hexec
    ⟨.missing, 0, rfl⟩ lockstep_label halone fun n _ hs => lockstep_next hs n
  have hlater : ∀ n ≥ 36, Alone (e.states n).fw ∧
      e.labels n = lockstep_label (n - 36) (e.states n) := by
    intro n hn
    obtain ⟨m, rfl⟩ := Nat.exists_eq_add_of_le hn
    rw [Nat.add_sub_cancel_left]
    exact hlater m
  have hlock : Lockstep (in_firmware e) 36 := by
    refine ⟨fun n hn => (hlater n hn).1, ?_, ?_⟩
    · intro n hn heven
      show (e.labels n).firmware _ = _
      rw [(hlater n hn).2]
      exact (lockstep_labels _ _).1 heven
    · intro n hn hodd
      show ∃ act, (e.labels n).firmware _ = _
      rw [(hlater n hn).2]
      exact (lockstep_labels _ _).2.1 hodd
  have hfound : e.states 9 = s₁ := Option.some.inj ((hstart 9 (by decide)).symm.trans hfirst)
  have hend : e.states 36 = s := Option.some.inj ((hstart 36 le_rfl).symm.trans hexec)
  refine ⟨e, by rw [hfound, hold], by rw [hend, hfailed], ?_⟩
  refine (replacement_answered hlock.fair hlock.clock (b := 9) ?_).2.mono fun n h => h.1
  filter_upwards [eventually_ge_atTop 36] with n hn bus hread
  rw [(hlater n hn).2] at hread
  rw [(lockstep_labels _ _).2.2 bus hread]
  exact replaced_one_device 9 (by decide)

end FloorHeating
