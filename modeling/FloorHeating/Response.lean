import FloorHeating.Recurrence
import Mathlib.Order.Filter.Finite

/-! # The device responds

    What the control loop owes to a condition that lasts, if the scheduler is
    fair and the clock goes on:

    * `heat_answered`: water that stays over the critical threshold gets the
      pump on for good, whatever the callers do;
    * `sensor_loss_answered`, `warmth_answered`: so does a sensor that stays
      dead, or water that stays warm, unless somebody goes on asking for a
      stop;
    * `cold_answered`: in water that stays cold the pump is off but for
      maintenance, and that is run again and again;
    * `automatic_again`: an override that nobody renews is over for good.

    Source: `control_task`, `control_manual` (`control.c`), `ctl_sensor`,
    `ctl_manual`, `ctl_decide` (`control_logic.c`). -/

namespace FloorHeating

open LTS Filter

/-! ## Steady executions

    `control_task` alone, a second between any two of its steps, and the same
    answer from the sensor every time. -/

/-- From its step `k` on, `control_task` is alone, and takes every other
    step. -/
structure Lockstep (e : Execution firmware) (k : Nat) : Prop where
  alone : ∀ n ≥ k, Alone (e.states n)
  tick : ∀ n ≥ k, (n - k) % 2 = 0 → e.labels n = .tick 1000000
  task : ∀ n ≥ k, (n - k) % 2 ≠ 0 → ∃ act, e.labels n = .task act

section lockstep
variable {e : Execution firmware} {k : Nat} (h : Lockstep e k)
include h

theorem Lockstep.label {n : Nat} (hn : n ≥ k) :
    e.labels n = .tick 1000000 ∨ ∃ act, e.labels n = .task act := by
  by_cases heven : (n - k) % 2 = 0
  · exact Or.inl (h.tick n hn heven)
  · exact Or.inr (h.task n hn heven)

theorem Lockstep.no_calls {n : Nat} (hn : n ≥ k) (c : Nat) (act : ManualAct) :
    e.labels n ≠ .manual c act := by
  rcases h.label hn with hlabel | ⟨act', hlabel⟩
  · simp [hlabel]
  · simp [hlabel]

theorem Lockstep.fair (o : Owner) : e.Fair (Due o) := by
  refine fair_alone h.alone ?_ o
  intro n
  obtain ⟨act, hlabel⟩ := h.task (k + 2 * n + 1) (by omega) (by omega)
  exact ⟨k + 2 * n + 1, by omega, by rw [hlabel]; rfl⟩

theorem Lockstep.clock (t : Int) : ∃ n, t ≤ (e.states n).mono_s := by
  have hseconds : ∀ n : Nat, (n : Int) ≤ (e.states (k + 2 * n)).mono_s := by
    intro n
    induction n with
    | zero => exact Int.natCast_nonneg _
    | succ n ih =>
      have htick := e.step (k + 2 * n)
      rw [h.tick (k + 2 * n) (by omega) (by omega)] at htick
      have hsecond : (e.states (k + 2 * n + 1)).mono_s = (e.states (k + 2 * n)).mono_s + 1 := by
        rw [← Option.some.inj htick]
        show ((((e.states (k + 2 * n)).clock_us + 1000000) / 1000000 : Nat) : Int) =
          (((e.states (k + 2 * n)).clock_us / 1000000 : Nat) : Int) + 1
        omega
      have hlater := (step_times (e.step (k + 2 * n + 1))).clock
      show ((n + 1 : Nat) : Int) ≤ (e.states (k + 2 * n + 1 + 1)).mono_s
      push_cast
      omega
  exact ⟨k + 2 * t.toNat, le_trans (Int.self_le_toNat t) (hseconds t.toNat)⟩

end lockstep

def steady_act (smp : Sample) : TaskAct → TaskAct
  | .sample _ => .sample smp
  | act => act

def steady_label (smp : Sample) (n : Nat) (s : Firmware) : Label :=
  if n % 2 = 0 then .tick 1000000 else .task (steady_act smp s.task.next)

theorem steady_next {s : Firmware} (h : Alone s) (smp : Sample) (n : Nat) :
    ∃ s', step s (steady_label smp n s) = some s' ∧ Alone s' := by
  obtain ⟨s', hstep⟩ : ∃ s', step s (steady_label smp n s) = some s' := by
    unfold steady_label
    split
    · exact ⟨_, rfl⟩
    · have hnext := alone_next h
      cases hpc : s.task with
      | reading =>
        refine ⟨{ s with task := .ready s.mono_s (some smp) }, ?_⟩
        simp [steady_act, TaskPc.next, step, task_step, hpc]
      | top | ready _ _ | locked _ _ | sensed _ _ _ | decided _ | relayed _ | released _ _ =>
        rw [hpc] at hnext
        exact ⟨_, hnext⟩
  refine ⟨s', hstep, h.keep hstep ?_⟩
  intro c
  unfold steady_label
  split <;> simp [Label.mover]

theorem steady_follows {s : Firmware} (h : Alone s) (smp : Sample) :
    firmware.Follows (steady_label smp) s ∧
      ∀ n, Alone (firmware.follow (steady_label smp) s n) :=
  follows_of_invariant (P := fun _ s => Alone s) h fun n _ hs => steady_next hs smp n

/-- The firmware after `n` steps. -/
def steady (smp : Sample) : Nat → Firmware :=
  firmware.follow (steady_label smp) (boot .missing 0)

def steady_execution (smp : Sample) : Execution firmware :=
  .follow ⟨.missing, 0, rfl⟩ (steady_follows (alone_boot .missing 0) smp).1

section steady
variable (smp : Sample)

theorem steady_lockstep : Lockstep (steady_execution smp) 0 where
  alone n _ := (steady_follows (alone_boot .missing 0) smp).2 n
  tick _ _ heven := if_pos heven
  task _ _ hodd := ⟨_, if_neg hodd⟩

theorem steady_fair (o : Owner) : (steady_execution smp).Fair (Due o) :=
  (steady_lockstep smp).fair o

theorem steady_clock (t : Int) : ∃ n, t ≤ ((steady_execution smp).states n).mono_s :=
  (steady_lockstep smp).clock t

/-- Only the sensor answers, and always the same. -/
theorem steady_labels (n : Nat) :
    (∀ smp', (steady_execution smp).labels n = .task (.sample smp') → smp' = smp) ∧
      (∀ c act, (steady_execution smp).labels n ≠ .manual c act) ∧
      ((steady_execution smp).labels n).undisturbed := by
  have hact : ∀ act smp', steady_act smp act = .sample smp' → smp' = smp := by
    intro act smp' h
    cases act <;> simp_all [steady_act]
  refine ⟨?_, (steady_lockstep smp).no_calls (Nat.zero_le n), ?_⟩
  · intro smp' hlabel
    change steady_label smp n _ = _ at hlabel
    unfold steady_label at hlabel
    split at hlabel
    · simp at hlabel
    · exact hact _ _ (Label.task.inj hlabel)
  · rcases (steady_lockstep smp).label (Nat.zero_le n) with hlabel | ⟨act, hlabel⟩ <;>
      rw [hlabel] <;> trivial

theorem steady_settings (n : Nat) :
    ((steady_execution smp).states n).s_settings = default_settings := by
  induction n with
  | zero => rfl
  | succ n ih =>
    rw [← ih]
    have hstep := (steady_execution smp).step n
    rcases (steady_lockstep smp).label (Nat.zero_le n) with hlabel | ⟨act, hlabel⟩
    · rw [hlabel] at hstep
      rw [← Option.some.inj hstep]
    · rw [hlabel] at hstep
      exact (task_step_inv hstep).settings_frame.settings

end steady

/-! ## What is known of cold water -/

/-- What the control state knows of water that stays cold. -/
structure KnowsCold (stop_x10 : Int) (s : CtlState) : Prop where
  overheat : s.overheat = false
  hot : s.hot = false
  sensor_failed : s.sensor_failed = false
  have_temp : s.have_temp = true
  temp : s.temp_x10.toInt < stop_x10

/-- In the cold, without an override, there is only maintenance to run for. -/
theorem KnowsCold.rule {stop_x10 : Int} {s : CtlState} (h : KnowsCold stop_x10 s)
    (hmanual : s.manual = .none) (cfg : CtlConfig) (now_s : Int) :
    ctl_rule (flags_next s cfg now_s) =
      if maintenance_kept s now_s || maintenance_starts s cfg now_s then (true, .maintenance)
      else (false, .auto_cold) := by
  have hoverheat : (flags_next s cfg now_s).overheat = false := h.overheat
  have hnone : (flags_next s cfg now_s).manual = .none := by
    show manual_next s now_s = .none
    simp [manual_next, hmanual]
  have hsensor : (flags_next s cfg now_s).sensor_failed = false := h.sensor_failed
  have hhot : (flags_next s cfg now_s).hot = false := h.hot
  simp only [ctl_rule, hoverheat, hnone, hsensor, hhot, reduceCtorEq, Bool.false_eq_true, if_false]
  rfl

section fair
variable {e : Execution firmware} (hfair : ∀ o, e.Fair (Due o))
         (hclock : ∀ t : Int, ∃ n, t ≤ (e.states n).mono_s)
include hfair hclock

/-! ## Heat -/

/-- **Water that stays critical gets the pump on, for good**, whatever the
    callers ask for, and however they change the thresholds below the one
    given; and once nothing disturbs the pin the relay is on too. -/
theorem heat_answered (critical_x10 : Int)
    (hsettings : ∀ᶠ n in atTop, (e.states n).s_settings.critical_x10.toInt ≤ critical_x10)
    (hhot : ∀ᶠ n in atTop, ∀ smp, e.labels n = .task (.sample smp) →
      smp.valid = true ∧ critical_x10 ≤ smp.temp_x10.toInt) :
    (∀ᶠ n in atTop, (e.states n).dev.s_state.on = true ∧
        (e.states n).dev.s_state.reason = .overheat) ∧
      ((∀ᶠ n in atTop, (e.labels n).undisturbed) →
        ∀ᶠ n in atTop, (e.states n).relay = true) := by
  have hflag : ∀ᶠ n in atTop, (e.states n).dev.s_state.overheat = true := by
    refine reads_settle hfair hclock (P := fun s => s.overheat = true) ?_ ?_
    · exact fun h hflag => h.overheat.trans hflag
    · filter_upwards [carried_eventually hfair hhot, hsettings] with n hcarried hle now_s smp hsmp
      obtain ⟨hvalid, htemp⟩ := hcarried smp hsmp
      rw [hvalid, ctl_step_good]
      exact (overheat_next_iff _ _ _).mpr (Or.inl (hle.trans htemp))
  have hpump : ∀ᶠ n in atTop,
      ((e.states n).dev.s_state.on, (e.states n).dev.s_state.reason) = (true, .overheat) := by
    refine pump_settles hfair hclock (P := fun p => p = (true, .overheat)) ?_
    filter_upwards [hflag] with n hflag cfg now_s
    have hflag' : (flags_next (e.states n).dev.s_state cfg now_s).overheat = true := hflag
    rw [ctl_rule, if_pos hflag']
  exact ⟨hpump.mono fun n hn => Prod.mk.inj hn,
    relay_runs hfair hclock (hpump.mono fun n hn => (Prod.mk.inj hn).1)⟩

omit hfair hclock in
theorem heat_answered_boiling : ∀ᶠ n in atTop, (steady ⟨true, 1000⟩ n).relay = true :=
  (heat_answered (e := steady_execution ⟨true, 1000⟩) (steady_fair _) (steady_clock _) 450
    (Eventually.of_forall fun n => by rw [steady_settings]; decide)
    (Eventually.of_forall fun n smp h => (steady_labels _ n).1 smp h ▸ by decide)).2
    (Eventually.of_forall fun n => (steady_labels _ n).2.2)

/-! ## Overrides -/

omit hclock in
/-- Once nobody asks for an override any more, nobody is on the way with one. -/
theorem asks_over {m : CtlManual}
    (hcalls : ∀ᶠ n in atTop, ∀ c q, e.labels n = .manual c (.call q) → q.manual ≠ m) :
    ∀ᶠ n in atTop, ∀ c, ¬ ((e.states n).callers c).Asks m := by
  have hstays : ∀ᶠ n in atTop, ∀ c, ¬ ((e.states n).callers c).Asks m →
      ¬ ((e.states (n + 1)).callers c).Asks m := by
    filter_upwards [hcalls] with n hcalls c hnot hasks
    rcases step_asks (e.step n) hasks with hold | ⟨q, hlabel, hq⟩
    · exact hnot hold
    · exact hcalls c q hlabel hq
  obtain ⟨n, hn⟩ := eventually_atTop.mp hstays
  -- all but finitely many callers are idle by then
  obtain ⟨b, hbelow, -⟩ := calls_left_le (e.run n)
  have hnear : ∀ᶠ k in atTop, ∀ c ∈ Finset.range b, ¬ ((e.states k).callers c).Asks m := by
    refine (eventually_all_finset _).mpr fun c _ => ?_
    refine eventually_of_stays (hstays.mono fun k hk => hk c) ?_
    refine frequently_atTop.mpr fun k => ?_
    obtain ⟨k', hk', hidle⟩ := caller_done hfair c k
    refine ⟨k', hk', ?_⟩
    rw [hidle]
    exact not_false
  have hfar : ∀ k ≥ n, ∀ c ≥ b, ¬ ((e.states k).callers c).Asks m := by
    intro k hk c hc
    induction k, hk using Nat.le_induction with
    | base =>
      rw [hbelow c hc]
      exact not_false
    | succ k hk ih => exact hn k hk c ih
  filter_upwards [hnear, eventually_ge_atTop n] with k hnear hk c
  by_cases hc : c < b
  · exact hnear c (Finset.mem_range.mpr hc)
  · exact hfar k hk c (not_lt.mp hc)

omit hfair hclock in
/-- A command that is taken in is not one that nobody asks for. -/
theorem command_other {n : Nat} {m m' : CtlManual} {d : UInt32} {now_s : Int}
    (hasks : ∀ c, ¬ ((e.states n).callers c).Asks m)
    (hop : CallsLogic (e.states n) (e.labels n) (.manual m' d now_s)) : m' ≠ m := by
  obtain ⟨c, q, hpc, rfl⟩ := hop.command
  intro heq
  refine hasks c ?_
  rw [hpc]
  exact heq

omit hfair hclock in
/-- As long as an override is in force and nobody asks for it again, its end
    does not move. -/
theorem override_until {m : CtlManual} {n : Nat}
    (hasks : ∀ k ≥ n, ∀ c, ¬ ((e.states k).callers c).Asks m)
    (hforce : ∀ k ≥ n, ¬ ∃ op, CallsLogic (e.states k) (e.labels k) op ∧
      (ctl_step (e.states k).dev.s_state op).manual ≠ m) :
    ∀ k ≥ n, (e.states k).dev.s_state.manual_until_s =
      (e.states n).dev.s_state.manual_until_s := by
  intro k hk
  induction k, hk using Nat.le_induction with
  | base => rfl
  | succ k hk ih =>
    refine step_keeps (e.step k) (P := fun s => s.manual_until_s =
      (e.states n).dev.s_state.manual_until_s) ?_ ih
    intro op hop hsame
    cases op with
    | manual m' d now_s =>
      rw [ctl_step_manual]
      split
      · exact hsame
      · -- accepted, it would be another one
        rename_i haccepted
        refine absurd ⟨_, hop, ?_⟩ (hforce k hk)
        rw [ctl_step_manual, if_neg haccepted]
        exact command_other (hasks k hk) hop
    | sensor cfg now_s valid t => exact (ctl_step_override (by simp)).2.trans hsame
    | decide cfg now_s => exact (ctl_step_override (by simp)).2.trans hsame

/-- An override that nobody asks for any more is over for good. -/
theorem override_over {m : CtlManual} (hm : m ≠ .none)
    (hcalls : ∀ᶠ n in atTop, ∀ c q, e.labels n = .manual c (.call q) → q.manual ≠ m) :
    ∀ᶠ n in atTop, (e.states n).dev.s_state.manual ≠ m := by
  have hasks := asks_over hfair hcalls
  refine state_settles (P := fun s => s.manual ≠ m) ?_ ?_
  · filter_upwards [hasks] with n hasks op hop hne
    have hends : ∀ {s' : CtlState}, s'.manual = (e.states n).dev.s_state.manual ∨
        s'.manual = .none → s'.manual ≠ m := by
      rintro s' (hsame | hnone)
      · rw [hsame]
        exact hne
      · rw [hnone]
        exact hm.symm
    cases op with
    | manual m' d now_s =>
      rw [ctl_step_manual]
      split
      · exact hne
      · exact command_other hasks hop
    | sensor cfg now_s valid t => exact hends (ctl_step_override (by simp)).1
    | decide cfg now_s => exact hends (ctl_step_override (by simp)).1
  · intro hnever
    obtain ⟨n, hn⟩ := eventually_atTop.mp (hasks.and hnever)
    have huntil := override_until (fun k hk => (hn k hk).1) fun k hk => (hn k hk).2
    obtain ⟨k, hk, now_s, read, r, wall, hlate, hpc, hlabel⟩ := frequently_atTop.mp
      (decide_again hfair hclock (e.states n).dev.s_state.manual_until_s) n
    refine (hn k hk).2 ⟨_, decide_calls hpc hlabel, ?_⟩
    rw [ctl_step_decide]
    show manual_next (e.states k).dev.s_state now_s ≠ m
    rw [manual_next_late (huntil k hk ▸ hlate)]
    exact hm.symm

/-- Where nobody gives overrides any more there are none, for good. -/
theorem overrides_over
    (hcalls : ∀ᶠ n in atTop, ∀ c q, e.labels n = .manual c (.call q) → q.manual = .none) :
    ∀ᶠ n in atTop, (e.states n).dev.s_state.manual = .none := by
  have hgone : ∀ m, m ≠ .none → ∀ᶠ n in atTop, (e.states n).dev.s_state.manual ≠ m := by
    intro m hm
    refine override_over hfair hclock hm (hcalls.mono fun n hn c q hlabel => ?_)
    rw [hn c q hlabel]
    exact hm.symm
  filter_upwards [hgone .start (by decide), hgone .stop (by decide)] with n hstart hstop
  cases hmanual : (e.states n).dev.s_state.manual with
  | none => rfl
  | start => exact absurd hmanual hstart
  | stop => exact absurd hmanual hstop

/-- **An override that nobody renews is over for good**, and the pump is left
    to the automatic rules. -/
theorem automatic_again
    (hcalls : ∀ᶠ n in atTop, ∀ c q, e.labels n = .manual c (.call q) → q.manual = .none) :
    ∀ᶠ n in atTop, (e.states n).dev.s_state.manual = .none ∧
      (e.states n).dev.s_state.reason ≠ .manual_on ∧
      (e.states n).dev.s_state.reason ≠ .manual_off := by
  have hnone := overrides_over hfair hclock hcalls
  have hpump : ∀ᶠ n in atTop, (e.states n).dev.s_state.reason ≠ .manual_on ∧
      (e.states n).dev.s_state.reason ≠ .manual_off := by
    refine pump_settles hfair hclock (P := fun p => p.2 ≠ .manual_on ∧ p.2 ≠ .manual_off) ?_
    filter_upwards [hnone] with n hnone cfg now_s
    have hnone' : (flags_next (e.states n).dev.s_state cfg now_s).manual = .none := by
      show manual_next (e.states n).dev.s_state now_s = .none
      simp [manual_next, hnone]
    rw [ctl_rule, hnone']
    split_ifs <;> simp_all
  exact hnone.and hpump

omit hfair hclock in
/-- A start for ten minutes, and then water at 20 °C. -/
theorem automatic_again_start : ∃ e : Execution firmware,
    (e.states 6).dev.s_state.manual = .start ∧
      ∀ᶠ n in atTop, (e.states n).dev.s_state.manual = .none ∧
        (e.states n).dev.s_state.reason ≠ .manual_on := by
  let pre := command_labels 0 ⟨⟨.start, 600, "admin".toList⟩, 0, default_settings, ⟨false, 0⟩⟩
  obtain ⟨s, hexec, hdone, hstart⟩ : ∃ s, firmware.exec (boot .missing 0) pre = some s ∧
      s.callers 0 = .idle ∧ s.dev.s_state.manual = .start := ⟨_, rfl, rfl, rfl⟩
  have halone : Alone s := alone_after hexec hdone (by simp [pre, command_labels, Label.mover])
  obtain ⟨e, hfirst, hlater⟩ := Execution.carry_on (P := fun _ s => Alone s) hexec
    ⟨.missing, 0, rfl⟩ (steady_label ⟨true, 200⟩) halone fun n _ hs => steady_next hs _ n
  have hlater : ∀ n ≥ 6, Alone (e.states n) ∧
      e.labels n = steady_label ⟨true, 200⟩ (n - 6) (e.states n) := by
    intro n hn
    obtain ⟨m, rfl⟩ := Nat.exists_eq_add_of_le hn
    rw [Nat.add_sub_cancel_left]
    exact hlater m
  have hlock : Lockstep e 6 :=
    ⟨fun n hn => (hlater n hn).1, fun n hn heven => (hlater n hn).2.trans (if_pos heven),
      fun n hn hodd => ⟨_, (hlater n hn).2.trans (if_neg hodd)⟩⟩
  have hend : e.states 6 = s := Option.some.inj ((hfirst 6 le_rfl).symm.trans hexec)
  refine ⟨e, by rw [hend, hstart], ?_⟩
  refine (automatic_again hlock.fair hlock.clock ?_).mono fun n h => ⟨h.1, h.2.1⟩
  filter_upwards [eventually_ge_atTop 6] with n hn c q hcall
  exact absurd hcall (hlock.no_calls hn c _)

/-! ## A dead sensor, and warm water -/

/-- A sensor that stays dead gets the flag up for good. -/
theorem sensor_failed_eventually
    (hlost : ∀ᶠ n in atTop, ∀ smp, e.labels n = .task (.sample smp) → smp.valid = false) :
    ∀ᶠ n in atTop, (e.states n).dev.s_state.sensor_failed = true := by
  have hcarried := carried_eventually hfair hlost
  refine state_settles (P := fun s => s.sensor_failed = true) ?_ ?_
  · filter_upwards [hcarried] with n hcarried op hop hflag
    cases op with
    | sensor cfg now_s valid t =>
      obtain ⟨hsmp, rfl⟩ := hop.read
      obtain rfl : valid = false := hcarried _ hsmp
      exact (failed_read _ _ _ _).1.mpr (Or.inl hflag)
    | manual _ _ _ | decide _ _ =>
      exact (ctl_step_sensor_frame (by simp)).sensor_failed.trans hflag
  · intro hnever
    -- while the flag is down the counter goes up with every read, but not to three
    have hmono : ∀ᶠ n in atTop, (e.states n).dev.s_state.failures.toNat ≤
        (e.states (n + 1)).dev.s_state.failures.toNat := by
      filter_upwards [hcarried] with n hcarried
      refine step_keeps (e.step n)
        (P := fun s => (e.states n).dev.s_state.failures.toNat ≤ s.failures.toNat) ?_ le_rfl
      intro op hop _
      cases op with
      | sensor cfg now_s valid t =>
        obtain ⟨hsmp, rfl⟩ := hop.read
        obtain rfl : valid = false := hcarried _ hsmp
        have hlt := (e.states n).dev.s_state.failures.toNat_lt
        rw [(failed_read _ _ _ _).2]
        omega
      | manual _ _ _ | decide _ _ =>
        exact (congrArg UInt8.toNat (ctl_step_sensor_frame (by simp)).failures).ge
    have hgrows : ∃ᶠ n in atTop, (e.states n).dev.s_state.failures.toNat <
        (e.states (n + 1)).dev.s_state.failures.toNat ∧
        (e.states (n + 1)).dev.s_state.failures.toNat < 3 := by
      refine ((sensor_again hfair hclock 0).and_eventually (hcarried.and hnever)).mono ?_
      rintro n ⟨⟨now_s, ⟨valid, t⟩, -, hpc, hlabel⟩, hcarried, hnot⟩
      obtain rfl : valid = false := hcarried _ (by rw [hpc]; rfl)
      have hop := sensor_calls hpc hlabel
      obtain ⟨hfailed, hcount⟩ :=
        failed_read (e.states n).dev.s_state now_s (e.states n).s_settings t
      have hlow : ¬ 3 ≤ min 255 ((e.states n).dev.s_state.failures.toNat + 1) :=
        fun hthree => hnot ⟨_, hop, hfailed.mpr (Or.inr hthree)⟩
      rw [hop.state (e.step n), hcount]
      omega
    have hthree := eventually_ge_of_grows hmono (hgrows.mono fun n hn => hn.1) 3
    obtain ⟨n, ⟨hlt, hlow⟩, hge⟩ := (hgrows.and_eventually hthree).exists
    omega

/-- Where nobody asks for a stop, a flag that stays up gets the pump on for
    good: a stop in force runs out first. -/
theorem flag_answered {f : CtlState → Bool}
    (hframe : ∀ s cfg now_s, f (flags_next s cfg now_s) = f s)
    (hrule : ∀ s : CtlState, f s = true → s.manual ≠ .stop → (ctl_rule s).1 = true)
    (hflag : ∀ᶠ n in atTop, f (e.states n).dev.s_state = true)
    (hstop : ∀ᶠ n in atTop, ∀ c q, e.labels n = .manual c (.call q) → q.manual ≠ .stop) :
    ∀ᶠ n in atTop, (e.states n).dev.s_state.on = true := by
  refine pump_settles hfair hclock (P := fun p => p.1 = true) ?_
  filter_upwards [hflag, override_over hfair hclock (by decide) hstop] with n hflag hnot cfg now_s
  refine hrule _ ((hframe _ cfg now_s).trans hflag) ?_
  show manual_next (e.states n).dev.s_state now_s ≠ .stop
  unfold manual_next
  split
  · decide
  · exact hnot

/-- **A sensor that stays dead gets the pump on, for good**, unless somebody
    goes on asking for a stop. -/
theorem sensor_loss_answered
    (hlost : ∀ᶠ n in atTop, ∀ smp, e.labels n = .task (.sample smp) → smp.valid = false)
    (hstop : ∀ᶠ n in atTop, ∀ c q, e.labels n = .manual c (.call q) → q.manual ≠ .stop) :
    (∀ᶠ n in atTop, (e.states n).dev.s_state.on = true) ∧
      ((∀ᶠ n in atTop, (e.labels n).undisturbed) →
        ∀ᶠ n in atTop, (e.states n).relay = true) := by
  have hpump := flag_answered hfair hclock (fun _ _ _ => rfl) ctl_rule_sensor_failed
    (sensor_failed_eventually hfair hclock hlost) hstop
  exact ⟨hpump, relay_runs hfair hclock hpump⟩

omit hfair hclock in
theorem sensor_loss_answered_dead : ∀ᶠ n in atTop, (steady ⟨false, 0⟩ n).relay = true :=
  (sensor_loss_answered (e := steady_execution ⟨false, 0⟩) (steady_fair _) (steady_clock _)
    (Eventually.of_forall fun n smp h => (steady_labels _ n).1 smp h ▸ rfl)
    (Eventually.of_forall fun n c _ h => absurd h ((steady_labels _ n).2.1 c _))).2
    (Eventually.of_forall fun n => (steady_labels _ n).2.2)

/-- **So does water that stays warm.** -/
theorem warmth_answered (start_x10 : Int)
    (hsettings : ∀ᶠ n in atTop, (e.states n).s_settings.start_x10.toInt ≤ start_x10)
    (hwarm : ∀ᶠ n in atTop, ∀ smp, e.labels n = .task (.sample smp) →
      smp.valid = true ∧ start_x10 < smp.temp_x10.toInt)
    (hstop : ∀ᶠ n in atTop, ∀ c q, e.labels n = .manual c (.call q) → q.manual ≠ .stop) :
    (∀ᶠ n in atTop, (e.states n).dev.s_state.on = true) ∧
      ((∀ᶠ n in atTop, (e.labels n).undisturbed) →
        ∀ᶠ n in atTop, (e.states n).relay = true) := by
  have hflag : ∀ᶠ n in atTop, (e.states n).dev.s_state.hot = true := by
    refine reads_settle hfair hclock (P := fun s => s.hot = true) ?_ ?_
    · exact fun h hflag => h.hot.trans hflag
    · filter_upwards [carried_eventually hfair hwarm, hsettings] with n hcarried hle now_s smp hsmp
      obtain ⟨hvalid, htemp⟩ := hcarried smp hsmp
      rw [hvalid, ctl_step_good]
      exact (hot_next_iff _ _ _).mpr (Or.inl (hle.trans_lt htemp))
  have hpump := flag_answered hfair hclock (fun _ _ _ => rfl) ctl_rule_hot hflag hstop
  exact ⟨hpump, relay_runs hfair hclock hpump⟩

omit hfair hclock in
theorem warmth_answered_warm : ∀ᶠ n in atTop, (steady ⟨true, 350⟩ n).relay = true :=
  (warmth_answered (e := steady_execution ⟨true, 350⟩) (steady_fair _) (steady_clock _) 300
    (Eventually.of_forall fun n => by rw [steady_settings]; decide)
    (Eventually.of_forall fun n smp h => (steady_labels _ n).1 smp h ▸ by decide)
    (Eventually.of_forall fun n c _ h => absurd h ((steady_labels _ n).2.1 c _))).2
    (Eventually.of_forall fun n => (steady_labels _ n).2.2)

/-! ## Cold -/

theorem knowsCold_eventually (stop_x10 : Int)
    (hsettings : ∀ᶠ n in atTop, stop_x10 ≤ (e.states n).s_settings.stop_x10.toInt)
    (hcold : ∀ᶠ n in atTop, ∀ smp, e.labels n = .task (.sample smp) →
      smp.valid = true ∧ smp.temp_x10.toInt < stop_x10) :
    ∀ᶠ n in atTop, KnowsCold stop_x10 (e.states n).dev.s_state := by
  refine reads_settle hfair hclock ?_ ?_
  · intro s s' h hs
    exact ⟨h.overheat.trans hs.overheat, h.hot.trans hs.hot,
      h.sensor_failed.trans hs.sensor_failed, h.have_temp.trans hs.have_temp,
      h.temp_x10 ▸ hs.temp⟩
  · filter_upwards [carried_eventually hfair hcold, hsettings] with n hcarried hle now_s smp hsmp
    obtain ⟨hvalid, htemp⟩ := hcarried smp hsmp
    obtain ⟨-, -, -, hstop, hcritical, -⟩ := (firmware_settings (e.run n)).current
    simp only [HYSTERESIS_MIN_X10, CRITICAL_MARGIN_MIN_X10] at hstop hcritical
    rw [hvalid, ctl_step_good]
    refine ⟨?_, ?_, rfl, rfl, htemp⟩
    · rw [Bool.eq_false_iff, ne_eq, overheat_next_iff]
      simp only [config_from_settings, OVERHEAT_CLEAR_X10]
      omega
    · rw [Bool.eq_false_iff, ne_eq, hot_next_iff]
      simp only [config_from_settings]
      omega

section cold
variable {stop_x10 : Int}
         (hknows : ∀ᶠ n in atTop, KnowsCold stop_x10 (e.states n).dev.s_state)
         (hnone : ∀ᶠ n in atTop, (e.states n).dev.s_state.manual = .none)
include hknows hnone

/-- The idle clock of a pump that stays off runs on until a run is due. -/
theorem cold_runs_again
    (hsettings : ∀ᶠ n in atTop, stop_x10 ≤ (e.states n).s_settings.stop_x10.toInt) :
    ∃ᶠ n in atTop, (e.states n).dev.s_state.on = true := by
  by_contra hnever
  have hoff : ∀ᶠ n in atTop, (e.states n).dev.s_state.on = false :=
    (not_frequently.mp hnever).mono fun n hn => Bool.eq_false_iff.mpr hn
  obtain ⟨n, hn⟩ := eventually_atTop.mp ((hknows.and hnone).and (hsettings.and hoff))
  have hlast : ∀ k ≥ n,
      (e.states k).dev.s_state.last_on_s = (e.states n).dev.s_state.last_on_s := by
    intro k hk
    induction k, hk using Nat.le_induction with
    | base => rfl
    | succ k hk ih =>
      rcases step_calls_logic (e.step k) with hsame | ⟨op, hop⟩
      · rw [hsame, ih]
      · have hnext := (hn (k + 1) (by omega)).2.2
        rw [hop.state (e.step k)] at hnext ⊢
        cases op with
        | sensor _ _ _ _ | manual _ _ _ => exact (ctl_step_pump_frame (by simp)).last_on_s.trans ih
        | decide cfg now_s =>
          rw [ctl_step_decide] at hnext ⊢
          have hrule : (ctl_rule (flags_next (e.states k).dev.s_state cfg now_s)).1 = false := hnext
          dsimp only
          rw [hrule, (hn k hk).2.2]
          exact ih
  obtain ⟨k, hk, now_s, read, r, wall, hlate, hpc, hlabel⟩ := frequently_atTop.mp
    (decide_again hfair hclock ((e.states n).dev.s_state.last_on_s + 604800)) n
  obtain ⟨⟨hknows, hnone⟩, hle, hoff⟩ := hn k hk
  have hruns : (maintenance_kept (e.states k).dev.s_state now_s ||
      maintenance_starts (e.states k).dev.s_state
        (config_from_settings (e.states k).s_settings) now_s) = true := by
    cases hkept : maintenance_kept (e.states k).dev.s_state now_s with
    | true => rfl
    | false =>
      refine (maintenance_starts_iff _ _ _).mpr ⟨hkept, hoff, ?_, hknows.sensor_failed,
        hknows.have_temp, hknows.temp.trans_le hle, ?_⟩
      · simp [manual_next, hnone]
      · rw [hlast k hk]
        show (604800 : Int) ≤ _
        omega
  have hnext := (hn (k + 1) (by omega)).2.2
  rw [task_decides hpc hlabel, hknows.rule hnone, if_pos hruns] at hnext
  simp at hnext

/-- A run comes to its end. -/
theorem cold_rests_again : ∃ᶠ n in atTop, (e.states n).dev.s_state.on = false := by
  by_contra hnever
  have hon : ∀ᶠ n in atTop, (e.states n).dev.s_state.on = true :=
    (not_frequently.mp hnever).mono fun n hn => Bool.not_eq_false _ ▸ hn
  obtain ⟨n, hn⟩ := eventually_atTop.mp ((hknows.and hnone).and hon)
  have hstarts : ∀ k ≥ n, ∀ cfg now_s,
      maintenance_starts (e.states k).dev.s_state cfg now_s = false := by
    intro k hk cfg now_s
    rw [Bool.eq_false_iff, ne_eq, maintenance_starts_iff]
    rintro ⟨-, hoff, -⟩
    rw [(hn k hk).2] at hoff
    simp at hoff
  have huntil : ∀ k ≥ n, (e.states k).dev.s_state.maintenance_until_s =
      (e.states n).dev.s_state.maintenance_until_s := by
    intro k hk
    induction k, hk using Nat.le_induction with
    | base => rfl
    | succ k hk ih =>
      refine step_keeps (e.step k) (P := fun s => s.maintenance_until_s =
        (e.states n).dev.s_state.maintenance_until_s) ?_ ih
      intro op hop hsame
      cases op with
      | sensor _ _ _ _ | manual _ _ _ =>
        exact (ctl_step_pump_frame (by simp)).maintenance_until_s.trans hsame
      | decide cfg now_s =>
        rw [ctl_step_decide]
        dsimp only [flags_next]
        rw [hstarts k hk cfg now_s]
        exact hsame
  obtain ⟨k, hk, now_s, read, r, wall, hlate, hpc, hlabel⟩ := frequently_atTop.mp
    (decide_again hfair hclock (e.states n).dev.s_state.maintenance_until_s) n
  obtain ⟨⟨hknows, hnone⟩, -⟩ := hn k hk
  have hover : maintenance_kept (e.states k).dev.s_state now_s = false := by
    have hle : (e.states k).dev.s_state.maintenance_until_s ≤ now_s := huntil k hk ▸ hlate
    simp [maintenance_kept, hle]
  have hnext := (hn (k + 1) (by omega)).2
  rw [task_decides hpc hlabel, hknows.rule hnone, hover, hstarts k hk] at hnext
  simp at hnext

end cold

/-- **In water that stays cold the pump is off but for maintenance, and that is
    run again and again.**  Where nobody gives overrides any more: the pump
    runs for maintenance only, it is turned on again and again, so that it
    never seizes, and again and again it is off. -/
theorem cold_answered (stop_x10 : Int)
    (hsettings : ∀ᶠ n in atTop, stop_x10 ≤ (e.states n).s_settings.stop_x10.toInt)
    (hcold : ∀ᶠ n in atTop, ∀ smp, e.labels n = .task (.sample smp) →
      smp.valid = true ∧ smp.temp_x10.toInt < stop_x10)
    (hcalls : ∀ᶠ n in atTop, ∀ c q, e.labels n = .manual c (.call q) → q.manual = .none) :
    (∀ᶠ n in atTop, (e.states n).dev.s_state.on = true →
        (e.states n).dev.s_state.reason = .maintenance) ∧
      (∃ᶠ n in atTop, (e.states n).dev.s_state.on = true) ∧
      ∃ᶠ n in atTop, (e.states n).dev.s_state.on = false := by
  have hknows := knowsCold_eventually hfair hclock stop_x10 hsettings hcold
  have hnone := overrides_over hfair hclock hcalls
  refine ⟨?_, cold_runs_again hfair hclock hknows hnone hsettings,
    cold_rests_again hfair hclock hknows hnone⟩
  refine pump_settles hfair hclock (P := fun p => p.1 = true → p.2 = .maintenance) ?_
  filter_upwards [hknows, hnone] with n hknows hnone cfg now_s
  rw [hknows.rule hnone]
  split
  · exact fun _ => rfl
  · exact fun hon => nomatch hon

omit hfair hclock in
theorem cold_answered_cold : ∃ᶠ n in atTop, (steady ⟨true, 150⟩ n).dev.s_state.on = true :=
  (cold_answered (e := steady_execution ⟨true, 150⟩) (steady_fair _) (steady_clock _) 250
    (Eventually.of_forall fun n => by rw [steady_settings]; decide)
    (Eventually.of_forall fun n smp h => (steady_labels _ n).1 smp h ▸ by decide)
    (Eventually.of_forall fun n c _ h => absurd h ((steady_labels _ n).2.1 c _))).2.1

end fair

end FloorHeating
