import FloorHeating.Accounting

/-! # The order of the decisions

    `control_manual` reads the clock under `s_lock`, `control_task` before it
    takes the lock.  So a command can be decided, a second later, while the
    task still waits with its older timestamp, and the task's decision then
    goes back in time: the difference to the last tick is negative, and wraps
    in its cast to `uint32_t`.

    As long as no accepted command overtakes the waiting task with a later
    second, time never runs backwards under the lock. -/

namespace FloorHeating

open LTS Mutex

/-! ## Timestamps on their way to a decision -/

/-- The timestamp the control task has yet to decide with. -/
def TaskPc.stamp : TaskPc → Option Int
  | .ready now_s _ | .locked now_s _ | .sensed now_s _ _ => some now_s
  | _ => none

/-- The timestamp a caller has yet to decide with. -/
def CallerPc.stamp : CallerPc → Option Int
  | .manual_accepted _ now_s => some now_s
  | _ => none

/-- The step is no command that is accepted in a later second than the one
    the control task is waiting for the lock with. -/
def Timely (s : Firmware) : Label → Prop
  | .manual c .apply => ∀ now_s smp q st, s.task = .ready now_s smp →
      s.callers c = .manual_locked q →
      ctl_manual s.dev.s_state q.manual q.clamped_s s.mono_s = some st → s.mono_s ≤ now_s
  | _ => True

/-- The task may be at `pc`: its timestamp is not older than the last decision,
    and a waiting task is not behind the caller inside. -/
structure StampInv (s : Firmware) (pc : TaskPc) : Prop where
  bounds : ∀ now_s, pc.stamp = some now_s → s.dev.s_last_tick_s ≤ now_s ∧ now_s ≤ s.mono_s
  waiting : ∀ now_s smp, pc = .ready now_s smp → ∀ c t, (s.callers c).stamp = some t → t ≤ now_s

/-- No timestamp is older than the last decision. -/
structure ClockInv (s : Firmware) : Prop where
  ticked : s.dev.s_last_tick_s ≤ s.mono_s
  task : StampInv s s.task
  caller : ∀ c now_s, (s.callers c).stamp = some now_s →
    s.dev.s_last_tick_s ≤ now_s ∧ now_s ≤ s.mono_s

/-- Without a timestamp there is nothing to ask. -/
theorem stampInv_none (s : Firmware) {pc : TaskPc} (h : pc.stamp = none) : StampInv s pc := by
  refine ⟨?_, ?_⟩
  · intro now_s ht
    simp [h] at ht
  · rintro now_s smp rfl
    simp [TaskPc.stamp] at h

/-- A timestamp read now is the latest of all. -/
theorem ClockInv.stamp_now {s : Firmware} (hs : ClockInv s) (smp : Option Sample) :
    StampInv s (.ready s.mono_s smp) := by
  refine ⟨?_, ?_⟩
  · intro now_s ht
    obtain rfl : s.mono_s = now_s := by simpa [TaskPc.stamp] using ht
    exact ⟨hs.ticked, Int.le_refl _⟩
  · intro now_s smp' heq c t ht
    obtain ⟨rfl, -⟩ : s.mono_s = now_s ∧ smp = smp' := by simpa using heq
    exact (hs.caller c t ht).2

theorem clockInv_boot (nvs : NvsBlob) (clock_us : Nat) : ClockInv (boot nvs clock_us) := by
  refine ⟨?_, stampInv_none _ rfl, ?_⟩
  · show (0 : Int) ≤ ((clock_us / 1000000 : Nat) : Int)
    omega
  · intro c now_s h
    simp [boot, CallerPc.stamp] at h

theorem CallerPc.stamp_inside {pc : CallerPc} {t : Int} (h : pc.stamp = some t) :
    pc.inside = true := by
  cases pc <;> simp_all [CallerPc.stamp, CallerPc.inside]

/-- The task moves on: the callers and the last decision are as before. -/
theorem ClockInv.task_moves {s s' : Firmware} (hs : ClockInv s) (hstamp : StampInv s s'.task)
    (hlast : s'.dev.s_last_tick_s = s.dev.s_last_tick_s := by rfl)
    (hclock : s'.clock_us = s.clock_us := by rfl) (hcallers : s'.callers = s.callers := by rfl) :
    ClockInv s' := by
  have hmono : s'.mono_s = s.mono_s := by rw [Firmware.mono_s, hclock, Firmware.mono_s]
  refine ⟨?_, ⟨?_, ?_⟩, ?_⟩
  · rw [hlast, hmono]
    exact hs.ticked
  · rw [hlast, hmono]
    exact hstamp.bounds
  · rw [hcallers]
    exact hstamp.waiting
  · rw [hlast, hmono, hcallers]
    exact hs.caller

/-- A timestamp after a caller has moved is its own, or one that was there. -/
theorem stamp_set_caller {s : Firmware} {c c' : Nat} {pc : CallerPc} {t : Int}
    (h : ((s.set_caller c pc).callers c').stamp = some t) :
    c' = c ∧ pc.stamp = some t ∨ c' ≠ c ∧ (s.callers c').stamp = some t := by
  by_cases hc : c' = c
  · rw [hc, set_caller_same] at h
    exact Or.inl ⟨hc, h⟩
  · rw [set_caller_other s hc] at h
    exact Or.inr ⟨hc, h⟩

/-- A caller moves on to a place without a timestamp. -/
theorem ClockInv.unstamped {s s' : Firmware} (hs : ClockInv s) {c : Nat} {pc : CallerPc}
    (hpc : pc.stamp = none := by rfl) (hclock : s'.clock_us = s.clock_us := by rfl)
    (hlast : s'.dev.s_last_tick_s = s.dev.s_last_tick_s := by rfl)
    (htask : s'.task = s.task := by rfl) (hcallers : s'.callers = s.callers := by rfl) :
    ClockInv (s'.set_caller c pc) := by
  have hmono : s'.mono_s = s.mono_s := by rw [Firmware.mono_s, hclock, Firmware.mono_s]
  have hothers : ∀ c' t, ((s'.set_caller c pc).callers c').stamp = some t →
      (s.callers c').stamp = some t := by
    intro c' t ht
    rcases stamp_set_caller ht with ⟨-, hown⟩ | ⟨-, hold⟩
    · simp [hpc] at hown
    · rwa [hcallers] at hold
  refine ⟨?_, ⟨?_, ?_⟩, ?_⟩
  · show s'.dev.s_last_tick_s ≤ s'.mono_s
    rw [hlast, hmono]
    exact hs.ticked
  · intro now_s ht
    show s'.dev.s_last_tick_s ≤ now_s ∧ now_s ≤ s'.mono_s
    rw [hlast, hmono]
    exact hs.task.bounds now_s (htask ▸ ht)
  · intro now_s smp hready c' t ht
    exact hs.task.waiting now_s smp (htask ▸ hready) c' t (hothers c' t ht)
  · intro c' t ht
    show s'.dev.s_last_tick_s ≤ t ∧ t ≤ s'.mono_s
    rw [hlast, hmono]
    exact hs.caller c' t (hothers c' t ht)

/-- With the task inside, no caller has a timestamp. -/
theorem LockInv.no_caller_stamp {s : Firmware} (h : LockInv s) (htask : s.task.inside = true)
    (c : Nat) (t : Int) : (s.callers c).stamp ≠ some t := by
  intro ht
  have hcaller : s.inside (.caller c) = true := CallerPc.stamp_inside ht
  have hsame : Owner.task = .caller c := Held.unique h htask hcaller
  simp at hsame

/-- With a caller inside, a task that has a timestamp waits for the lock. -/
theorem LockInv.task_waits {s : Firmware} (h : LockInv s) {c : Nat}
    (hcaller : (s.callers c).inside = true) {now_s : Int} (ht : s.task.stamp = some now_s) :
    ∃ smp, s.task = .ready now_s smp := by
  have hout : ¬ s.task.inside = true := by
    intro htask
    have hsame : Owner.task = .caller c := Held.unique h htask hcaller
    simp at hsame
  cases hpc : s.task with
  | ready t smp =>
    simp only [hpc, TaskPc.stamp, Option.some.injEq] at ht
    exact ⟨smp, by rw [ht]⟩
  | locked _ _ | sensed _ _ _ => simp [hpc, TaskPc.inside] at hout
  | top | reading | decided _ | relayed _ | released _ _ => simp [hpc, TaskPc.stamp] at ht

/-! ## Step by step -/

theorem TaskStep.clockInv {s s' : Firmware} {act : TaskAct} (h : TaskStep s act s')
    (hlock : LockInv s) (hs : ClockInv s) : ClockInv s' := by
  cases h with
  | start pc =>
    unfold Firmware.task_start
    split
    · exact hs.task_moves (stampInv_none s rfl)
    · exact hs.task_moves (hs.stamp_now none)
  | sample smp pc => exact hs.task_moves (hs.stamp_now (some smp))
  | lock now_s smp pc free =>
    -- the timestamp it has waited with
    have hkept : StampInv s (.locked now_s smp) :=
      ⟨fun t ht => hs.task.bounds t (pc ▸ ht), fun _ _ heq => by simp at heq⟩
    exact hs.task_moves hkept
  | sensor now_s smp pc =>
    have hkept : StampInv s (s.task_sensor now_s smp).task :=
      ⟨fun t ht => hs.task.bounds t (pc ▸ ht), fun _ _ heq => by simp [Firmware.task_sensor] at heq⟩
    refine hs.task_moves hkept ?_
    show (iteration_sensor s.dev now_s _).1.s_last_tick_s = s.dev.s_last_tick_s
    rw [iteration_sensor_device]
  | decide now_s rd r wall pc =>
    have hlast : (s.task_decide now_s rd r wall).dev.s_last_tick_s = now_s :=
      decide_locked_last_tick s.dev s.s_settings wall now_s r none
    have hinside : s.task.inside = true := by
      rw [pc]
      rfl
    refine ⟨?_, stampInv_none _ rfl, ?_⟩
    · rw [hlast]
      exact (hs.task.bounds now_s (by rw [pc]; rfl)).2
    · intro c t ht
      exact absurd ht (hlock.no_caller_stamp hinside c t)
  | relay _ pc | unlock _ pc => exact hs.task_moves (stampInv_none s rfl)
  | history it on pc =>
    unfold Firmware.task_history
    split
    · split
      · exact hs.task_moves (stampInv_none s rfl)
      · exact hs.task_moves (stampInv_none s rfl)
    · exact hs.task_moves (stampInv_none s rfl)

theorem ManualStep.clockInv {s s' : Firmware} {c : Nat} {act : ManualAct}
    (h : ManualStep s c act s') (hok : Timely s (.manual c act)) (hlock : LockInv s)
    (hs : ClockInv s) : ClockInv s' := by
  cases h with
  | call _ _ | lock _ _ _ | reject _ _ _ | unlock _ _ | refuse _ _ _ | leave _ _ =>
    exact hs.unstamped
  | accept q st pc accepted =>
    refine ⟨hs.ticked, ⟨hs.task.bounds, ?_⟩, ?_⟩
    · -- the one step that could overtake the task
      intro now_s smp hready c' t ht
      rcases stamp_set_caller ht with ⟨-, hown⟩ | ⟨-, hold⟩
      · obtain rfl : s.mono_s = t := by simpa [CallerPc.stamp] using hown
        exact hok now_s smp q st hready pc accepted
      · exact hs.task.waiting now_s smp hready c' t hold
    · intro c' t ht
      rcases stamp_set_caller ht with ⟨-, hown⟩ | ⟨-, hold⟩
      · obtain rfl : s.mono_s = t := by simpa [CallerPc.stamp] using hown
        exact ⟨hs.ticked, Int.le_refl _⟩
      · exact hs.caller c' t hold
  | decide q now_s wall pc =>
    have hlast : (s.manual_decide c q now_s wall).dev.s_last_tick_s = now_s :=
      decide_locked_last_tick s.dev s.s_settings wall now_s {} (some q.detail)
    have hstamp : (s.callers c).stamp = some now_s := by
      rw [pc]
      rfl
    have hinside : s.inside (.caller c) = true := CallerPc.stamp_inside hstamp
    refine ⟨?_, ⟨?_, ?_⟩, ?_⟩
    · rw [hlast]
      exact (hs.caller c now_s hstamp).2
    · -- the task, if it has a timestamp, has waited with it
      intro t ht
      obtain ⟨smp, hready⟩ := hlock.task_waits hinside ht
      rw [hlast]
      exact ⟨hs.task.waiting t smp hready c now_s hstamp, (hs.task.bounds t ht).2⟩
    · intro t smp hready c' t' ht
      rcases stamp_set_caller ht with ⟨-, hown⟩ | ⟨-, hold⟩
      · simp [CallerPc.stamp] at hown
      · exact hs.task.waiting t smp hready c' t' hold
    · intro c' t ht
      rcases stamp_set_caller ht with ⟨-, hown⟩ | ⟨hother, hold⟩
      · simp [CallerPc.stamp] at hown
      · -- nobody else is inside
        have hinside' : s.inside (.caller c') = true := CallerPc.stamp_inside hold
        have hsame : Owner.caller c' = .caller c := Held.unique hlock hinside' hinside
        exact absurd (Owner.caller.inj hsame) hother

theorem SetStep.clockInv {s s' : Firmware} {c : Nat} {act : SetAct} (h : SetStep s c act s')
    (hs : ClockInv s) : ClockInv s' := by
  cases h with
  | call _ _ | lock _ _ _ | apply _ _ | nvs_commit _ _ _ _ | unlock _ _ _ | leave _ _ _ =>
    exact hs.unstamped
  | nvs_open _ ok _ | nvs_set_blob _ ok _ _ => cases ok <;> exact hs.unstamped

theorem clockInv_step {s s' : Firmware} {a : Label} (hok : Timely s a) (hlock : LockInv s)
    (hs : ClockInv s) (h : step s a = some s') : ClockInv s' := by
  cases a with
  | tick us =>
    obtain rfl := Option.some.inj h
    have hlater : s.mono_s ≤ Firmware.mono_s { s with clock_us := s.clock_us + us } := by
      show ((s.clock_us / 1000000 : Nat) : Int) ≤ ((s.clock_us + us) / 1000000 : Nat)
      omega
    exact ⟨Int.le_trans hs.ticked hlater,
      ⟨fun t ht => ⟨(hs.task.bounds t ht).1, Int.le_trans (hs.task.bounds t ht).2 hlater⟩,
        hs.task.waiting⟩,
      fun c t ht => ⟨(hs.caller c t ht).1, Int.le_trans (hs.caller c t ht).2 hlater⟩⟩
  | disturb level =>
    obtain rfl := Option.some.inj h
    exact ⟨hs.ticked, ⟨hs.task.bounds, hs.task.waiting⟩, hs.caller⟩
  | task act => exact (task_step_inv h).clockInv hlock hs
  | manual c act => exact (manual_step_inv h).clockInv hok hlock hs
  | settings c act => exact (settings_step_inv h).clockInv hs

/-! ## Decisions in order -/

theorem decide_events_mono (st : CtlState) (now_s : Int) (r : CtlResult)
    (detail : Option CStr) : ∀ e ∈ decide_events st now_s r detail, e.mono_s = now_s := by
  intro e he
  rw [decide_events, List.mem_append, List.mem_append] at he
  rcases he with (he | he) | he
  · unfold sensor_events at he
    split at he
    · rw [List.mem_singleton] at he
      exact he ▸ rfl
    · simp at he
  · unfold overheat_events at he
    split at he
    · rw [List.mem_singleton] at he
      exact he ▸ rfl
    · simp at he
  · unfold pump_events at he
    split at he
    · rw [List.mem_singleton] at he
      exact he ▸ rfl
    · split at he
      · rw [List.mem_singleton] at he
        exact he ▸ rfl
      · simp at he

/-- The step decides at `t`: with the timestamp of the one inside, which all
    its events have. -/
structure Decides (s : Firmware) (a : Label) (s' : Firmware) (t : Tick) : Prop where
  tick : decide_tick s a = some t
  stamp : s.task.stamp = some t.now_s ∨ ∃ c, (s.callers c).stamp = some t.now_s
  last : s'.dev.s_last_tick_s = t.now_s
  events : ∀ e ∈ step_events s a, e.mono_s = t.now_s

/-- The step decides nothing. -/
structure NoDecision (s : Firmware) (a : Label) (s' : Firmware) : Prop where
  tick : decide_tick s a = none := by rfl
  last : s'.dev.s_last_tick_s = s.dev.s_last_tick_s := by rfl
  events : step_events s a = [] := by rfl

theorem TaskStep.decides {s s' : Firmware} {act : TaskAct} (h : TaskStep s act s') :
    NoDecision s (.task act) s' ∨ ∃ t, Decides s (.task act) s' t := by
  cases h with
  | decide now_s rd r wall pc =>
    have htick : decide_tick s (.task (.decide wall)) = some ⟨now_s, wall.day,
        (ctl_decide s.dev.s_state (config_from_settings s.s_settings) now_s r).1.on⟩ := by
      simp only [decide_tick, pc]
    refine Or.inr ⟨_, htick, Or.inl (by rw [pc]; rfl), ?_, ?_⟩
    · exact decide_locked_last_tick s.dev s.s_settings wall now_s r none
    · simp only [step_events, pc]
      exact decide_events_mono _ now_s _ none
  | sensor now_s smp pc =>
    have hlast : (s.task_sensor now_s smp).dev.s_last_tick_s = s.dev.s_last_tick_s := by
      show (iteration_sensor s.dev now_s _).1.s_last_tick_s = s.dev.s_last_tick_s
      rw [iteration_sensor_device]
    exact Or.inl { last := hlast }
  | start pc =>
    have hdev := (task_start_outside pc).dev
    exact Or.inl { last := congrArg Device.s_last_tick_s hdev }
  | history it on pc =>
    have hdev := (task_history_outside pc).dev
    exact Or.inl { last := congrArg Device.s_last_tick_s hdev }
  | sample _ _ | lock _ _ _ _ | relay _ _ | unlock _ _ => exact Or.inl {}

theorem ManualStep.decides {s s' : Firmware} {c : Nat} {act : ManualAct}
    (h : ManualStep s c act s') :
    NoDecision s (.manual c act) s' ∨ ∃ t, Decides s (.manual c act) s' t := by
  cases h with
  | decide q now_s wall pc =>
    have htick : decide_tick s (.manual c (.decide wall)) = some ⟨now_s, wall.day,
        (ctl_decide s.dev.s_state (config_from_settings s.s_settings) now_s {}).1.on⟩ := by
      simp only [decide_tick, pc]
    refine Or.inr ⟨_, htick, Or.inr ⟨c, by rw [pc]; rfl⟩, ?_, ?_⟩
    · exact decide_locked_last_tick s.dev s.s_settings wall now_s {} (some q.detail)
    · simp only [step_events, pc]
      exact decide_events_mono _ now_s _ (some q.detail)
  | call _ _ | lock _ _ _ | accept _ _ _ _ | reject _ _ _ | unlock _ _ | refuse _ _ _ | leave _ _ =>
    exact Or.inl {}

/-- A step decides, or it has nothing to do with decisions. -/
theorem step_decides {s s' : Firmware} {a : Label} (h : step s a = some s') :
    NoDecision s a s' ∨ ∃ t, Decides s a s' t := by
  cases a with
  | tick _ | disturb _ =>
    obtain rfl := Option.some.inj h
    exact Or.inl {}
  | task act => exact (task_step_inv h).decides
  | manual c act => exact (manual_step_inv h).decides
  | settings c act =>
    have hdev := (settings_step_inv h).outside.dev
    exact Or.inl { last := congrArg Device.s_last_tick_s hdev }

/-- The timestamp of the one inside is not older than the last tick. -/
theorem ClockInv.last_le {s s' : Firmware} {a : Label} {t : Tick} (h : ClockInv s)
    (ht : Decides s a s' t) : s.dev.s_last_tick_s ≤ t.now_s := by
  rcases ht.stamp with htask | ⟨c, hcaller⟩
  · exact (h.task.bounds t.now_s htask).1
  · exact (h.caller c t.now_s hcaller).1

/-- In order, and none later than `b`. -/
structure UpTo (l : List Int) (b : Int) : Prop where
  sorted : l.Pairwise (· ≤ ·)
  le : ∀ x ∈ l, x ≤ b

theorem upTo_nil (b : Int) : UpTo [] b := ⟨List.Pairwise.nil, fun _ hx => absurd hx List.not_mem_nil⟩

/-- The order goes on with elements at a new bound. -/
theorem UpTo.append {l l' : List Int} {b b' : Int} (h : UpTo l b) (hb : b ≤ b')
    (hl' : ∀ x ∈ l', x = b') : UpTo (l ++ l') b' := by
  have hle : ∀ x ∈ l, x ≤ b' := fun x hx => Int.le_trans (h.le x hx) hb
  refine ⟨?_, ?_⟩
  · rw [List.pairwise_append]
    refine ⟨h.sorted, ?_, ?_⟩
    · rw [List.eq_replicate_of_mem hl']
      exact List.pairwise_replicate.mpr (Or.inr (Int.le_refl b'))
    · intro x hx y hy
      rw [hl' y hy]
      exact hle x hx
  · intro x hx
    rcases List.mem_append.mp hx with hx | hx
    · exact hle x hx
    · exact Int.le_of_eq (hl' x hx)

/-- The decisions and the events so far are in order, up to the last tick. -/
structure Ordered (ticks : List Tick) (s : Firmware) : Prop where
  lock : LockInv s
  clock : ClockInv s
  decisions : UpTo (ticks.map Tick.now_s) s.dev.s_last_tick_s
  events : UpTo (s.dev.events.notified.map Event.mono_s) s.dev.s_last_tick_s

theorem ordered_boot (nvs : NvsBlob) (clock_us : Nat) : Ordered [] (boot nvs clock_us) :=
  ⟨lockInv_boot nvs clock_us, clockInv_boot nvs clock_us, upTo_nil _, upTo_nil _⟩

theorem ordered_step {ticks : List Tick} {s s' : Firmware} {a : Label} (hok : Timely s a)
    (h : Ordered ticks s) (hstep : step s a = some s') :
    Ordered (ticks ++ (decide_tick s a).toList) s' := by
  have hlock := lockInv_step s a s' h.lock hstep
  have hclock := clockInv_step hok h.lock h.clock hstep
  refine ⟨hlock, hclock, ?_, ?_⟩
  · rcases step_decides hstep with hnone | ⟨t, ht⟩
    · rw [hnone.tick, hnone.last, Option.toList_none, List.append_nil]
      exact h.decisions
    · rw [ht.tick, ht.last, Option.toList_some, List.map_append]
      exact h.decisions.append (h.clock.last_le ht) (by simp)
  · rw [step_notified hstep, List.map_append]
    rcases step_decides hstep with hnone | ⟨t, ht⟩
    · rw [hnone.events, hnone.last, List.map_nil, List.append_nil]
      exact h.events
    · rw [ht.last]
      refine h.events.append (h.clock.last_le ht) ?_
      intro x hx
      obtain ⟨e, he, rfl⟩ := List.mem_map.mp hx
      exact ht.events e he

theorem firmware_ordered {nvs : NvsBlob} {clock_us : Nat} {acts : List Label} {s : Firmware}
    (h : firmware.exec (boot nvs clock_us) acts = some s)
    (hok : firmware.Steps Timely (boot nvs clock_us) acts) :
    Ordered (firmware_ticks nvs clock_us acts) s := by
  have hinv := trace_invariant (P := Ordered)
    (fun _ _ _ _ hok hs hstep => ordered_step hok hs hstep) (ordered_boot nvs clock_us) h hok
  rwa [List.nil_append] at hinv

/-! ## Runtime without a wrap -/

theorem sorted_past {past more : List Tick}
    (h : ((past ++ more).map Tick.now_s).Pairwise (· ≤ ·)) :
    (past.map Tick.now_s).Pairwise (· ≤ ·) :=
  List.Pairwise.sublist ((List.sublist_append_left past more).map _) h

/-- In order, no call takes time back. -/
theorem seconds_nonneg {past : List Tick} {t : Tick}
    (h : ((past ++ [t]).map Tick.now_s).Pairwise (· ≤ ·)) : 0 ≤ t.seconds past := by
  rw [List.map_append, List.pairwise_append] at h
  unfold Tick.seconds
  cases hlast : last_tick past with
  | none => exact Int.le_refl 0
  | some last =>
    have hmem : last ∈ past := List.mem_of_getLast? (Option.eq_some_of_filter_eq_some hlast)
    have hle : last.now_s ≤ t.now_s :=
      h.2.2 _ (List.mem_map_of_mem hmem) _ (List.mem_singleton.mpr rfl)
    show 0 ≤ if last.on then t.now_s - last.now_s else 0
    split
    · omega
    · exact Int.le_refl 0

/-- In order, the runtime only grows. -/
theorem runtime_s_mono {ticks more : List Tick}
    (h : ((ticks ++ more).map Tick.now_s).Pairwise (· ≤ ·)) :
    runtime_s (counts ticks) ≤ runtime_s (counts (ticks ++ more)) := by
  induction more using List.reverseRecOn with
  | nil => exact Int.le_of_eq (by rw [List.append_nil])
  | append_singleton more t ih =>
    rw [← List.append_assoc] at h ⊢
    have hpast := ih (sorted_past h)
    have hlast := seconds_nonneg h
    rw [counts_concat, runtime_s_concat]
    show _ ≤ _ + t.seconds (ticks ++ more)
    omega

theorem runtime_s_nonneg {ticks : List Tick} (h : (ticks.map Tick.now_s).Pairwise (· ≤ ·)) :
    0 ≤ runtime_s (counts ticks) := by
  have hgrows : runtime_s (counts []) ≤ runtime_s (counts ([] ++ ticks)) := runtime_s_mono h
  exact hgrows

/-- A non-negative number of seconds short of 2^32 survives the cast. -/
theorem uint32_ofInt_toNat {x : Int} (h : 0 ≤ x) (hx : x < 4294967296) :
    ((UInt32.ofInt x).toNat : Int) = x := by
  obtain ⟨n, rfl⟩ := Int.eq_ofNat_of_zero_le h
  have hn : n < 4294967296 := by omega
  simp [UInt32.ofInt]
  omega

/-- **Time never runs backwards under the lock**, in every run in which no
    accepted command overtakes the waiting control task with a later second.
    The calls of `decide_locked` get non-decreasing timestamps; what they add
    to the runtime is the time that has passed, and `s_runtime_boot_s` never
    decreases, short of 2^32 s of real runtime; and the events are published
    in the order of their timestamps. -/
theorem time_in_order (nvs : NvsBlob) (clock_us : Nat) (acts : List Label) (s : Firmware)
    (h : firmware.exec (boot nvs clock_us) acts = some s)
    (hok : firmware.Steps Timely (boot nvs clock_us) acts) :
    ((firmware_ticks nvs clock_us acts).map Tick.now_s).Pairwise (· ≤ ·) ∧
      (s.dev.events.notified.map Event.mono_s).Pairwise (· ≤ ·) ∧
      (runtime_s (counts (firmware_ticks nvs clock_us acts)) < 4294967296 →
        (∀ pre a post s₁ t, acts = pre ++ a :: post →
          firmware.exec (boot nvs clock_us) pre = some s₁ → decide_tick s₁ a = some t →
          0 ≤ t.seconds (firmware_ticks nvs clock_us pre) ∧
          ((elapsed s₁.dev t.now_s).toNat : Int) = t.seconds (firmware_ticks nvs clock_us pre)) ∧
        ∀ pre more s₁, acts = pre ++ more →
          firmware.exec (boot nvs clock_us) pre = some s₁ →
          s₁.dev.s_runtime_boot_s ≤ s.dev.s_runtime_boot_s) := by
  have hordered := firmware_ordered h hok
  refine ⟨hordered.decisions.sorted, hordered.events.sorted, ?_⟩
  intro hshort
  have hsorted := hordered.decisions.sorted
  refine ⟨?_, ?_⟩
  · intro pre a post s₁ t hacts hpre ht
    obtain ⟨rest, hticks⟩ : ∃ rest, firmware.trace decide_tick (boot nvs clock_us) (pre ++ a :: post) =
        firmware_ticks nvs clock_us pre ++ (decide_tick s₁ a).toList ++ rest := trace_cut hpre a post
    rw [ht, Option.toList_some] at hticks
    rw [firmware_ticks, hacts, hticks] at hsorted hshort
    have hmono := runtime_s_mono hsorted
    have hpast := sorted_past hsorted
    have hnonneg := seconds_nonneg hpast
    have hbefore := runtime_s_nonneg (sorted_past hpast)
    rw [counts_concat, runtime_s_concat] at hmono
    change _ + t.seconds (firmware_ticks nvs clock_us pre) ≤ _ at hmono
    refine ⟨hnonneg, ?_⟩
    rw [(firmware_account hpre).elapsed t]
    exact uint32_ofInt_toNat hnonneg (by omega)
  · intro pre more s₁ hacts hpre
    have hticks : firmware_ticks nvs clock_us acts =
        firmware_ticks nvs clock_us pre ++ firmware.trace decide_tick s₁ more := by
      rw [firmware_ticks, hacts, trace_append hpre, firmware_ticks]
    rw [(firmware_account h).runtime_boot, (firmware_account hpre).runtime_boot,
      UInt32.le_iff_toNat_le]
    rw [hticks] at hsorted hshort ⊢
    have hmono := runtime_s_mono hsorted
    have hnonneg := runtime_s_nonneg (sorted_past hsorted)
    have hsmall := uint32_ofInt_toNat hnonneg (by omega)
    have hlarge := uint32_ofInt_toNat (Int.le_trans hnonneg hmono) hshort
    omega

/-- An iteration reads the clock at 9 s; a start is given and decided at 10 s
    while it waits for the lock. -/
def overtaken_labels : List Label :=
  [.task .start, .task (.sample ⟨true, 450⟩), .tick 1000000] ++
    command_labels 0 ⟨⟨.start, 600, "admin".toList⟩, 10, default_settings, ⟨false, 0⟩⟩ ++
    [.task .lock, .task .sensor, .task (.decide ⟨false, 0⟩), .task .relay,
      .task (.unlock ⟨9, some ⟨default_settings, true, 450⟩, default_settings, ⟨false, 0⟩⟩)]

/-- The next iteration, at 12 s. -/
def next_labels : List Label :=
  [.task .history, .tick 2000000, .task .start, .task .lock, .task .sensor,
    .task (.decide ⟨false, 0⟩), .task .relay,
    .task (.unlock ⟨12, none, default_settings, ⟨false, 0⟩⟩)]

/-- The decision of the iteration goes back from 10 s to 9 s: the runtime
    wraps to 2^32 - 1 s, its event comes after a later one, and at the next
    release the runtime has decreased to 2 s. -/
theorem time_runs_backwards :
    ∃ s₁ s₂, firmware.exec (boot .missing 9000000) overtaken_labels = some s₁ ∧
      firmware.exec s₁ next_labels = some s₂ ∧ s₁.s_lock = none ∧ s₂.s_lock = none ∧
      (firmware_ticks .missing 9000000 (overtaken_labels ++ next_labels)).map Tick.now_s =
        [10, 9, 12] ∧
      s₁.dev.s_runtime_boot_s = 4294967295 ∧ s₂.dev.s_runtime_boot_s = 2 ∧
      s₁.dev.events.notified.map Event.mono_s = [10, 9] ∧
      ¬ ((firmware_ticks .missing 9000000 (overtaken_labels ++ next_labels)).map
        Tick.now_s).Pairwise (· ≤ ·) := by
  have htimes : (firmware_ticks .missing 9000000 (overtaken_labels ++ next_labels)).map
      Tick.now_s = [10, 9, 12] := rfl
  refine ⟨_, _, rfl, rfl, rfl, rfl, htimes, rfl, rfl, rfl, ?_⟩
  rw [htimes]
  decide

/-- The same start without the tick in between, in two parts around its
    acceptance; then the decision of the task that has waited, and the next
    iteration. -/
def waiting_labels : List Label :=
  [.task .start, .task (.sample ⟨true, 450⟩), .manual 0 (.call ⟨.start, 600, "admin".toList⟩),
    .manual 0 .lock]

def decided_labels : List Label :=
  [.manual 0 (.decide ⟨false, 0⟩),
    .manual 0 (.unlock ⟨⟨.start, 600, "admin".toList⟩, 9, default_settings, ⟨false, 0⟩⟩),
    .manual 0 .leave, .task .lock, .task .sensor, .task (.decide ⟨false, 0⟩), .task .relay,
    .task (.unlock ⟨9, some ⟨default_settings, true, 450⟩, default_settings, ⟨false, 0⟩⟩),
    .task .history, .tick 2000000, .task .start, .task .lock, .task .sensor,
    .task (.decide ⟨false, 0⟩), .task .relay,
    .task (.unlock ⟨11, none, default_settings, ⟨false, 0⟩⟩)]

/-- A start in the same second does not overtake the task. -/
theorem time_in_order_same_second :
    ∃ s, firmware.exec (boot .missing 9000000)
        (waiting_labels ++ .manual 0 .apply :: decided_labels) = some s ∧
      (firmware_ticks .missing 9000000
        (waiting_labels ++ .manual 0 .apply :: decided_labels)).map Tick.now_s = [9, 9, 11] ∧
      ([9, 9, 11] : List Int).Pairwise (· ≤ ·) ∧
      (s.dev.events.notified.map Event.mono_s).Pairwise (· ≤ ·) := by
  have hok : firmware.Steps Timely (boot .missing 9000000)
      (waiting_labels ++ .manual 0 .apply :: decided_labels) := by
    refine steps_append (steps_of_forall ?_ _) rfl ⟨?_, fun s' _ => steps_of_forall ?_ s'⟩
    · intro a ha s
      simp only [waiting_labels, List.mem_cons, List.not_mem_nil, or_false] at ha
      rcases ha with rfl | rfl | rfl | rfl <;> trivial
    · -- the task waits with 9 s, and the clock is still there
      intro now_s smp q st hready _ _
      cases hready
      decide
    · intro a ha s
      simp only [decided_labels, List.mem_cons, List.not_mem_nil, or_false] at ha
      rcases ha with rfl | rfl | rfl | rfl | rfl | rfl | rfl | rfl | rfl | rfl | rfl | rfl | rfl |
        rfl | rfl | rfl <;> trivial
  have hticks : (firmware_ticks .missing 9000000
      (waiting_labels ++ .manual 0 .apply :: decided_labels)).map Tick.now_s = [9, 9, 11] := rfl
  obtain ⟨s, hexec⟩ : ∃ s, firmware.exec (boot .missing 9000000)
      (waiting_labels ++ .manual 0 .apply :: decided_labels) = some s := ⟨_, rfl⟩
  obtain ⟨hdecisions, hevents, -⟩ := time_in_order .missing 9000000 _ s hexec hok
  rw [hticks] at hdecisions
  exact ⟨s, hexec, hticks, hdecisions, hevents⟩

end FloorHeating
