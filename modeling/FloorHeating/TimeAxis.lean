import FloorHeating.HistoryDocument
import FloorHeating.Firmware
import FloorHeating.Lib.Periodic

/-! # The time axis of the history

    The history document has no time for each sample: it gives the time of
    the newest, and the app counts back from there by whole minutes (`ageOf`).
    `control_task` takes a sample at the first read at or after
    `next_history_s`, and sets the next one a minute after that read, not
    after the time it was due: a sample that is late makes all later ones
    late.

    So the axis is right as long as every sample is recorded in the minute
    right after that of the sample before it, the minutes being those of one
    clock: a late second must not carry a sample over a full minute of it. -/

namespace FloorHeating

open LTS Periodic

/-! ## Samples and the times the app gives them -/

/-- The sample this step takes, if it takes one. -/
def taken (s : Firmware) : Label → Option Add
  | .task .history => match s.task with
    | .released it on => match it.read with
      | some rd =>
        if it.now_s ≥ s.next_history_s then some ⟨rd.valid, rd.temp_x10, on, s.mono_s⟩ else none
      | none => none
    | _ => none
  | _ => none

/-- All samples of a run. -/
def firmware_taken (nvs : NvsBlob) (clock_us : Nat) (acts : List Label) : List Add :=
  firmware.trace taken (boot nvs clock_us) acts

/-- The samples of a copy. -/
def kept (ts : List Add) : List Add := ts.rtake HISTORY_SAMPLES

/-- The app's `ageOf`: `newest_age_s + (n - 1 - i) * period_s`. -/
def ageOf (newest_age_s : Int) (n i : Nat) : Int :=
  newest_age_s + ((n : Int) - 1 - i) * HISTORY_PERIOD_S

/-- The time of sample `i` of `n` on the axis. -/
def assigned_s (newest_mono_s : Int) (n i : Nat) : Int :=
  newest_mono_s - ((n : Int) - 1 - i) * HISTORY_PERIOD_S

/-- It is what the app's age comes to, whenever the document is made. -/
theorem ageOf_assigned (now_s newest_mono_s : Int) (n i : Nat) :
    now_s - ageOf (now_s - newest_mono_s) n i = assigned_s newest_mono_s n i := by
  unfold ageOf assigned_s
  omega

/-- Every returned sample was recorded that close to its time on the axis. -/
def AxisWithin (error_s : Int) (copy : HistoryCopy) (samples : List Add) : Prop :=
  ∀ i t, samples[i]? = some t →
    t.now - error_s ≤ assigned_s copy.newest_mono_s copy.temps.length i ∧
      assigned_s copy.newest_mono_s copy.temps.length i ≤ t.now + error_s

/-- Every returned sample was recorded within a minute of its time on the axis. -/
def OnAxis (copy : HistoryCopy) (samples : List Add) : Prop :=
  AxisWithin HISTORY_PERIOD_S copy samples

/-- The clock is in the minute right after that of the newest sample, where
    the step takes one that is not the first. -/
def InMinute (phase : Int) (s : Firmware) (a : Label) : Prop :=
  (taken s a).isSome → s.history.s_count = 0 ∨
    Next HISTORY_PERIOD_S phase s.history.s_newest_mono_s s.mono_s

/-! ## What the run leaves in the ring -/

/-- The step takes this sample. -/
structure Takes (s : Firmware) (a : Label) (s' : Firmware) (t : Add) : Prop where
  taken : taken s a = some t
  now : t.now = s.mono_s
  history : s'.history = history_add s.history t.valid t.temp_x10 t.pump_on t.now

/-- The step takes no sample. -/
structure NoSample (s : Firmware) (a : Label) (s' : Firmware) : Prop where
  taken : taken s a = none := by rfl
  history : s'.history = s.history := by rfl

theorem TaskStep.takes {s s' : Firmware} {act : TaskAct} (h : TaskStep s act s') :
    NoSample s (.task act) s' ∨ ∃ t, Takes s (.task act) s' t := by
  cases h with
  | start pc =>
    unfold Firmware.task_start
    split <;> exact Or.inl {}
  | sample _ _ | lock _ _ _ _ | sensor _ _ _ | decide _ _ _ _ _ | relay _ _ | unlock _ _ =>
    exact Or.inl {}
  | history it on pc =>
    cases hread : it.read with
    | none =>
      refine Or.inl ⟨?_, ?_⟩ <;> simp [taken, Firmware.task_history, pc, hread]
    | some rd =>
      by_cases hdue : it.now_s ≥ s.next_history_s
      · refine Or.inr ⟨⟨rd.valid, rd.temp_x10, on, s.mono_s⟩, ?_, rfl, ?_⟩ <;>
          simp [taken, Firmware.task_history, pc, hread, hdue]
      · refine Or.inl ⟨?_, ?_⟩ <;> simp [taken, Firmware.task_history, pc, hread, hdue]

theorem ManualStep.takes {s s' : Firmware} {c : Nat} {act : ManualAct}
    (h : ManualStep s c act s') : NoSample s (.manual c act) s' := by
  cases h <;> exact {}

theorem SetStep.takes {s s' : Firmware} {c : Nat} {act : SetAct} (h : SetStep s c act s') :
    NoSample s (.settings c act) s' := by
  cases h <;> exact {}

theorem step_takes {s s' : Firmware} {a : Label} (h : step s a = some s') :
    NoSample s a s' ∨ ∃ t, Takes s a s' t := by
  cases a with
  | tick _ | disturb _ =>
    obtain rfl := Option.some.inj h
    exact Or.inl {}
  | task act => exact (task_step_inv h).takes
  | manual c act => exact Or.inl (manual_step_inv h).takes
  | settings c act => exact Or.inl (settings_step_inv h).takes

/-- The ring goes on holding the samples. -/
theorem inRing_step {ts : List Add} {s s' : Firmware} {a : Label} (hs : s.history.InRing ts)
    (h : step s a = some s') : s'.history.InRing (ts ++ (taken s a).toList) := by
  rcases step_takes h with hno | ⟨t, htakes⟩
  · rw [hno.taken, Option.toList_none, List.append_nil, hno.history]
    exact hs
  · rw [htakes.taken, Option.toList_some, htakes.history]
    exact history_add_inRing hs t

theorem inRing_exec {ts : List Add} {s s' : Firmware} {acts : List Label}
    (hs : s.history.InRing ts) (h : firmware.exec s acts = some s') :
    s'.history.InRing (ts ++ firmware.trace taken s acts) :=
  trace_invariant (P := fun ts (s : Firmware) => s.history.InRing ts)
    (fun _ _ _ _ _ hs hstep => inRing_step hs hstep) hs h
    (steps_of_forall (fun _ _ _ => trivial) _ : firmware.Steps (fun _ _ => True) s acts)

/-- The ring at the end of a run. -/
theorem firmware_ring {nvs : NvsBlob} {clock_us : Nat} {acts : List Label} {s : Firmware}
    (h : firmware.exec (boot nvs clock_us) acts = some s) :
    s.history.InRing (firmware_taken nvs clock_us acts) :=
  inRing_exec (s := boot nvs clock_us) history_zero_inRing h

theorem kept_copy {h : History} {ts : List Add} (hs : h.InRing ts) :
    history_copy h HISTORY_SAMPLES =
      { temps := (kept ts).map Add.stored
        pump := (kept ts).map Add.pump_on
        newest_mono_s := (ts.getLast?.map Add.now).getD 0 } := hs.copy_all

/-! ## Samples on a grid of minutes -/

/-- When the latest sample before a stretch of a run and those of the stretch
    were recorded. -/
def stretch_times (before during : List Add) : List Int :=
  (before.getLast?.toList ++ during).map Add.now

/-- The steps of a stretch meet the condition exactly if its samples lie in
    one minute after the other. -/
theorem steps_inMinute_iff {phase : Int} {ts : List Add} {s s' : Firmware} {acts : List Label}
    (hs : s.history.InRing ts) (h : firmware.exec s acts = some s') :
    firmware.Steps (InMinute phase) s acts ↔
      OnGrid HISTORY_PERIOD_S phase (stretch_times ts (firmware.trace taken s acts)) := by
  induction acts generalizing s ts with
  | nil =>
    refine iff_of_true trivial ?_
    cases hlast : ts.getLast? <;> simp [stretch_times, OnGrid, System.trace, hlast]
  | cons a acts ih =>
    obtain ⟨s₁, hstep, hrest⟩ := Option.bind_eq_some_iff.mp h
    have hrest' := ih (inRing_step hs hstep) hrest
    have hsteps : firmware.Steps (InMinute phase) s (a :: acts) ↔
        InMinute phase s a ∧ firmware.Steps (InMinute phase) s₁ acts := by
      refine and_congr_right fun _ => ⟨fun hall => hall s₁ hstep, fun hall s₂ hs₂ => ?_⟩
      obtain rfl : s₁ = s₂ := Option.some.inj (hstep.symm.trans hs₂)
      exact hall
    have htrace : firmware.trace taken s (a :: acts) =
        (taken s a).toList ++ firmware.trace taken s₁ acts := by
      simp only [System.trace, hstep]
    rw [hsteps, hrest', htrace]
    rcases step_takes hstep with hno | ⟨t, htakes⟩
    · have hok : InMinute phase s a := by simp [InMinute, hno.taken]
      simp [hno.taken, hok]
    · have hcount := hs.ring.count_eq
      have hnewest := hs.newest
      simp only [htakes.taken, Option.toList_some, InMinute, Option.isSome_some, forall_true_left,
        stretch_times, List.getLast?_append, List.getLast?_singleton, Option.some_or,
        List.singleton_append, List.map_append, List.map_cons, ← htakes.now]
      cases hlast : ts.getLast? with
      | none =>
        -- the first sample of all
        obtain rfl := List.getLast?_eq_none_iff.mp hlast
        have hzero : s.history.s_count = 0 := by simpa using hcount
        simp [hzero]
      | some u =>
        have hsome : s.history.s_count ≠ 0 := by
          have hpos : 0 < ts.length := List.length_pos_of_ne_nil (by rintro rfl; simp at hlast)
          have hsize := HISTORY_SAMPLES_pos
          rw [List.length_map] at hcount
          omega
        have hnewest' : s.history.s_newest_mono_s = u.now := by rw [hnewest, hlast]; rfl
        simp [OnGrid, hsome, hnewest']

theorem kept_getLast? (ts : List Add) : (kept ts).getLast? = ts.getLast? := by
  have hpos := HISTORY_SAMPLES_pos
  rw [kept, List.rtake, List.getLast?_drop]
  split
  · rename_i hshort
    obtain rfl : ts = [] := List.eq_nil_of_length_eq_zero (by omega)
    rfl
  · rfl

/-- A sample is within a minute of its time on the axis if it keeps to the
    minutes up to the newest one. -/
theorem axisWithin_iff {h : History} {ts : List Add} (hs : h.InRing ts) :
    AxisWithin (HISTORY_PERIOD_S - 1) (history_copy h HISTORY_SAMPLES) (kept ts) ↔
      ∀ i n t u, (kept ts)[i]? = some t → i + n + 1 = (kept ts).length →
        (kept ts).getLast? = some u → Keeps HISTORY_PERIOD_S n t.now u.now := by
  rw [kept_copy hs]
  unfold AxisWithin assigned_s Keeps
  simp only [kept_getLast?, List.length_map, abs_lt, HISTORY_PERIOD_S]
  constructor
  · intro haxis i n t u ht hlen hlast
    have hi := haxis i t ht
    rw [hlast, Option.map_some, Option.getD_some, ← hlen] at hi
    push_cast at hi
    constructor <;> omega
  · intro hkeeps i t ht
    obtain ⟨hlt, -⟩ := List.getElem?_eq_some_iff.mp ht
    obtain ⟨n, hn⟩ := Nat.le.dest (Nat.succ_le_of_lt hlt)
    obtain ⟨u, hlast⟩ : ∃ u, ts.getLast? = some u := by
      rw [← kept_getLast?]
      exact ⟨_, List.getLast?_eq_some_getLast (List.ne_nil_of_length_pos (by omega))⟩
    have hi := hkeeps i n t u ht (by omega) hlast
    rw [hlast, Option.map_some, Option.getD_some, ← hn]
    push_cast
    constructor <;> omega

/-- The samples of a stretch, and the one before them, are the latest ones. -/
theorem stretch_suffix (before during : List Add) :
    before.getLast?.toList ++ during <:+ before ++ during := by
  rcases before.eq_nil_or_concat with rfl | ⟨init, last, rfl⟩
  · simp
  · exact ⟨init, by simp⟩

/-- Samples that lie in one minute after the other are on the axis, once they
    are all that is kept. -/
theorem axisWithin_of_onGrid {phase : Int} {h : History} {before during : List Add}
    (hs : h.InRing (before ++ during))
    (hgrid : OnGrid HISTORY_PERIOD_S phase (stretch_times before during))
    (hlen : (kept (before ++ during)).length ≤ during.length + 1) :
    AxisWithin (HISTORY_PERIOD_S - 1) (history_copy h HISTORY_SAMPLES)
      (kept (before ++ during)) := by
  rw [axisWithin_iff hs]
  intro i n t u ht hn hlast
  -- what is kept is a stretch of the grid
  have hsuffix : kept (before ++ during) <:+ before.getLast?.toList ++ during := by
    refine List.suffix_of_suffix_length_le (List.drop_suffix _ _) (stretch_suffix _ _) ?_
    rcases before.eq_nil_or_concat with rfl | ⟨init, last, rfl⟩
    · simp [kept, List.rtake]
    · simp at hlen ⊢
      omega
  obtain ⟨front, hfront⟩ := hsuffix
  have hget : ∀ j x, (kept (before ++ during))[j]? = some x →
      (stretch_times before during)[front.length + j]? = some x.now := by
    intro j x hx
    rw [stretch_times, ← hfront, List.getElem?_map, List.getElem?_append_right (by omega)]
    simp [hx]
  have hu : (kept (before ++ during))[i + n]? = some u := by
    rw [← hlast, List.getLast?_eq_getElem?, show i + n = (kept (before ++ during)).length - 1 by
      omega]
  have hu' := hget (i + n) u hu
  rw [← Nat.add_assoc] at hu'
  exact keeps_of_slot (by decide) (hgrid.slot_eq (hget i t ht) hu')

/-- In particular all the samples there are. -/
theorem onAxis_of_onGrid {phase : Int} {h : History} {ts : List Add} (hs : h.InRing ts)
    (hgrid : OnGrid HISTORY_PERIOD_S phase (ts.map Add.now)) :
    OnAxis (history_copy h HISTORY_SAMPLES) (kept ts) := by
  have hlen : (kept ([] ++ ts)).length ≤ ts.length + 1 := by
    rw [List.nil_append, kept, List.rtake, List.length_drop]
    omega
  intro i t ht
  have haxis := axisWithin_of_onGrid (show h.InRing ([] ++ ts) from hs) hgrid hlen i t ht
  constructor <;> omega

/-- If the latest of the samples is within a minute of the ones before it, it
    keeps to the minutes with every one of the stretch. -/
theorem keeps_newest {h : History} {before during : List Add} {t : Add}
    (hs : h.InRing (before ++ (during ++ [t]))) (hlen : (during ++ [t]).length < HISTORY_SAMPLES)
    (haxis : AxisWithin (HISTORY_PERIOD_S - 1) (history_copy h HISTORY_SAMPLES)
      (kept (before ++ (during ++ [t])))) {i n : Nat} {a : Int}
    (ha : (stretch_times before (during ++ [t]))[i]? = some a)
    (hn : i + n + 1 = (stretch_times before (during ++ [t])).length) :
    Keeps HISTORY_PERIOD_S n a t.now := by
  have hsuffix : before.getLast?.toList ++ (during ++ [t]) <:+
      kept (before ++ (during ++ [t])) := by
    refine List.suffix_of_suffix_length_le (stretch_suffix _ _) (List.drop_suffix _ _) ?_
    have hle := (stretch_suffix before (during ++ [t])).length_le
    have hone : before.getLast?.toList.length ≤ 1 := Option.length_toList_le
    simp only [kept, List.rtake, List.length_drop, List.length_append] at hle hlen ⊢
    omega
  obtain ⟨front, hfront⟩ := hsuffix
  rw [axisWithin_iff hs, ← hfront] at haxis
  rw [stretch_times, List.getElem?_map] at ha
  obtain ⟨x, hx, rfl⟩ := Option.map_eq_some_iff.mp ha
  refine haxis (front.length + i) n x t ?_ ?_ ?_
  · rw [List.getElem?_append_right (by omega)]
    simpa using hx
  · rw [stretch_times, List.length_map] at hn
    rw [List.length_append, ← hn]
    omega
  · simp

/-- Times that were on the axis when the latest of them was recorded, one after
    the other, keep to the minutes. -/
theorem keeps_of_axisWithin {before : List Add} {s s' : Firmware} {acts : List Label}
    (hs : s.history.InRing before) (h : firmware.exec s acts = some s')
    (hlen : (firmware.trace taken s acts).length < HISTORY_SAMPLES)
    (haxis : ∀ past rest s₁, acts = past ++ rest → firmware.exec s past = some s₁ →
      AxisWithin (HISTORY_PERIOD_S - 1) (history_copy s₁.history HISTORY_SAMPLES)
        (kept (before ++ firmware.trace taken s past))) :
    KeepsAll HISTORY_PERIOD_S (stretch_times before (firmware.trace taken s acts)) := by
  induction acts using List.reverseRecOn generalizing s' with
  | nil =>
    refine keepsAll_of_length_le (by decide) ?_
    cases hlast : before.getLast? <;> simp [stretch_times, System.trace, hlast]
  | append_singleton acts act ih =>
    have hexec := h
    rw [exec_append] at h
    obtain ⟨s₁, hpast, -⟩ := Option.bind_eq_some_iff.mp h
    have htrace : firmware.trace taken s (acts ++ [act]) =
        firmware.trace taken s acts ++ (taken s₁ act).toList := trace_concat hpast act
    have hlen' : (firmware.trace taken s acts).length < HISTORY_SAMPLES := by
      rw [htrace, List.length_append] at hlen
      omega
    have hbefore := ih hpast hlen' fun past rest s₂ hsplit =>
      haxis past (rest ++ [act]) s₂ (by rw [hsplit, List.append_assoc])
    cases htaken : taken s₁ act with
    | none =>
      rw [htrace, htaken, Option.toList_none, List.append_nil]
      exact hbefore
    | some t =>
      -- the sample of the last step, which the axis of its state is counted from
      have hlast := haxis (acts ++ [act]) [] s' (List.append_nil _).symm hexec
      have hring := inRing_exec hs hexec
      rw [htrace, htaken, Option.toList_some] at hlen hlast hring ⊢
      have htimes : stretch_times before (firmware.trace taken s acts ++ [t]) =
          stretch_times before (firmware.trace taken s acts) ++ [t.now] := by
        simp [stretch_times]
      rw [htimes]
      refine hbefore.concat ?_
      rw [← htimes]
      exact fun i n a ha hn => keeps_newest hring hlen hlast ha hn

/-! ## Iterations that nothing interferes with -/

/-- A start of an iteration, and the end of its read, at the clock in
    microseconds. -/
inductive Mark where
  | start (us : Nat)
  | sampled (us : Nat)
  deriving DecidableEq, Repr

def Mark.started : Mark → Option Nat
  | .start us => some us
  | .sampled _ => none

/-- The mark a step makes. -/
def mark (s : Firmware) : Label → Option Mark
  | .task .start => some (.start s.clock_us)
  | .task (.sample _) => some (.sampled s.clock_us)
  | _ => none

/-- Iterations start at most 2 s apart, and a read takes at most 1 s. -/
structure WithinLimits (marks : List Mark) : Prop where
  starts : (marks.filterMap Mark.started).IsChain fun us us' => us' ≤ us + 2000000
  reads : marks.IsChain fun m m' =>
    ∀ us us', m = .start us → m' = .sampled us' → us' ≤ us + 1000000

/-- An iteration from the lock to the end of its wait of 1 s. -/
def locked_labels (it : Iteration) : List Label :=
  [.task .lock, .task .sensor, .task (.decide it.wall), .task .relay, .task (.unlock it),
    .task .history, .tick 1000000]

/-- One iteration that nothing interferes with: a read takes 760 ms, and the
    wait 1 s. -/
def round_labels (s : Firmware) : List Label :=
  if s.mono_s ≥ s.next_read_s then
    [.task .start, .tick 760000, .task (.sample ⟨true, 450⟩)] ++
      locked_labels ⟨((s.clock_us + 760000) / 1000000 : Nat),
        some ⟨s.s_settings, true, 450⟩, s.s_settings, ⟨false, 0⟩⟩
  else [.task .start] ++ locked_labels ⟨s.mono_s, none, s.s_settings, ⟨false, 0⟩⟩

/-- That many iterations. -/
def rounds_labels : Nat → Firmware → List Label
  | 0, _ => []
  | k + 1, s => round_labels s ++ match firmware.exec s (round_labels s) with
    | some s' => rounds_labels k s'
    | none => []

/-- The clock and the two deadlines of `control_task`. -/
structure Deadlines where
  clock_us : Nat
  next_read_s : Int
  next_history_s : Int
  deriving DecidableEq, Repr

def Firmware.deadlines (s : Firmware) : Deadlines := ⟨s.clock_us, s.next_read_s, s.next_history_s⟩

/-- The deadlines after such an iteration, and when it took a sample. -/
def Deadlines.round (d : Deadlines) : Deadlines × Option Int :=
  let start_s : Int := (d.clock_us / 1000000 : Nat)
  if start_s ≥ d.next_read_s then
    let now_s : Int := ((d.clock_us + 760000) / 1000000 : Nat)
    let due := d.next_history_s ≤ now_s
    (⟨d.clock_us + 760000 + 1000000, start_s + CONTROL_READ_PERIOD_S,
      if due then now_s + HISTORY_PERIOD_S else d.next_history_s⟩, if due then some now_s else none)
  else (⟨d.clock_us + 1000000, d.next_read_s, d.next_history_s⟩, none)

/-- The samples of that many iterations. -/
def Deadlines.samples : Nat → Deadlines → List Int
  | 0, _ => []
  | k + 1, d => d.round.2.toList ++ d.round.1.samples k

/-- What an iteration leaves from its lock on, and what is seen of it. -/
theorem locked_exec {s : Firmware} {now_s : Int} {smp : Option Sample}
    (hpc : s.task = .ready now_s smp) (hfree : s.s_lock = none) (wall : WallClock) :
    let it : Iteration := ⟨now_s, smp.map fun smp => ⟨s.s_settings, smp.valid, smp.temp_x10⟩,
      s.s_settings, wall⟩
    let due := smp.isSome ∧ s.next_history_s ≤ now_s
    ∃ s', firmware.exec s (locked_labels it) = some s' ∧ s'.task = .top ∧ s'.s_lock = none ∧
      s'.deadlines = ⟨s.clock_us + 1000000, s.next_read_s,
        if due then now_s + HISTORY_PERIOD_S else s.next_history_s⟩ ∧
      (firmware.trace taken s (locked_labels it)).map Add.now =
        (if due then [s.mono_s] else []) ∧
      firmware.trace mark s (locked_labels it) = [] := by
  cases smp with
  | none =>
    simp [locked_labels, System.exec, System.trace, firmware, step, task_step, hpc, hfree,
      Firmware.task_sensor, Firmware.task_decide, Firmware.task_unlock, Firmware.task_history,
      Firmware.deadlines, taken, mark]
  | some smp =>
    by_cases hdue : s.next_history_s ≤ now_s <;>
      simp [locked_labels, System.exec, System.trace, firmware, step, task_step, hpc, hfree,
        Firmware.task_sensor, Firmware.task_decide, Firmware.task_unlock, Firmware.task_history,
        Firmware.deadlines, Firmware.mono_s, taken, mark, hdue]

/-- What an iteration leaves, and what is seen of it. -/
structure RoundTo (s : Firmware) (s' : Firmware) : Prop where
  exec : firmware.exec s (round_labels s) = some s'
  task : s'.task = .top
  lock : s'.s_lock = none
  deadlines : s'.deadlines = s.deadlines.round.1
  samples : (firmware.trace taken s (round_labels s)).map Add.now =
    s.deadlines.round.2.toList
  marks : firmware.trace mark s (round_labels s) = [.start s.clock_us] ∨
    firmware.trace mark s (round_labels s) = [.start s.clock_us, .sampled (s.clock_us + 760000)]

/-- An iteration from what it does up to the lock. -/
theorem RoundTo.of_start {s : Firmware} (start : List Label) (s₁ : Firmware) {now_s : Int}
    {smp : Option Sample}
    (hlabels : round_labels s = start ++ locked_labels ⟨now_s,
      smp.map fun smp => ⟨s₁.s_settings, smp.valid, smp.temp_x10⟩, s₁.s_settings, ⟨false, 0⟩⟩)
    (hstart : firmware.exec s start = some s₁) (hpc : s₁.task = .ready now_s smp)
    (hfree : s₁.s_lock = none) (htaken : firmware.trace taken s start = [])
    (hmarks : firmware.trace mark s start = [.start s.clock_us] ∨
      firmware.trace mark s start = [.start s.clock_us, .sampled (s.clock_us + 760000)])
    (hround : s.deadlines.round = (⟨s₁.clock_us + 1000000, s₁.next_read_s,
        if smp.isSome ∧ s₁.next_history_s ≤ now_s then now_s + HISTORY_PERIOD_S
        else s₁.next_history_s⟩,
      if smp.isSome ∧ s₁.next_history_s ≤ now_s then some s₁.mono_s else none)) :
    ∃ s', RoundTo s s' := by
  obtain ⟨s', hexec, htask, hlock, hdeadlines, hsamples, hnone⟩ :=
    locked_exec hpc hfree ⟨false, 0⟩
  refine ⟨s', ?_, htask, hlock, ?_, ?_, ?_⟩
  · rw [hlabels, exec_append, hstart]
    exact hexec
  · rw [hdeadlines, hround]
  · rw [hlabels, trace_append hstart, htaken, List.nil_append, hsamples, hround]
    split <;> rfl
  · rw [hlabels, trace_append hstart, hnone, List.append_nil]
    exact hmarks

theorem round_exec {s : Firmware} (hpc : s.task = .top) (hfree : s.s_lock = none) :
    ∃ s', RoundTo s s' := by
  by_cases hread : s.mono_s ≥ s.next_read_s
  · -- the timestamp is that of the end of the read
    have hbegin : s.task_start =
        { s with task := .reading, next_read_s := s.mono_s + CONTROL_READ_PERIOD_S } :=
      if_pos hread
    let s₁ : Firmware := { s with
      clock_us := s.clock_us + 760000
      next_read_s := s.mono_s + CONTROL_READ_PERIOD_S
      task := .ready ((s.clock_us + 760000) / 1000000 : Nat) (some ⟨true, 450⟩) }
    have hpc₁ : s₁.task = .ready ((s.clock_us + 760000) / 1000000 : Nat) (some ⟨true, 450⟩) := rfl
    have hlabels : round_labels s = [.task .start, .tick 760000, .task (.sample ⟨true, 450⟩)] ++
        locked_labels ⟨((s.clock_us + 760000) / 1000000 : Nat), some ⟨s₁.s_settings, true, 450⟩,
          s₁.s_settings, ⟨false, 0⟩⟩ := if_pos hread
    refine RoundTo.of_start _ s₁ hlabels ?_ hpc₁ hfree ?_ (Or.inr ?_) ?_
    · simp [System.exec, firmware, step, task_step, hpc, hbegin, Firmware.mono_s, s₁]
    · simp [System.trace, firmware, step, task_step, hpc, hbegin, taken]
    · simp [System.trace, firmware, step, task_step, hpc, hbegin, mark]
    · refine (if_pos hread).trans ?_
      simp [Firmware.deadlines, Firmware.mono_s, s₁]
  · have hbegin : s.task_start = { s with task := .ready s.mono_s none } := if_neg hread
    let s₁ : Firmware := { s with task := .ready s.mono_s none }
    have hpc₁ : s₁.task = .ready s.mono_s none := rfl
    have hlabels : round_labels s = [.task .start] ++
        locked_labels ⟨s.mono_s, none, s₁.s_settings, ⟨false, 0⟩⟩ := if_neg hread
    refine RoundTo.of_start _ s₁ hlabels ?_ hpc₁ hfree ?_ (Or.inl ?_) ?_
    · simp [System.exec, firmware, step, task_step, hpc, hbegin, s₁]
    · simp [System.trace, firmware, step, task_step, hpc, taken]
    · simp [System.trace, firmware, step, task_step, hpc, mark]
    · refine (if_neg hread).trans ?_
      simp [Firmware.deadlines, s₁]

/-- What that many iterations come to. -/
structure RoundsTo (k : Nat) (s s' : Firmware) : Prop where
  exec : firmware.exec s (rounds_labels k s) = some s'
  samples : (firmware.trace taken s (rounds_labels k s)).map Add.now =
    s.deadlines.samples k
  limits : WithinLimits (firmware.trace mark s (rounds_labels k s))
  first : ∀ m, (firmware.trace mark s (rounds_labels k s)).head? = some m → m = .start s.clock_us

theorem round_clock (d : Deadlines) : d.round.1.clock_us ≤ d.clock_us + 2000000 := by
  unfold Deadlines.round
  dsimp only
  split
  · show d.clock_us + 760000 + 1000000 ≤ d.clock_us + 2000000
    omega
  · show d.clock_us + 1000000 ≤ d.clock_us + 2000000
    omega

/-- The marks of an iteration before those of the others. -/
theorem WithinLimits.round {marks more : List Mark} {us us' : Nat} (h : WithinLimits more)
    (hmarks : marks = [.start us] ∨ marks = [.start us, .sampled (us + 760000)])
    (hnext : us' ≤ us + 2000000) (hfirst : ∀ m, more.head? = some m → m = .start us') :
    WithinLimits (marks ++ more) := by
  have hstart : ∀ t ∈ (more.filterMap Mark.started).head?, t ≤ us + 2000000 := by
    intro t ht
    cases more with
    | nil => simp at ht
    | cons m more =>
      obtain rfl := hfirst m rfl
      obtain rfl : us' = t := by simpa [Mark.started] using ht
      exact hnext
  have hread : ∀ m ∈ more.head?, ∀ t, m ≠ .sampled t := by
    intro m hm t
    rw [hfirst m hm]
    simp
  rcases hmarks with rfl | rfl
  · refine ⟨List.isChain_cons.mpr ⟨hstart, h.starts⟩, List.isChain_cons.mpr ⟨?_, h.reads⟩⟩
    intro m hm t t' _ ht'
    exact absurd ht' (hread m hm t')
  · refine ⟨List.isChain_cons.mpr ⟨hstart, h.starts⟩,
      List.isChain_cons_cons.mpr ⟨?_, List.isChain_cons.mpr ⟨?_, h.reads⟩⟩⟩
    · intro t t' ht ht'
      cases ht
      cases ht'
      omega
    · intro m hm t t' ht
      cases ht

theorem rounds_exec (k : Nat) {s : Firmware} (hpc : s.task = .top) (hfree : s.s_lock = none) :
    ∃ s', RoundsTo k s s' := by
  induction k generalizing s with
  | zero =>
    refine ⟨s, rfl, rfl, ⟨List.isChain_nil, List.isChain_nil⟩, ?_⟩
    simp [rounds_labels, System.trace]
  | succ k ih =>
    obtain ⟨s₁, hround⟩ := round_exec hpc hfree
    obtain ⟨s', hrest⟩ := ih hround.task hround.lock
    have hlabels : rounds_labels (k + 1) s = round_labels s ++ rounds_labels k s₁ := by
      rw [rounds_labels, hround.exec]
    refine ⟨s', ?_, ?_, ?_, ?_⟩
    · rw [hlabels, exec_append, hround.exec]
      exact hrest.exec
    · rw [hlabels, trace_append hround.exec, List.map_append, hround.samples, hrest.samples,
        hround.deadlines, Deadlines.samples]
    · rw [hlabels, trace_append hround.exec]
      have hclock := round_clock s.deadlines
      rw [← hround.deadlines] at hclock
      exact hrest.limits.round hround.marks hclock hrest.first
    · intro m hm
      rw [hlabels, trace_append hround.exec] at hm
      rcases hround.marks with hmarks | hmarks
      · rw [hmarks] at hm
        exact (Option.some.inj hm).symm
      · rw [hmarks] at hm
        exact (Option.some.inj hm).symm

/-! ## The axis -/

/-- **The time axis is right as long as no sample skips a minute.**  In every
    state a run reaches, the samples of the document are those the ring keeps.
    Every one of them is within a minute of the time that the app gives it if
    each step that took a sample found the clock in the minute right after
    that of the sample before, the minutes counted from any one phase; it is
    enough that this held for a stretch of the run that took all but the
    oldest sample that is kept.  And no weaker condition keeps the axis right
    to less than a minute in every state: then there is such a phase for every
    stretch that takes fewer samples than the ring holds. -/
theorem time_axis (nvs : NvsBlob) (clock_us : Nat) (acts : List Label) (s : Firmware)
    (h : firmware.exec (boot nvs clock_us) acts = some s) :
    (history_copy s.history HISTORY_SAMPLES).temps =
        (kept (firmware_taken nvs clock_us acts)).map Add.stored ∧
      (∀ phase, firmware.Steps (InMinute phase) (boot nvs clock_us) acts →
        OnAxis (history_copy s.history HISTORY_SAMPLES)
          (kept (firmware_taken nvs clock_us acts))) ∧
      (∀ phase pre post s₁, acts = pre ++ post →
        firmware.exec (boot nvs clock_us) pre = some s₁ →
        firmware.Steps (InMinute phase) s₁ post →
        (kept (firmware_taken nvs clock_us acts)).length ≤
          (firmware.trace taken s₁ post).length + 1 →
        AxisWithin (HISTORY_PERIOD_S - 1) (history_copy s.history HISTORY_SAMPLES)
          (kept (firmware_taken nvs clock_us acts))) ∧
      ((∀ past rest s₁, acts = past ++ rest →
          firmware.exec (boot nvs clock_us) past = some s₁ →
          AxisWithin (HISTORY_PERIOD_S - 1) (history_copy s₁.history HISTORY_SAMPLES)
            (kept (firmware_taken nvs clock_us past))) →
        ∀ pre mid rest s₁, acts = pre ++ (mid ++ rest) →
          firmware.exec (boot nvs clock_us) pre = some s₁ →
          (firmware.trace taken s₁ mid).length < HISTORY_SAMPLES →
          ∃ phase, firmware.Steps (InMinute phase) s₁ mid) := by
  have hstretch : ∀ phase pre post s₁, acts = pre ++ post →
      firmware.exec (boot nvs clock_us) pre = some s₁ →
      firmware.Steps (InMinute phase) s₁ post →
      (kept (firmware_taken nvs clock_us acts)).length ≤
        (firmware.trace taken s₁ post).length + 1 →
      AxisWithin (HISTORY_PERIOD_S - 1) (history_copy s.history HISTORY_SAMPLES)
        (kept (firmware_taken nvs clock_us acts)) := by
    intro phase pre post s₁ hsplit hpre hsteps hlen
    subst hsplit
    have hring := firmware_ring hpre
    rw [exec_append, hpre] at h
    have htaken : firmware_taken nvs clock_us (pre ++ post) =
        firmware_taken nvs clock_us pre ++ firmware.trace taken s₁ post := trace_append hpre post
    rw [htaken] at hlen ⊢
    exact axisWithin_of_onGrid (inRing_exec hring h) ((steps_inMinute_iff hring h).mp hsteps) hlen
  refine ⟨by rw [kept_copy (firmware_ring h)], ?_, hstretch, ?_⟩
  · intro phase hsteps
    exact onAxis_of_onGrid (firmware_ring h)
      ((steps_inMinute_iff (s := boot nvs clock_us) history_zero_inRing h).mp hsteps)
  · intro haxis pre mid rest s₁ hsplit hpre hlen
    obtain ⟨s₂, hmid⟩ : ∃ s₂, firmware.exec s₁ mid = some s₂ := by
      rw [hsplit, exec_append, hpre] at h
      obtain ⟨s₂, hmid, -⟩ := Option.bind_eq_some_iff.mp ((exec_append s₁ mid rest).symm.trans h)
      exact ⟨s₂, hmid⟩
    have hring := firmware_ring hpre
    have hkeeps := keeps_of_axisWithin hring hmid hlen (by
      intro past more s₃ hmore hpast
      have haxis' := haxis (pre ++ past) (more ++ rest) s₃
        (by rw [hsplit, hmore, List.append_assoc, List.append_assoc])
        (by rw [exec_append, hpre]; exact hpast)
      rwa [show firmware_taken nvs clock_us (pre ++ past) =
        firmware_taken nvs clock_us pre ++ firmware.trace taken s₁ past from
          trace_append hpre past] at haxis')
    obtain ⟨phase, hgrid⟩ := (exists_phase_iff (by decide)).mpr hkeeps
    exact ⟨phase, (steps_inMinute_iff hring hmid).mpr hgrid⟩

/-- Five samples at 0, 60, 121, 181 and 241 s: the third is a second late, and
    all are on the axis. -/
theorem time_axis_late_second :
    ∃ s, firmware.exec (boot .missing 0) (rounds_labels 210 (boot .missing 0)) = some s ∧
      (firmware_taken .missing 0 (rounds_labels 210 (boot .missing 0))).map Add.now =
        [0, 60, 121, 181, 241] ∧
      (history_copy s.history HISTORY_SAMPLES).temps.length = 5 ∧
      OnAxis (history_copy s.history HISTORY_SAMPLES)
        (kept (firmware_taken .missing 0 (rounds_labels 210 (boot .missing 0)))) := by
  obtain ⟨s, hrun⟩ := rounds_exec 210 (s := boot .missing 0) rfl rfl
  have htimes : (firmware_taken .missing 0 (rounds_labels 210 (boot .missing 0))).map Add.now =
      [0, 60, 121, 181, 241] := hrun.samples.trans (by decide +kernel)
  have hring := firmware_ring hrun.exec
  have hgrid : OnGrid HISTORY_PERIOD_S 0 [0, 60, 121, 181, 241] := by decide
  have hsteps : firmware.Steps (InMinute 0) (boot .missing 0)
      (rounds_labels 210 (boot .missing 0)) := by
    refine (steps_inMinute_iff history_zero_inRing hrun.exec).mpr ?_
    rwa [stretch_times, List.getLast?_nil, Option.toList_none, List.nil_append,
      show firmware.trace taken (boot .missing 0) _ = firmware_taken .missing 0 _ from rfl, htimes]
  obtain ⟨htemps, haxis, -, -⟩ := time_axis .missing 0 _ s hrun.exec
  refine ⟨s, hrun.exec, htimes, ?_, haxis 0 hsteps⟩
  have hlength := congrArg List.length htimes
  rw [List.length_map, List.length_cons] at hlength
  rw [htemps, List.length_map, kept, List.rtake, List.length_drop, hlength]
  rfl

/-- In half an hour of reads that take 760 ms, each a second after the
    iteration before it, the app dates the first of 32 samples 61 s after it
    was recorded. -/
theorem axis_falls_behind :
    ∃ s, firmware.exec (boot .missing 0) (rounds_labels 1630 (boot .missing 0)) = some s ∧
      WithinLimits (firmware.trace mark (boot .missing 0)
        (rounds_labels 1630 (boot .missing 0))) ∧
      ¬ OnAxis (history_copy s.history HISTORY_SAMPLES)
        (kept (firmware_taken .missing 0 (rounds_labels 1630 (boot .missing 0)))) := by
  obtain ⟨s, hrun⟩ := rounds_exec 1630 (s := boot .missing 0) rfl rfl
  refine ⟨s, hrun.exec, hrun.limits, ?_⟩
  have hring := firmware_ring hrun.exec
  have htimes : (firmware_taken .missing 0 (rounds_labels 1630 (boot .missing 0))).map Add.now =
      Deadlines.samples 1630 ⟨0, 0, 0⟩ := hrun.samples
  generalize firmware_taken .missing 0 (rounds_labels 1630 (boot .missing 0)) = ts at hring htimes
  have hsamples : (Deadlines.samples 1630 ⟨0, 0, 0⟩).length = 32 ∧
      (Deadlines.samples 1630 ⟨0, 0, 0⟩).head? = some 0 ∧
      (Deadlines.samples 1630 ⟨0, 0, 0⟩).getLast? = some 1921 := by decide +kernel
  rw [← htimes, List.length_map, List.head?_map, List.getLast?_map] at hsamples
  obtain ⟨hlen, hhead, hlast⟩ := hsamples
  have hkept : kept ts = ts := by
    rw [kept, List.rtake, hlen]
    rfl
  obtain ⟨t, ht, hnow⟩ := Option.map_eq_some_iff.mp hhead
  intro hon
  have hfirst := (hon 0 t (by rw [hkept, ← List.head?_eq_getElem?, ht])).2
  rw [kept_copy hring, hlast, hkept] at hfirst
  simp [assigned_s, hlen, hnow, HISTORY_PERIOD_S] at hfirst

end FloorHeating
