import FloorHeating.Progress
import FloorHeating.Status

/-! # The health check

    `healthy` asks `control_alive` whether the loop still runs, and all that
    this has to go on is the heartbeat.  `health_tells` says what follows from
    its answer: that an iteration of the last 15 s has come to its end, and no
    more; so a loop that hangs outside `s_lock`, as in a read of the sensor, is
    found out 15 s later.

    A loop that hangs with `s_lock` in its hands is not: `control_alive` copies
    the state under that lock, and so does not answer at all.

    Source: `control_alive`, `control_task` (`control.c`), `healthy`
    (`main.c`). -/

namespace FloorHeating

open LTS

/-- `healthy`, on the copy that `control_alive` takes. -/
def healthy (c : ControlStatus) (hi_wifi_is_connected : Bool) : Bool :=
  control_alive c && hi_wifi_is_connected

theorem iteration_times_concat (acts : List Label) (a : Label) :
    iteration_times (sections_of (acts ++ [a])) =
      iteration_times (sections_of acts) ++ iteration_times a.released.toList := by
  rw [sections_of, List.filterMap_append, iteration_times, List.filterMap_append]
  cases h : a.released <;> simp [iteration_times, sections_of, h]

/-- The timestamp of an iteration that ends is the one the task has carried. -/
theorem released_time {s s' : Firmware} {a : Label} (h : step s a = some s') {t : Int}
    (ht : t ∈ iteration_times a.released.toList) : s.task.time = some t := by
  obtain ⟨sec, hsec, ht⟩ := List.mem_filterMap.mp ht
  have hreleased : a.released = some sec := Option.mem_toList.mp hsec
  cases sec with
  | command _ | refused _ _ => simp at ht
  | iteration it =>
    obtain rfl : it.now_s = t := Option.some.inj ht
    unfold Label.released at hreleased
    split at hreleased
    · obtain rfl := Section.iteration.inj (Option.some.inj hreleased)
      have hunlock : TaskStep s (.unlock _) s' := task_step_inv h
      cases hunlock with
      | unlock it pc =>
        rw [pc]
        rfl
    · simp at hreleased
    · simp at hreleased
    · simp at hreleased

/-- The iterations end in the order of their timestamps. -/
structure BeatInv (acts : List Label) (s : Firmware) : Prop where
  sorted : (iteration_times (sections_of acts)).Pairwise (· ≤ ·)
  past : ∀ t ∈ iteration_times (sections_of acts), t ≤ s.mono_s
  carried : ∀ t ∈ iteration_times (sections_of acts), ∀ now_s, s.task.time = some now_s →
    t ≤ now_s

theorem BeatInv.step {acts : List Label} {s s' : Firmware} {a : Label} (hs : BeatInv acts s)
    (htimes : TimesInv acts s) (h : step s a = some s') : BeatInv (acts ++ [a]) s' := by
  have ht := step_times h
  have hpast : ∀ t ∈ iteration_times (sections_of (acts ++ [a])), t ≤ s.mono_s := by
    intro t hmem
    rw [iteration_times_concat, List.mem_append] at hmem
    rcases hmem with hold | hnew
    · exact hs.past t hold
    · exact htimes.task t (released_time h hnew)
  refine ⟨?_, fun t hmem => (hpast t hmem).trans ht.clock, ?_⟩
  · rw [iteration_times_concat, List.pairwise_append]
    refine ⟨hs.sorted, ?_, ?_⟩
    · unfold iteration_times
      cases a.released with
      | none => exact List.Pairwise.nil
      | some sec => cases sec <;> simp
    · exact fun t hold u hnew => hs.carried t hold u (released_time h hnew)
  · intro t hmem now_s hnow
    rcases ht.task now_s hnow with hcarried | rfl
    · rw [iteration_times_concat, List.mem_append] at hmem
      rcases hmem with hold | hnew
      · exact hs.carried t hold now_s hcarried
      · exact (Option.some.inj ((released_time h hnew).symm.trans hcarried)).le
    · exact hpast t hmem

theorem firmware_beats {nvs : NvsBlob} {clock_us : Nat} {acts : List Label} {s : Firmware}
    (h : firmware.exec (boot nvs clock_us) acts = some s) : BeatInv acts s := by
  refine history_invariant (P := BeatInv) ?_ ?_ h
  · exact ⟨List.Pairwise.nil, fun _ ht => (List.not_mem_nil ht).elim,
      fun _ ht => (List.not_mem_nil ht).elim⟩
  · exact fun past s a s' hpast hs hstep => hs.step (firmware_times hpast).1 hstep

/-- The last of a sorted list is the one to ask. -/
theorem sorted_last_iff {l : List Int} (h : l.Pairwise (· ≤ ·)) (now_s w : Int) :
    now_s - l.getLast?.getD 0 ≤ w ↔ (∃ t ∈ l, now_s - t ≤ w) ∨ l = [] ∧ now_s ≤ w := by
  rcases l.eq_nil_or_concat' with rfl | ⟨init, last, rfl⟩
  · simp
  · have hlast : (init ++ [last]).getLast?.getD 0 = last := by simp
    rw [hlast]
    constructor
    · exact fun hle => Or.inl ⟨last, by simp, hle⟩
    · rintro (⟨t, ht, hle⟩ | ⟨hnil, -⟩)
      · rcases List.mem_append.mp ht with hinit | hlast
        · have hbefore : t ≤ last := (List.pairwise_append.mp h).2.2 t hinit last (by simp)
          omega
        · obtain rfl := List.mem_singleton.mp hlast
          exact hle
      · simp at hnil

/-- Where no iteration comes to its end there is no new heartbeat. -/
theorem no_iteration_times {more : List Label} (h : ∀ it, .task (.unlock it) ∉ more) :
    iteration_times (sections_of more) = [] := by
  refine List.eq_nil_iff_forall_not_mem.mpr ?_
  intro t ht
  obtain ⟨sec, hsec, ht⟩ := List.mem_filterMap.mp ht
  obtain ⟨a, ha, hreleased⟩ := List.mem_filterMap.mp hsec
  unfold Label.released at hreleased
  split at hreleased
  · exact h _ ha
  · obtain rfl := Option.some.inj hreleased
    simp at ht
  · obtain rfl := Option.some.inj hreleased
    simp at ht
  · simp at hreleased

/-- A task that holds `s_lock` and takes no step keeps it. -/
theorem hanging_keeps_lock {s s' : Firmware} {later : List Label} (hs : LockInv s)
    (hheld : s.s_lock = some .task) (h : firmware.exec s later = some s')
    (hhangs : ∀ a ∈ later, a.mover ≠ some .task) : s'.s_lock = some .task := by
  have hinside : s.inside .task = true := (hs .task).mpr hheld
  have hend : LockInv s' ∧ s'.inside .task = true := by
    refine exec_invariant (P := fun s => LockInv s ∧ s.inside .task = true) ?_ ⟨hs, hinside⟩
      h hhangs
    rintro s a s' ha ⟨hs, hinside⟩ hstep
    refine ⟨lockInv_step s a s' hs hstep, ?_⟩
    show s'.task.inside = true
    rw [(step_others hstep).1 ha]
    exact hinside
  exact (hend.1 .task).mp hend.2

/-- **What the health check tells.**  Whenever `s_lock` is free: the loop is
    called alive exactly if some iteration has come to its end whose timestamp
    is at most 15 s old, or none has and the clock is not past 15 s; so if from
    here on no iteration comes to its end, whatever the callers do, it is no
    longer called alive once 15 s have gone by and the lock is free.  A task
    that hangs with the lock never frees it, and the check waits with it. -/
theorem health_tells (nvs : NvsBlob) (clock_us : Nat) (acts : List Label) (s : Firmware)
    (h : firmware.exec (boot nvs clock_us) acts = some s) :
    (s.s_lock = none → (∀ now_s, control_alive (control_status s.dev now_s) = true ↔
        (∃ t ∈ iteration_times (sections_of acts), now_s - t ≤ 15) ∨
          iteration_times (sections_of acts) = [] ∧ now_s ≤ 15) ∧
      ∀ more s', firmware.exec s more = some s' → s'.s_lock = none →
        (∀ it, .task (.unlock it) ∉ more) → ∀ now_s, s.mono_s + 15 < now_s →
          ∀ wifi, healthy (control_status s'.dev now_s) wifi = false) ∧
      (s.s_lock = some .task → ∀ later s', firmware.exec s later = some s' →
        (∀ a ∈ later, a.mover ≠ some .task) → s'.s_lock = some .task) := by
  have halive : ∀ {acts s}, firmware.exec (boot nvs clock_us) acts = some s → s.s_lock = none →
      ∀ now_s, control_alive (control_status s.dev now_s) = true ↔
        (∃ t ∈ iteration_times (sections_of acts), now_s - t ≤ 15) ∨
          iteration_times (sections_of acts) = [] ∧ now_s ≤ 15 := by
    intro acts s h hfree now_s
    have hbeat := sections_heartbeat (firmware_free (run_from_boot nvs clock_us h) hfree)
    rw [control_alive, decide_eq_true_iff, ← sorted_last_iff (firmware_beats h).sorted, ← hbeat]
    exact Iff.rfl
  refine ⟨fun hfree => ⟨halive h hfree, ?_⟩, ?_⟩
  · intro more s' hmore hfree' hhangs now_s hlate wifi
    have hall : firmware.exec (boot nvs clock_us) (acts ++ more) = some s' := by
      rw [exec_append, h]
      exact hmore
    have htimes : iteration_times (sections_of (acts ++ more)) =
        iteration_times (sections_of acts) := by
      have hnone := no_iteration_times hhangs
      unfold iteration_times sections_of at hnone ⊢
      rw [List.filterMap_append, List.filterMap_append, hnone, List.append_nil]
    have hdead : control_alive (control_status s'.dev now_s) = false := by
      rw [Bool.eq_false_iff, ne_eq, halive hall hfree', htimes]
      rintro (⟨t, ht, hle⟩ | ⟨-, hle⟩)
      · have hpast := (firmware_beats h).past t ht
        omega
      · have hclock : (0 : Int) ≤ s.mono_s := Int.natCast_nonneg _
        omega
    rw [healthy, hdead, Bool.false_and]
  · intro hheld later s' hlater hhangs
    exact hanging_keeps_lock (firmware_locks (run_from_boot nvs clock_us h)).control hheld hlater
      hhangs

/-- A read that does not come back, 16 s after the boot. -/
theorem health_tells_hangs : ∃ s, firmware.exec (boot .missing 0) [.task .start] = some s ∧
    healthy (control_status s.dev 16) true = false :=
  ⟨_, rfl, ((health_tells .missing 0 [] _ rfl).1 rfl).2 [.task .start] _ rfl rfl (by simp) 16
    (by decide) true⟩

end FloorHeating
