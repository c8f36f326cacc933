import FloorHeating.ControlRuns

/-! # The sensor fail-safe over whole runs

    `failures` counts the consecutive bad reads and saturates at 255, and
    `sensor_failed` latches once the count reaches `sensor_fail_reads`.  Over
    a run of any length the two are functions of the read history alone: the
    number of trailing bad reads decides both. -/

namespace FloorHeating

open PastTime

/-- Every read of the run is made with the limit `n`. -/
def FailReads (n : UInt8) (ops : List CtlOp) : Prop :=
  ∀ cfg now_s valid t, CtlOp.sensor cfg now_s valid t ∈ ops → cfg.sensor_fail_reads = n

/-- The bad reads at the end of the history, since the last valid one. -/
def trailing_bad (reads : List Bool) : Nat := trailing (fun valid => !valid) reads

theorem trailing_bad_concat (rs : List Bool) (valid : Bool) :
    trailing_bad (rs ++ [valid]) = if valid then 0 else trailing_bad rs + 1 := by
  cases valid <;> simp [trailing_bad, trailing_concat]

/-- The counter, as a number, saturates. -/
theorem bump_failures_toNat (f : UInt8) : (bump_failures f).toNat = min 255 (f.toNat + 1) := by
  have hf := f.toNat_lt
  unfold bump_failures UINT8_MAX
  split
  · rename_i h
    have hlt : f.toNat < 255 := by simpa [UInt8.lt_iff_toNat_lt] using h
    rw [UInt8.toNat_add]
    simp
    omega
  · rename_i h
    have hge : ¬ f.toNat < 255 := by simpa [UInt8.lt_iff_toNat_lt] using h
    omega

/-- The invariant: counter and latch as the read history has them. -/
structure FailSafeInv (n : UInt8) (rs : List Bool) (s : CtlState) : Prop where
  failures : s.failures.toNat = min 255 (trailing_bad rs)
  failed : s.sensor_failed = true ↔ n.toNat ≤ trailing_bad rs

theorem failSafeInv_init {n : UInt8} (hn : 1 ≤ n.toNat) (boot_s : Int) :
    FailSafeInv n [] (ctl_init boot_s) where
  failures := rfl
  failed := by simp [ctl_init, trailing_bad]; omega

/-- A read keeps the invariant, with its outcome appended to the history. -/
theorem failSafeInv_read {n : UInt8} (hn : 1 ≤ n.toNat) {rs : List Bool} {s : CtlState}
    (hinv : FailSafeInv n rs s) {cfg : CtlConfig} (hcfg : cfg.sensor_fail_reads = n)
    (now_s : Int) (valid : Bool) (t : Int16) :
    FailSafeInv n (rs ++ [valid]) (ctl_step s (.sensor cfg now_s valid t)) := by
  have hcount := hinv.failures
  have hfail := hinv.failed
  cases valid with
  | true =>
    -- nothing trails a valid read, and `1 ≤ n` keeps the flag down
    refine ⟨?_, ?_⟩
    · simp [trailing_bad_concat]
    · simp [trailing_bad_concat]; omega
  | false =>
    -- past 255 the counter stands still, but by then it has reached any `n`
    have hlt := n.toNat_lt
    have hbump := bump_failures_toNat s.failures
    refine ⟨?_, ?_⟩
    · simp only [ctl_step_bad, trailing_bad_concat]
      simp
      omega
    · simp only [ctl_step_bad, trailing_bad_concat, Bool.or_eq_true, hfail, decide_eq_true_eq,
        hcfg, ge_iff_le, UInt8.le_iff_toNat_le]
      simp
      omega

/-- Commands and decisions leave the read side of the state alone. -/
theorem failSafeInv_other {n : UInt8} {rs : List Bool} {s : CtlState}
    (hinv : FailSafeInv n rs s) :
    (∀ m d now_s, FailSafeInv n rs (ctl_step s (.manual m d now_s))) ∧
      ∀ cfg now_s, FailSafeInv n rs (ctl_step s (.decide cfg now_s)) := by
  refine ⟨fun m d now_s => ?_, fun cfg now_s => ?_⟩
  · obtain ⟨m', u, hstep⟩ := ctl_step_manual_frame s m d now_s
    rw [hstep]
    exact ⟨hinv.failures, hinv.failed⟩
  · rw [ctl_step_decide]
    exact ⟨hinv.failures, hinv.failed⟩

theorem failSafeInv_run {n : UInt8} (hn : 1 ≤ n.toNat) (boot_s : Int) {ops : List CtlOp}
    (hops : FailReads n ops) : FailSafeInv n (reads ops) (ctl_run boot_s ops) := by
  induction ops using List.reverseRecOn with
  | nil => exact failSafeInv_init hn boot_s
  | append_singleton ops op ih =>
    have hinv := ih fun cfg now_s valid t h => hops cfg now_s valid t (by simp [h])
    rw [ctl_run_concat, reads, List.filterMap_append]
    cases op with
    | sensor cfg now_s valid t =>
      exact failSafeInv_read hn hinv (hops cfg now_s valid t (by simp)) now_s valid t
    | manual m d now_s => simpa [reads] using (failSafeInv_other hinv).1 m d now_s
    | decide cfg now_s => simpa [reads] using (failSafeInv_other hinv).2 cfg now_s

/-- The flags one more read raises, from the number of bad reads before it. -/
theorem ctl_sensor_flags {n : UInt8} {rs : List Bool} {s : CtlState} (hinv : FailSafeInv n rs s)
    {cfg : CtlConfig} (hcfg : cfg.sensor_fail_reads = n) (now_s : Int) (valid : Bool)
    (t : Int16) :
    ((ctl_sensor s cfg now_s valid t {}).2.sensor_failed = true ↔
        valid = false ∧ trailing_bad (rs ++ [valid]) = n.toNat) ∧
      ((ctl_sensor s cfg now_s valid t {}).2.sensor_recovered = true ↔
        valid = true ∧ n.toNat ≤ trailing_bad rs) := by
  have hlt := n.toNat_lt
  have hbump := bump_failures_toNat s.failures
  have hcount := hinv.failures
  have hfail := hinv.failed
  cases valid with
  | true => simp [ctl_sensor_good, hfail]
  | false =>
    -- raised on the edge: the flag was down, and this read makes the count reach `n`
    have hnot : s.sensor_failed = false ↔ trailing_bad rs < n.toNat := by
      rw [← Bool.not_eq_true, hfail, Nat.not_le]
    simp only [ctl_sensor_bad, trailing_bad_concat, Bool.false_or, Bool.and_eq_true,
      Bool.not_eq_true', hnot, decide_eq_true_eq, hcfg, ge_iff_le, UInt8.le_iff_toNat_le]
    simp
    omega

/-- **Sensor fail-safe over whole runs.**  With a limit of `n` reads, the
    fail-safe is on exactly when the last `n` reads were all bad, and the
    counter is the number of trailing bad reads cut at 255.  The next read
    raises `sensor_failed` exactly as the `n`-th bad read of its outage and
    `sensor_recovered` exactly as the first valid read after such an outage;
    a bad one leaves the reading and both latches as they were. -/
theorem sensor_fail_safe (n : UInt8) (hn : 1 ≤ n.toNat) (boot_s : Int) (ops : List CtlOp)
    (hops : FailReads n ops) :
    ((ctl_run boot_s ops).sensor_failed = true ↔
        n.toNat ≤ (reads ops).length ∧ ∀ valid ∈ (reads ops).rtake n.toNat, valid = false) ∧
      (ctl_run boot_s ops).failures.toNat = min 255 (trailing_bad (reads ops)) ∧
      ∀ (cfg : CtlConfig) (now_s : Int) (valid : Bool) (t : Int16), cfg.sensor_fail_reads = n →
        ((ctl_sensor (ctl_run boot_s ops) cfg now_s valid t {}).2.sensor_failed = true ↔
            valid = false ∧ trailing_bad (reads ops ++ [valid]) = n.toNat) ∧
        ((ctl_sensor (ctl_run boot_s ops) cfg now_s valid t {}).2.sensor_recovered = true ↔
            valid = true ∧ n.toNat ≤ trailing_bad (reads ops)) ∧
        (valid = false →
          (ctl_step (ctl_run boot_s ops) (.sensor cfg now_s valid t)).have_temp =
              (ctl_run boot_s ops).have_temp ∧
          (ctl_step (ctl_run boot_s ops) (.sensor cfg now_s valid t)).temp_x10 =
              (ctl_run boot_s ops).temp_x10 ∧
          (ctl_step (ctl_run boot_s ops) (.sensor cfg now_s valid t)).temp_s =
              (ctl_run boot_s ops).temp_s ∧
          (ctl_step (ctl_run boot_s ops) (.sensor cfg now_s valid t)).hot =
              (ctl_run boot_s ops).hot ∧
          (ctl_step (ctl_run boot_s ops) (.sensor cfg now_s valid t)).overheat =
              (ctl_run boot_s ops).overheat) := by
  have hinv := failSafeInv_run hn boot_s hops
  refine ⟨?_, hinv.failures, ?_⟩
  · rw [hinv.failed, trailing_bad, le_trailing_iff]
    simp
  · intro cfg now_s valid t hcfg
    obtain ⟨hfailed, hrecovered⟩ := ctl_sensor_flags hinv hcfg now_s valid t
    refine ⟨hfailed, hrecovered, ?_⟩
    rintro rfl
    rw [ctl_step_bad]
    exact ⟨rfl, rfl, rfl, rfl, rfl⟩

/-- The third bad read after boot: the theorem at work. -/
theorem sensor_fail_safe_third_read :
    (ctl_run 0 (List.replicate 3 (.sensor ⟨300, 250, 450, 604800, 60, 3⟩ 5 false 0))).sensor_failed
      = true := by
  have hreads : FailReads 3
      (List.replicate 3 (.sensor ⟨300, 250, 450, 604800, 60, 3⟩ 5 false 0)) := by
    intro cfg now_s valid t hmem
    have hop := List.eq_of_mem_replicate hmem
    simp only [CtlOp.sensor.injEq] at hop
    rw [hop.1]
  exact (sensor_fail_safe 3 (by decide) 0 _ hreads).1.mpr (by decide)

end FloorHeating
