import FloorHeating.App
import FloorHeating.Maintenance
import FloorHeating.ManualOverride
import FloorHeating.Relay
import FloorHeating.SensorFailSafe

/-! # The thermostat

    What the controller is for: the rule that has to hold is a function of
    what has happened, of the readings, the reads that failed, the commands
    and the decisions so far.  Each input to it is a past-time formula, and
    their order of precedence is the one of the README.

    Not all of the record is free of the machine: whether a command was
    accepted and whether a decision found an overheat (`override_log`), and
    whether a decision started a maintenance run (`decisions`), are what the
    control logic itself gave out then.

    `pump_as_wanted`: the firmware computes this function, in every
    interleaving.

    Source: `ctl_sensor`, `ctl_manual`, `ctl_decide` (`control_logic.c`),
    `control_task`, `control_manual` (`control.c`). -/

namespace FloorHeating

open LTS PastTime

/-! ## What is wanted -/

/-- The end of the maintenance run that the decision starts. -/
def Decision.run_until_s (d : Decision) : Int := d.now_s + d.cfg.maintenance_run_s.toNat

section wanted
variable (fail_reads : Nat) (boot_s : Int) (ops : List CtlOp)

/-- Some reading was critical, and none since has cleared it. -/
def TooHot : Prop := Since Reading.critical (fun _ r => ¬ r.clears) (readings ops)

/-- The latest accepted command gave `m`, and nothing has ended it. -/
def Given (m : CtlManual) : Prop :=
  Since (OverrideEvent.gives m) OverrideEvent.keeps (override_log boot_s ops)

/-- The last reads have all failed. -/
def Blind : Prop := fail_reads ≤ trailing_bad (reads ops)

/-- Some reading was above the start threshold, and none since below the stop
    threshold. -/
def Hot : Prop := Since Reading.above_start (fun _ r => ¬ r.below_stop) (readings ops)

/-- A decision has started a maintenance run, and all since were before its end. -/
def Maintained : Prop :=
  Since (fun d => d.maintenance_started = true) (fun d e => e.now_s < d.run_until_s)
    (decisions boot_s ops)

open Classical in
/-- The rule that what has happened calls for. -/
noncomputable def wanted : CtlReason :=
  if TooHot ops then .overheat
  else if Given boot_s ops .start then .manual_on
  else if Given boot_s ops .stop then .manual_off
  else if Blind fail_reads ops then .sensor_fail
  else if Hot ops then .auto_hot
  else if Maintained boot_s ops then .maintenance
  else .auto_cold

end wanted

/-! ## The maintenance flag -/

/-- A run of maintenance, and its end, as the decisions so far have them. -/
def RunInv (ds : List Decision) (s : CtlState) : Prop :=
  ∀ u, s.maintenance = true ∧ s.maintenance_until_s = u ↔
    Since (fun d => d.maintenance_started = true ∧ d.run_until_s = u)
      (fun d e => e.now_s < d.run_until_s) ds

theorem runInv_init (boot_s : Int) : RunInv [] (ctl_init boot_s) := by
  intro u
  constructor
  · exact fun h => nomatch h.1
  · exact fun h => absurd h (not_since_nil _ _)

theorem runInv_no_decision {ds : List Decision} {s : CtlState} {op : CtlOp} (h : RunInv ds s)
    (hnone : decision_of s op = none) :
    RunInv (ds ++ (decision_of s op).toList) (ctl_step s op) := by
  obtain ⟨-, -, -, hmaintenance, huntil⟩ := ctl_step_no_decision hnone
  intro u
  rw [hnone, Option.toList_none, List.append_nil, hmaintenance, huntil]
  exact h u

theorem runInv_decide {ds : List Decision} {s : CtlState} (h : RunInv ds s) (cfg : CtlConfig)
    (now_s : Int) :
    RunInv (ds ++ (decision_of s (.decide cfg now_s)).toList)
      (ctl_step s (.decide cfg now_s)) := by
  intro u
  -- a run that goes on is one whose end is still ahead
  have hkept : Since (fun d => (d.maintenance_started = true ∧ d.run_until_s = u) ∧
      now_s < d.run_until_s) (fun d e => e.now_s < d.run_until_s) ds ↔
      maintenance_kept s now_s = true ∧ s.maintenance_until_s = u := by
    have hend : ∀ d : Decision, (d.maintenance_started = true ∧ d.run_until_s = u) ∧
        now_s < d.run_until_s ↔ (d.maintenance_started = true ∧ d.run_until_s = u) ∧
        now_s < u := by
      intro d
      constructor <;> rintro ⟨⟨hstart, rfl⟩, hlt⟩ <;> exact ⟨⟨hstart, rfl⟩, hlt⟩
    rw [since_congr hend, since_and_const, ← h u, maintenance_kept]
    simp only [Bool.and_eq_true, Bool.not_eq_true', decide_eq_false_iff_not, not_le, ge_iff_le]
    constructor
    · rintro ⟨hlt, hflag, rfl⟩
      exact ⟨⟨hflag, hlt⟩, rfl⟩
    · rintro ⟨⟨hflag, hlt⟩, rfl⟩
      exact ⟨hlt, hflag, rfl⟩
  rw [decision_of_decide, Option.toList_some, since_concat, hkept, ctl_step_decide]
  show (maintenance_kept s now_s || maintenance_starts s cfg now_s) = true ∧
      (if maintenance_starts s cfg now_s then now_s + (cfg.maintenance_run_s.toNat : Int)
        else s.maintenance_until_s) = u ↔
    (maintenance_starts s cfg now_s = true ∧ now_s + (cfg.maintenance_run_s.toNat : Int) = u) ∨
      maintenance_kept s now_s = true ∧ s.maintenance_until_s = u
  cases hstarts : maintenance_starts s cfg now_s with
  | true =>
    -- none starts during another
    have hnone := ((maintenance_starts_iff s cfg now_s).mp hstarts).1
    simp [hnone]
  | false => simp

theorem runInv_run (boot_s : Int) (ops : List CtlOp) :
    RunInv (decisions boot_s ops) (ctl_run boot_s ops) := by
  induction ops using List.reverseRecOn with
  | nil => exact runInv_init boot_s
  | append_singleton ops op ih =>
    rw [ctl_run_concat, decisions_concat]
    cases op with
    | decide cfg now_s => exact runInv_decide ih cfg now_s
    | manual | sensor => exact runInv_no_decision ih rfl

/-- **The maintenance flag** is the memory of a start whose run is not over. -/
theorem maintenance_iff_since (boot_s : Int) (ops : List CtlOp) :
    (ctl_run boot_s ops).maintenance = true ↔ Maintained boot_s ops := by
  constructor
  · intro hflag
    obtain ⟨pre, d, post, hds, hd, hpost⟩ := (runInv_run boot_s ops _).mp ⟨hflag, rfl⟩
    exact ⟨pre, d, post, hds, hd.1, hpost⟩
  · rintro ⟨pre, d, post, hds, hd, hpost⟩
    exact ((runInv_run boot_s ops d.run_until_s).mpr ⟨pre, d, post, hds, ⟨hd, rfl⟩, hpost⟩).1

/-! ## The control logic -/

/-- The flags of a state are the formulas, so its rule is the one wanted. -/
theorem ctl_rule_wanted {n : UInt8} (hn : 1 ≤ n.toNat) (boot_s : Int) {ops : List CtlOp}
    (hops : FailReads n ops) :
    (ctl_rule (ctl_run boot_s ops)).2 = wanted n.toNat boot_s ops := by
  have hhot : TooHot ops ↔ (ctl_run boot_s ops).overheat = true :=
    (overheat_iff_since boot_s ops).symm
  have hgiven : ∀ m, m ≠ .none → (Given boot_s ops m ↔ (ctl_run boot_s ops).manual = m) :=
    fun m hm => (override_iff_since boot_s ops hm).symm
  have hblind : Blind n.toNat ops ↔ (ctl_run boot_s ops).sensor_failed = true :=
    (failSafeInv_run hn boot_s hops).failed.symm
  have hheat : Hot ops ↔ (ctl_run boot_s ops).hot = true := (hot_iff_since boot_s ops).symm
  unfold ctl_rule wanted
  simp only [hhot, hgiven .start (by decide), hgiven .stop (by decide), hblind, hheat,
    ← maintenance_iff_since]
  -- the same conditions in the same order
  split_ifs <;> rfl

/-- What a decision has settled is what is wanted. -/
theorem settled_as_wanted {n : UInt8} (hn : 1 ≤ n.toNat) (boot_s : Int) {ops : List CtlOp}
    (hops : FailReads n ops) (hset : Settled (ctl_run boot_s ops)) :
    (ctl_run boot_s ops).reason = wanted n.toNat boot_s ops ∧
      (ctl_run boot_s ops).on = (wanted n.toNat boot_s ops).runs := by
  have hrule : (ctl_run boot_s ops).on = (ctl_rule (ctl_run boot_s ops)).1 ∧
      (ctl_run boot_s ops).reason = (ctl_rule (ctl_run boot_s ops)).2 := Prod.mk.inj hset.rule
  rw [hrule.1, hrule.2, ctl_rule_runs, ctl_rule_wanted hn boot_s hops]
  exact ⟨rfl, rfl⟩

/-! ## The firmware -/

/-- **The firmware is the thermostat.**  Whenever `s_lock` is free, in every
    interleaving, the reason is the one that the sections so far call for, the
    pump is on exactly if that is a reason to run, and where nothing has
    disturbed the pin the relay is where the pump is. -/
theorem pump_as_wanted (nvs : NvsBlob) (clock_us : Nat) (acts : List Label) (s : Firmware)
    (h : firmware.exec (boot nvs clock_us) acts = some s) (hfree : s.s_lock = none) :
    s.dev.s_state.reason = wanted 3 (boot nvs clock_us).mono_s (ops_of (sections_of acts)) ∧
      s.dev.s_state.on =
        (wanted 3 (boot nvs clock_us).mono_s (ops_of (sections_of acts))).runs ∧
      ((∀ a ∈ acts, a.undisturbed) → s.relay =
        (wanted 3 (boot nvs clock_us).mono_s (ops_of (sections_of acts))).runs) := by
  have hstate := sections_ctl_run (firmware_free_exec h hfree)
  have hrun := run_from_boot nvs clock_us h
  have hset := sections_settled (firmware_free hrun hfree)
  rw [hstate] at hset
  obtain ⟨hreason, hon⟩ := settled_as_wanted (n := SENSOR_FAIL_READS) (by decide)
    (boot nvs clock_us).mono_s (ops_fail_reads _) hset
  rw [← hstate] at hreason hon
  exact ⟨hreason, hon, fun hacts => (firmware_relay_follows hrun hacts).trans hon⟩

/-- After a critical reading the overheat rule is the wanted one. -/
theorem pump_as_wanted_critical :
    wanted 3 0 (ops_of (sections_of (iteration_labels
        ⟨0, some ⟨default_settings, true, 450⟩, default_settings, ⟨false, 0⟩⟩))) = .overheat :=
  (pump_as_wanted .missing 0 (iteration_labels
    ⟨0, some ⟨default_settings, true, 450⟩, default_settings, ⟨false, 0⟩⟩) _ rfl rfl).1.symm

end FloorHeating
