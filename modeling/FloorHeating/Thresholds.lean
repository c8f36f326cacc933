import FloorHeating.Api
import FloorHeating.Atomicity

/-! # Thresholds are always consistent

    The settings have three ways in: the static initialiser, the blob NVS
    holds at boot, and `settings_set`, which `settings_handler` calls with
    whatever a client has sent.  All but the first go through `sanitize`,
    and nothing else writes `s_settings`, so no interleaving of writers and
    readers ever shows a contradictory triple to anyone. -/

namespace FloorHeating

open LTS

/-- What the thresholds of a configuration promise. -/
structure CtlConfig.Consistent (cfg : CtlConfig) : Prop where
  start : 200 ≤ cfg.start_x10.toInt ∧ cfg.start_x10.toInt ≤ 600
  stop : 100 ≤ cfg.stop_x10.toInt ∧ cfg.stop_x10.toInt ≤ cfg.start_x10.toInt - 20
  critical : cfg.start_x10.toInt + 50 ≤ cfg.critical_x10.toInt ∧ cfg.critical_x10.toInt ≤ 800

theorem config_consistent_iff (s : Settings) :
    (config_from_settings s).Consistent ↔ s.Valid := by
  constructor
  · intro h
    exact ⟨h.start.1, h.start.2, h.stop.1, h.stop.2, h.critical.1, h.critical.2⟩
  · intro h
    exact ⟨⟨h.start_min, h.start_max⟩, ⟨h.stop_min, h.stop_max⟩, h.critical_min, h.critical_max⟩

/-- The configuration a call of the control logic is given. -/
def CtlOp.cfg : CtlOp → Option CtlConfig
  | .sensor cfg _ _ _ => some cfg
  | .decide cfg _ => some cfg
  | .manual _ _ _ => none

/-- Sane sections call the control logic with consistent configurations. -/
theorem sane_ops_consistent {sec : Section} (h : sec.Sane) {op : CtlOp} (hop : op ∈ sec.ops)
    {cfg : CtlConfig} (hcfg : op.cfg = some cfg) : cfg.Consistent := by
  cases sec with
  | refused q now_s => simp [Section.ops] at hop
  | command c =>
    simp only [Section.ops, List.mem_cons, List.not_mem_nil, or_false] at hop
    rcases hop with rfl | rfl
    · simp [CtlOp.cfg] at hcfg
    · obtain rfl := Option.some.inj hcfg
      exact (config_consistent_iff c.settings).mpr h
  | iteration it =>
    obtain ⟨hdecide, hread⟩ := h
    simp only [Section.ops, List.mem_append, List.mem_singleton] at hop
    rcases hop with hop | rfl
    · unfold Iteration.read_ops at hop
      cases hrd : it.read with
      | none => simp [hrd] at hop
      | some rd =>
        simp only [hrd, List.mem_singleton] at hop
        subst hop
        obtain rfl := Option.some.inj hcfg
        exact (config_consistent_iff rd.settings).mpr (hread rd hrd)
    · obtain rfl := Option.some.inj hcfg
      exact (config_consistent_iff it.settings).mpr hdecide

/-- **No value can produce contradictory thresholds.**  The static initialiser
    is consistent.  From any boot, in every state the firmware reaches, what
    `settings_get` returns is consistent, and so is every configuration that
    was given to `ctl_sensor` or `ctl_decide`.  No clamp of `sanitize` has an
    empty range or cuts anything off in its cast; it leaves exactly the
    consistent triples alone, and is idempotent. -/
theorem thresholds_consistent :
    (config_from_settings default_settings).Consistent ∧
      (∀ acts s, Run firmware acts s → (config_from_settings s.s_settings).Consistent ∧
        ∀ op ∈ ops_of (sections_of acts), ∀ cfg, op.cfg = some cfg → cfg.Consistent) ∧
      (∀ current body, (config_from_settings (sanitize (settings_request current body))).Consistent) ∧
      (∀ v : Settings,
        (START_MIN_X10 ≤ START_MAX_X10 ∧
          (sanitize v).start_x10.toInt = clamped v.start_x10.toInt START_MIN_X10 START_MAX_X10) ∧
        (STOP_MIN_X10 ≤ (sanitize v).start_x10.toInt - HYSTERESIS_MIN_X10 ∧
          (sanitize v).stop_x10.toInt = clamped v.stop_x10.toInt STOP_MIN_X10
            ((sanitize v).start_x10.toInt - HYSTERESIS_MIN_X10)) ∧
        ((sanitize v).start_x10.toInt + CRITICAL_MARGIN_MIN_X10 ≤ CRITICAL_MAX_X10 ∧
          (sanitize v).critical_x10.toInt = clamped v.critical_x10.toInt
            ((sanitize v).start_x10.toInt + CRITICAL_MARGIN_MIN_X10) CRITICAL_MAX_X10)) ∧
      (∀ v : Settings, sanitize v = v ↔ (config_from_settings v).Consistent) ∧
      ∀ v : Settings, sanitize (sanitize v) = sanitize v := by
  refine ⟨(config_consistent_iff _).mpr default_settings_valid, ?_, ?_, ?_, ?_,
    sanitize_idempotent⟩
  · -- the settings of now, and all that were handed out before
    intro acts s h
    refine ⟨(config_consistent_iff _).mpr (firmware_settings h).current, ?_⟩
    intro op hop cfg hcfg
    obtain ⟨sec, hsec, hop⟩ := List.mem_flatMap.mp hop
    exact sane_ops_consistent (firmware_sane h sec hsec) hop hcfg
  · intro current body
    exact (config_consistent_iff _).mpr (sanitize_valid _)
  · intro v
    exact ⟨⟨by decide, sanitize_start v⟩, ⟨stop_range v, sanitize_stop v⟩,
      critical_range v, sanitize_critical v⟩
  · intro v
    rw [config_consistent_iff]
    exact sanitize_eq_self_iff

/-- A call of `settings_set` with the most contradictory values there are. -/
theorem thresholds_consistent_after_save :
    ∃ s, Run firmware (save_labels 0 ⟨-32768, 32767, -32768⟩) s ∧
      (config_from_settings s.s_settings).Consistent := by
  have hrun := run_from_boot .missing 0
    (show firmware.exec _ (save_labels 0 ⟨-32768, 32767, -32768⟩) = some _ from rfl)
  exact ⟨_, hrun, (thresholds_consistent.2.1 _ _ hrun).1⟩

end FloorHeating
