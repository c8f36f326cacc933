import FloorHeating.ControlLogic

/-! # Thresholds (`config.h`, `settings.c`)

    The three thresholds, the clamps that keep them consistent, what a boot
    makes of the stored blob, and the configuration the control task builds
    from them.  `clamp` narrows an `int` to `int16_t` as the cast in C does;
    that the cast never cuts anything off is a theorem, not an assumption. -/

namespace FloorHeating

/-! ## Constants of `config.h` -/

def SENSOR_FAIL_READS : UInt8 := 3
def MAINTENANCE_INTERVAL_S : UInt32 := 7 * 24 * 3600
def MAINTENANCE_RUN_S : UInt32 := 60

def START_DEFAULT_X10 : Int16 := 300
def STOP_DEFAULT_X10 : Int16 := 250
def CRITICAL_DEFAULT_X10 : Int16 := 450
def START_MIN_X10 : Int := 200
def START_MAX_X10 : Int := 600
def STOP_MIN_X10 : Int := 100
def HYSTERESIS_MIN_X10 : Int := 20
def CRITICAL_MARGIN_MIN_X10 : Int := 50
def CRITICAL_MAX_X10 : Int := 800

/-! ## `settings.c` -/

/-- `settings_t`. -/
@[ext] structure Settings where
  start_x10 : Int16
  stop_x10 : Int16
  critical_x10 : Int16
  deriving DecidableEq, Repr

/-- The defaults, which are also the static initialiser of `s_settings`. -/
def default_settings : Settings := ⟨START_DEFAULT_X10, STOP_DEFAULT_X10, CRITICAL_DEFAULT_X10⟩

/-- `clamp`, with its cast to `int16_t`. -/
def clamp (v lo hi : Int) : Int16 :=
  Int16.ofInt (if v < lo then lo else if v > hi then hi else v)

/-- `sanitize`: the start threshold wins, stop and critical move around it. -/
def sanitize (s : Settings) : Settings :=
  let s := { s with start_x10 := clamp s.start_x10.toInt START_MIN_X10 START_MAX_X10 }
  -- the other two ranges depend on the start threshold just clamped
  let s := { s with
    stop_x10 := clamp s.stop_x10.toInt STOP_MIN_X10 (s.start_x10.toInt - HYSTERESIS_MIN_X10) }
  { s with
    critical_x10 :=
      clamp s.critical_x10.toInt (s.start_x10.toInt + CRITICAL_MARGIN_MIN_X10) CRITICAL_MAX_X10 }

/-- What NVS holds under the settings key: nothing (or it cannot be opened), a
    blob of another length, or six bytes that are read as three `int16_t`. -/
inductive NvsBlob where
  | missing
  | other_size (len : Nat)
  | stored (s : Settings)
  deriving DecidableEq, Repr

/-- `settings_init`: what the boot puts into `s_settings`. -/
def settings_init (nvs : NvsBlob) : Settings :=
  let s := match nvs with
    | .stored stored => stored
    | _ => default_settings
  sanitize s

/-- `config_from_settings` of `control.c`. -/
def config_from_settings (s : Settings) : CtlConfig where
  start_x10 := s.start_x10
  stop_x10 := s.stop_x10
  critical_x10 := s.critical_x10
  maintenance_interval_s := MAINTENANCE_INTERVAL_S
  maintenance_run_s := MAINTENANCE_RUN_S
  sensor_fail_reads := SENSOR_FAIL_READS

/-! ## Consistent thresholds -/

/-- The bounds `config.h` promises for the thresholds. -/
structure Settings.Valid (s : Settings) : Prop where
  start_min : START_MIN_X10 ≤ s.start_x10.toInt
  start_max : s.start_x10.toInt ≤ START_MAX_X10
  stop_min : STOP_MIN_X10 ≤ s.stop_x10.toInt
  stop_max : s.stop_x10.toInt ≤ s.start_x10.toInt - HYSTERESIS_MIN_X10
  critical_min : s.start_x10.toInt + CRITICAL_MARGIN_MIN_X10 ≤ s.critical_x10.toInt
  critical_max : s.critical_x10.toInt ≤ CRITICAL_MAX_X10

theorem Settings.valid_iff (s : Settings) : s.Valid ↔
    (START_MIN_X10 ≤ s.start_x10.toInt ∧ s.start_x10.toInt ≤ START_MAX_X10) ∧
    (STOP_MIN_X10 ≤ s.stop_x10.toInt ∧
      s.stop_x10.toInt ≤ s.start_x10.toInt - HYSTERESIS_MIN_X10) ∧
    s.start_x10.toInt + CRITICAL_MARGIN_MIN_X10 ≤ s.critical_x10.toInt ∧
      s.critical_x10.toInt ≤ CRITICAL_MAX_X10 := by
  constructor
  · intro h
    exact ⟨⟨h.start_min, h.start_max⟩, ⟨h.stop_min, h.stop_max⟩, h.critical_min, h.critical_max⟩
  · rintro ⟨⟨h₁, h₂⟩, ⟨h₃, h₄⟩, h₅, h₆⟩
    exact ⟨h₁, h₂, h₃, h₄, h₅, h₆⟩

instance (s : Settings) : Decidable s.Valid := decidable_of_iff _ s.valid_iff.symm

/-- The clamped value, before the cast. -/
def clamped (v lo hi : Int) : Int := max lo (min v hi)

theorem le_clamped (v lo hi : Int) : lo ≤ clamped v lo hi := by
  unfold clamped; omega

theorem clamped_le {lo hi : Int} (h : lo ≤ hi) (v : Int) : clamped v lo hi ≤ hi := by
  unfold clamped; omega

theorem clamped_eq_self_iff {v lo hi : Int} (h : lo ≤ hi) :
    clamped v lo hi = v ↔ lo ≤ v ∧ v ≤ hi := by
  unfold clamped; omega

/-- On a range that is not empty and lies inside `int16_t` the cast is exact. -/
theorem clamp_toInt {v lo hi : Int} (h : lo ≤ hi) (hlo : -32768 ≤ lo) (hhi : hi < 32768) :
    (clamp v lo hi).toInt = clamped v lo hi := by
  have hval : (if v < lo then lo else if v > hi then hi else v) = clamped v lo hi := by
    unfold clamped
    split
    · omega
    · split <;> omega
  -- between the bounds, and these are inside the type
  have hge := le_clamped v lo hi
  have hle := clamped_le h v
  unfold clamp
  rw [hval, Int16.toInt_ofInt_of_le (by omega) (by omega)]

section sanitize
variable (s : Settings)

/-- The three clamps in turn: each range is not empty, and no cast cuts. -/
theorem sanitize_start :
    (sanitize s).start_x10.toInt = clamped s.start_x10.toInt START_MIN_X10 START_MAX_X10 :=
  clamp_toInt (by decide) (by decide) (by decide)

theorem sanitize_start_bounds :
    START_MIN_X10 ≤ (sanitize s).start_x10.toInt ∧
      (sanitize s).start_x10.toInt ≤ START_MAX_X10 := by
  rw [sanitize_start]
  exact ⟨le_clamped _ _ _, clamped_le (by decide) _⟩

/-- The range left for the stop threshold. -/
theorem stop_range :
    STOP_MIN_X10 ≤ (sanitize s).start_x10.toInt - HYSTERESIS_MIN_X10 := by
  have := (sanitize_start_bounds s).1
  simp only [START_MIN_X10, STOP_MIN_X10, HYSTERESIS_MIN_X10] at this ⊢
  omega

/-- The range left for the critical threshold. -/
theorem critical_range :
    (sanitize s).start_x10.toInt + CRITICAL_MARGIN_MIN_X10 ≤ CRITICAL_MAX_X10 := by
  have := (sanitize_start_bounds s).2
  simp only [START_MAX_X10, CRITICAL_MAX_X10, CRITICAL_MARGIN_MIN_X10] at this ⊢
  omega

theorem sanitize_stop :
    (sanitize s).stop_x10.toInt = clamped s.stop_x10.toInt STOP_MIN_X10
      ((sanitize s).start_x10.toInt - HYSTERESIS_MIN_X10) := by
  have hmax := (sanitize_start_bounds s).2
  apply clamp_toInt (stop_range s) (by decide)
  simp only [START_MAX_X10] at hmax
  simp only [sanitize, HYSTERESIS_MIN_X10] at hmax ⊢
  omega

theorem sanitize_critical :
    (sanitize s).critical_x10.toInt = clamped s.critical_x10.toInt
      ((sanitize s).start_x10.toInt + CRITICAL_MARGIN_MIN_X10) CRITICAL_MAX_X10 := by
  have hmin := (sanitize_start_bounds s).1
  apply clamp_toInt (critical_range s)
  · simp only [START_MIN_X10] at hmin
    simp only [sanitize, CRITICAL_MARGIN_MIN_X10] at hmin ⊢
    omega
  · decide

/-- Whatever goes in, the result is consistent. -/
theorem sanitize_valid : (sanitize s).Valid where
  start_min := (sanitize_start_bounds s).1
  start_max := (sanitize_start_bounds s).2
  stop_min := by rw [sanitize_stop]; exact le_clamped _ _ _
  stop_max := by rw [sanitize_stop]; exact clamped_le (stop_range s) _
  critical_min := by rw [sanitize_critical]; exact le_clamped _ _ _
  critical_max := by rw [sanitize_critical]; exact clamped_le (critical_range s) _

variable {s}

/-- Consistent thresholds are left alone, and only those. -/
theorem sanitize_eq_self_iff : sanitize s = s ↔ s.Valid := by
  constructor
  · intro h
    exact h ▸ sanitize_valid s
  · -- start first: it is the bound of the other two
    intro h
    have hstart : (sanitize s).start_x10 = s.start_x10 := by
      rw [← Int16.toInt_inj, sanitize_start, clamped_eq_self_iff (by decide)]
      exact ⟨h.start_min, h.start_max⟩
    have hstop : (sanitize s).stop_x10 = s.stop_x10 := by
      rw [← Int16.toInt_inj, sanitize_stop, clamped_eq_self_iff (stop_range s), hstart]
      exact ⟨h.stop_min, h.stop_max⟩
    have hcritical : (sanitize s).critical_x10 = s.critical_x10 := by
      rw [← Int16.toInt_inj, sanitize_critical, clamped_eq_self_iff (critical_range s), hstart]
      exact ⟨h.critical_min, h.critical_max⟩
    exact Settings.ext hstart hstop hcritical

end sanitize

theorem sanitize_idempotent (s : Settings) : sanitize (sanitize s) = sanitize s :=
  sanitize_eq_self_iff.mpr (sanitize_valid s)

theorem default_settings_valid : default_settings.Valid := by decide

theorem settings_init_valid (nvs : NvsBlob) : (settings_init nvs).Valid :=
  sanitize_valid _

end FloorHeating
