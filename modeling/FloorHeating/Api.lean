import FloorHeating.Control
import FloorHeating.Lib.Binary64

/-! # The HTTP API (`api.c`)

    What the handlers take out of a request body, and what `status_json`
    reports of the pump.  A body is its items by key, as
    `cJSON_GetObjectItemCaseSensitive` finds them; a number is the one its
    text says.

    The code computes with doubles.  For the minutes of an override that is
    modelled (`valuedouble`, `minutes_duration_s`), as a truncation shows the
    last bit: 2.05 minutes are 122 s.  For the thresholds it is not: see
    `json_celsius`. -/

namespace FloorHeating

open Binary64

/-- A cJSON item, as far as the handlers look at it; a number is that of the
    text. -/
inductive Item where
  | string (text : CStr)
  | number (value : ℚ)
  | other
  deriving DecidableEq, Repr

/-- A request body: `none` for a key that is absent. -/
abbrev Body := CStr → Option Item

/-! ## `POST /api/pump` -/

/-- The override a `"state"` asks for, or `none` where it is none of the three
    texts. -/
def state_manual : Option Item → Option CtlManual
  | some (.string text) =>
    if text = "start".toList then some .start
    else if text = "stop".toList then some .stop
    else if text = "auto".toList then some .none
    else none
  | _ => none

/-- `valuedouble` of a number: the double the parser reads the text as. -/
def valuedouble (value : ℚ) : ℚ := round64 value

/-- `minutes->valuedouble * 60`, cut at the maximum and truncated to seconds.
    `minutes` is a double and so is the product, which is rounded: 60 times
    the double 1.15 is below 69, and gives 69. -/
def minutes_duration_s (minutes : ℚ) : UInt32 :=
  if round64 (minutes * 60) > MANUAL_MAX_S.toNat then MANUAL_MAX_S
  else UInt32.ofNat ⌊round64 (minutes * 60)⌋₊

/-- A `"minutes"` that is a positive number, as a double: a text too small for
    one is zero. -/
def positive_minutes : Option Item → Option ℚ
  | some (.number value) => if valuedouble value > 0 then some (valuedouble value) else none
  | _ => none

/-- `pump_command` up to its call of `control_manual`: the request, or the
    field its 400 answer names. -/
def pump_command (body : Body) (who : CStr) : Except CStr Request :=
  match state_manual (body "state".toList) with
  | none => .error "state".toList
  -- `auto` ends an override and needs no minutes
  | some .none => .ok ⟨.none, 0, who⟩
  | some manual => match positive_minutes (body "minutes".toList) with
    | none => .error "minutes".toList
    | some minutes => .ok ⟨manual, minutes_duration_s minutes, who⟩

/-- `sizeof(ip)`. -/
def IP_SIZE : Nat := 16

/-- `pump_handler` past its guard: the caller is named by what
    `hi_httpd_client_ip` writes into a buffer of the given size. -/
def pump_handler (hi_httpd_client_ip : Nat → CStr) (body : Body) : Except CStr Request :=
  pump_command body (hi_httpd_client_ip IP_SIZE)

/-- The minutes become `min(43200, trunc(60 * minutes))` seconds, of the
    rounded product. -/
theorem minutes_duration_s_eq (minutes : ℚ) :
    (minutes_duration_s minutes).toNat = min 43200 ⌊round64 (60 * minutes)⌋₊ := by
  have hmax : MANUAL_MAX_S.toNat = 43200 := rfl
  unfold minutes_duration_s
  rw [hmax, mul_comm 60 minutes]
  by_cases h : round64 (minutes * 60) > (43200 : ℕ)
  · rw [if_pos h, hmax]
    have hle : 43200 ≤ ⌊round64 (minutes * 60)⌋₊ := Nat.le_floor h.le
    omega
  · rw [if_neg h]
    have hle : ⌊round64 (minutes * 60)⌋₊ ≤ 43200 := Nat.floor_le_of_le (not_lt.mp h)
    have hsmall : ⌊round64 (minutes * 60)⌋₊ < UInt32.size := lt_of_le_of_lt hle (by decide)
    rw [UInt32.toNat_ofNat_of_lt' hsmall]
    omega

/-- A whole number of minutes loses nothing. -/
theorem minutes_duration_s_whole {n : Nat} (h : n ≤ 720) :
    (minutes_duration_s (valuedouble n)).toNat = 60 * n := by
  have hn : valuedouble n = n := by
    have hdouble : IsBinary64 ((n : ℤ) : ℚ) := isBinary64_intCast (by norm_num; omega)
    simpa [valuedouble] using hdouble.round64_eq
  have hproduct : round64 (60 * n) = ((60 * n : ℕ) : ℚ) := by
    have hdouble : IsBinary64 ((60 * n : ℤ) : ℚ) := isBinary64_intCast (by norm_num; omega)
    simpa using hdouble.round64_eq
  rw [minutes_duration_s_eq, hn, hproduct, Nat.floor_natCast]
  omega

/-- The requests of the handlers: an override is for a positive number of
    minutes, in seconds as `minutes_duration_s_eq` has them. -/
theorem pump_command_duration {body : Body} {who : CStr} {q : Request}
    (h : pump_command body who = .ok q) (hm : q.manual ≠ .none) :
    ∃ minutes : ℚ, 0 < valuedouble minutes ∧ body "minutes".toList = some (.number minutes) ∧
      q.duration_s.toNat = min 43200 ⌊round64 (60 * valuedouble minutes)⌋₊ := by
  unfold pump_command at h
  split at h
  · simp at h
  · obtain rfl := Except.ok.inj h
    exact absurd rfl hm
  · split at h
    · simp at h
    · rename_i minutes hminutes
      obtain rfl := Except.ok.inj h
      unfold positive_minutes at hminutes
      split at hminutes
      · rename_i value hitem
        split at hminutes
        · rename_i hpos
          obtain rfl := Option.some.inj hminutes
          exact ⟨value, hpos, hitem, minutes_duration_s_eq (valuedouble value)⟩
        · simp at hminutes
      · simp at hminutes

/-- A request for an override with enough minutes passes the checks. -/
theorem pump_command_override {body : Body} {manual : CtlManual} {minutes : ℚ}
    (hstate : state_manual (body "state".toList) = some manual) (hmanual : manual ≠ .none)
    (hminutes : positive_minutes (body "minutes".toList) = some minutes) (who : CStr) :
    pump_command body who = .ok ⟨manual, minutes_duration_s minutes, who⟩ := by
  unfold pump_command
  rw [hstate]
  cases manual with
  | none => exact absurd rfl hmanual
  | start | stop => simp only [hminutes]

/-- The caller is passed on as it is named. -/
theorem pump_command_who {body : Body} {who : CStr} {q : Request}
    (h : pump_command body who = .ok q) : q.who = who := by
  unfold pump_command at h
  split at h
  · simp at h
  · obtain rfl := Except.ok.inj h
    rfl
  · split at h
    · simp at h
    · obtain rfl := Except.ok.inj h
      rfl

/-! ## `POST /api/settings` -/

/-- The cast of a `double` to an integer type: towards zero. -/
def trunc (v : ℚ) : Int := if v < 0 then ⌈v⌉ else ⌊v⌋

/-- `json_celsius`: the field after the item, a number in (-100, 200) rounded to
    0.1 °C.

    In exact arithmetic, where the code rounds the number, its product and the
    sum to doubles.  That only shows next to a half of a tenth or to a limit,
    in the last tenth or in whether the number is taken: the text
    28.449999999999999999 gives 284 here and 285 in the code. -/
def json_celsius (item : Option Item) (field : Int16) : Int16 :=
  match item with
  | some (.number value) =>
    if value > -100 ∧ value < 200 then
      let v := value * 10
      -- halves away from zero, as the cast truncates
      Int16.ofInt (trunc (if v < 0 then v - 1 / 2 else v + 1 / 2))
    else field
  | _ => field

/-- The triple `settings_handler` passes to `settings_set`, from the settings it
    got and the body. -/
def settings_request (s : Settings) (body : Body) : Settings where
  start_x10 := json_celsius (body "start_c".toList) s.start_x10
  stop_x10 := json_celsius (body "stop_c".toList) s.stop_x10
  critical_x10 := json_celsius (body "critical_c".toList) s.critical_x10

/-! ## `GET /api/status` -/

/-- `pump.state_s` of the status: how long the pump has been as it is. -/
def status_state_s (s : CtlState) (now_mono_s : Int) : Int := now_mono_s - s.changed_s

/-- `pump.idle_s` of the status: how long the pump has been off. -/
def status_idle_s (s : CtlState) (now_mono_s : Int) : Int :=
  if s.on then 0 else now_mono_s - s.last_on_s

end FloorHeating
