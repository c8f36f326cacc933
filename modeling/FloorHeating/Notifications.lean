import FloorHeating.Events
import FloorHeating.Settings
import FloorHeating.Lib.Tenths

/-! # Notifications (`events.c`)

    `notify` turns an event into a message for one of the two topics, or
    into none.  Most messages report the temperature as `temp_text` prints
    it: the quotient by ten, a point and the size of the remainder, both
    truncated towards zero.  The sign of a temperature is that of its
    quotient, so it is lost where the quotient is zero.

    * `notify_reports`: every such message holds the whole text.
    * `temps_reported_iff`: the text is right, and tells temperatures apart,
      for all but those between -1.0 °C and 0 °C. -/

namespace FloorHeating

open Json Tenths

/-! ## `temp_text` -/

/-- `" °C"`, in the UTF-8 bytes of the source. -/
def CELSIUS : CStr := [' ', Char.ofNat 0xC2, Char.ofNat 0xB0, 'C']

/-- `sizeof(temp)`. -/
def TEMP_SIZE : Nat := 16

/-- `sizeof(msg)`. -/
def MSG_SIZE : Nat := 160

/-- `temp_text`. -/
def temp_text (e : Event) (len : Nat) : CStr :=
  if e.has_temp then
    snprintf len (decimal (e.temp_x10.toInt.tdiv 10) ++ '.' ::
      decimal (e.temp_x10.toInt.tmod 10).natAbs ++ CELSIUS)
  else snprintf len "no reading".toList

/-! ## `notify` -/

/-- The priorities `notify` uses. -/
inductive Priority where
  | default
  | low
  deriving DecidableEq, Repr

/-- What `notify` does with an event. -/
inductive Notice where
  /-- `hi_notify_event_ex(title, msg, prio, tag)`. -/
  | event (title msg : CStr) (prio : Priority) (tag : CStr)
  /-- An `ESP_LOGE` line, which the error topic gets. -/
  | error_line (msg : CStr)
  /-- `hi_notify_error(msg)`, after the same text as a warning in the log. -/
  | error (msg : CStr)
  deriving DecidableEq, Repr

/-- The text with the details. -/
def Notice.msg : Notice → CStr
  | .event _ msg _ _ => msg
  | .error_line msg => msg
  | .error msg => msg

/-- The case `EV_PUMP` of `notify`. -/
def notify_pump (e : Event) (temp : CStr) : Option Notice :=
  match e.reason with
  | .auto_hot => some (.event "Pump started".toList
      (snprintf MSG_SIZE ("Water ".toList ++ temp)) .default "arrows_counterclockwise".toList)
  | .auto_cold =>
    -- the end of a maintenance run is not worth a ping
    if e.prev_reason = .maintenance then none
    else some (.event "Pump stopped".toList
      (snprintf MSG_SIZE ("Water ".toList ++ temp ++
        if e.prev_reason = .manual_on then ", manual run ended".toList else []))
      (if e.prev_reason = .manual_on then .low else .default) "zzz".toList)
  | .manual_on | .manual_off => some (.event
      (if e.on then "Pump started manually".toList else "Pump stopped manually".toList)
      (snprintf MSG_SIZE ("Water ".toList ++ temp ++ (", ".toList ++ e.detail))) .low
      (if e.on then "arrows_counterclockwise".toList else "zzz".toList))
  | .maintenance => some (.event "Pump maintenance run".toList
      (snprintf MSG_SIZE ("Anti-seize run for ".toList ++ decimal MAINTENANCE_RUN_S.toNat ++
        " s after ".toList ++ decimal (MAINTENANCE_INTERVAL_S / 86400).toNat ++
        " days idle, water ".toList ++ temp)) .low "wrench".toList)
  -- the error topic already has it
  | .sensor_fail | .overheat => none

/-- `notify`, with the temperature text already in its buffer. -/
def notify_event (e : Event) (temp : CStr) : Option Notice :=
  match e.type with
  | .pump => notify_pump e temp
  | .overheat =>
    if e.on then
      some (.error_line ("Overheat: water ".toList ++ temp ++ ", pump forced on".toList))
    else some (.error (snprintf MSG_SIZE ("Overheat over: water ".toList ++ temp)))
  | .sensor =>
    if e.on then
      some (.error_line ("Temperature sensor failed ".toList ++ decimal SENSOR_FAIL_READS.toNat ++
        " times in a row, pump on as a fail-safe".toList))
    else some (.error (snprintf MSG_SIZE
      ("Temperature sensor recovered: water ".toList ++ temp)))
  | .manual_end => none

/-- `notify`. -/
def notify (e : Event) : Option Notice := notify_event e (temp_text e TEMP_SIZE)

/-! ## The temperature in a text -/

/-- The temperature a text says. -/
def read_celsius (text : CStr) : Option ℚ :=
  match read_tenths text with
  | some (q, rest) => if rest = CELSIUS then some q else none
  | none => none

/-- What is printed: a temperature between -1.0 °C and 0 °C goes without its
    sign. -/
def shown_x10 (t : Int) : Int := if -10 < t ∧ t < 0 then -t else t

/-- The sign of the temperature is printed, or there is none. -/
def SignShown (e : Event) : Prop := e.temp_x10.toInt ≤ -10 ∨ 0 ≤ e.temp_x10.toInt

/-- Quotient and remainder, printed one after the other. -/
theorem decimal_tdiv_tmod (t : Int) :
    decimal (t.tdiv 10) ++ '.' :: decimal (t.tmod 10).natAbs = tenths (shown_x10 t) := by
  have hrem : (t.tmod 10).natAbs = t.natAbs % 10 := Int.natAbs_tmod t 10
  have hquot : (t.tdiv 10).natAbs = t.natAbs / 10 := Int.natAbs_tdiv t 10
  have habs : (shown_x10 t).natAbs = t.natAbs := by
    unfold shown_x10
    split <;> omega
  have hdigit : decimal ((t.natAbs % 10 : Nat) : Int) = Nat.toDigits 10 (t.natAbs % 10) := by
    unfold decimal
    rw [if_neg (by omega), Int.natAbs_natCast]
  -- a quotient is negative from -10 on
  have hsign : t.tdiv 10 < 0 ↔ shown_x10 t < 0 := by
    have hdiv : t.tdiv 10 = if 0 ≤ t then t / 10 else -(-t / 10) := by
      split
      · rename_i ht
        exact Int.tdiv_eq_ediv_of_nonneg ht
      · rw [← Int.tdiv_eq_ediv_of_nonneg (by omega), Int.neg_tdiv, neg_neg]
    unfold shown_x10
    rw [hdiv]
    split <;> split <;> omega
  unfold decimal at hdigit ⊢
  unfold tenths unsigned
  rw [hrem, hdigit, hquot, habs]
  by_cases hneg : shown_x10 t < 0
  · rw [if_pos hneg, if_pos (hsign.mpr hneg)]
    rfl
  · rw [if_neg hneg, if_neg (fun h => hneg (hsign.mp h))]

/-- The buffer of 16 bytes is large enough. -/
theorem temp_text_eq {e : Event} (h : e.has_temp = true) :
    temp_text e TEMP_SIZE = tenths (shown_x10 e.temp_x10.toInt) ++ CELSIUS := by
  have hlow := e.temp_x10.le_toInt
  have hhigh := e.temp_x10.toInt_lt
  have habs : (shown_x10 e.temp_x10.toInt).natAbs < 10 * Nat.pow 10 4 := by
    have hpow : Nat.pow 10 4 = 10000 := rfl
    unfold shown_x10
    split <;> omega
  have hlength := tenths_length (by decide) habs
  unfold temp_text
  rw [if_pos h, decimal_tdiv_tmod, snprintf_fits]
  simp only [CELSIUS, TEMP_SIZE, List.length_append, List.length_cons, List.length_nil]
  omega

/-- The text can be read back, whatever follows it. -/
theorem read_temp_text {e : Event} (h : e.has_temp = true) (rest : CStr) :
    read_tenths (temp_text e TEMP_SIZE ++ rest) =
      some ((shown_x10 e.temp_x10.toInt : ℚ) / 10, CELSIUS ++ rest) := by
  rw [temp_text_eq h, List.append_assoc]
  exact tenths_reads _ _ (stops_cons (by decide))

theorem read_celsius_temp_text {e : Event} (h : e.has_temp = true) :
    read_celsius (temp_text e TEMP_SIZE) = some ((shown_x10 e.temp_x10.toInt : ℚ) / 10) := by
  have hread := read_temp_text h []
  rw [List.append_nil, List.append_nil] at hread
  unfold read_celsius
  rw [hread]
  exact if_pos rfl

/-- Two temperatures have one text where only the sign was lost. -/
theorem temp_text_inj {e₁ e₂ : Event} (h₁ : e₁.has_temp = true) (h₂ : e₂.has_temp = true) :
    temp_text e₁ TEMP_SIZE = temp_text e₂ TEMP_SIZE ↔
      shown_x10 e₁.temp_x10.toInt = shown_x10 e₂.temp_x10.toInt := by
  rw [temp_text_eq h₁, temp_text_eq h₂, List.append_cancel_right_eq, tenths_inj]

theorem shown_x10_eq_iff (e : Event) :
    shown_x10 e.temp_x10.toInt = e.temp_x10.toInt ↔ SignShown e := by
  unfold shown_x10 SignShown
  split <;> omega

/-! ## The temperature in a message -/

/-- The message holds the temperature text in full, behind a text that is the
    same for every temperature. -/
def Mentions (message : CStr → Option Notice) : Prop :=
  ∃ before : CStr, ∀ temp : CStr, temp.length < TEMP_SIZE →
    ∃ n after, message temp = some n ∧ n.msg = before ++ temp ++ after

theorem mentions_intro {message : CStr → Notice} {before : CStr}
    (h : ∀ temp : CStr, temp.length < TEMP_SIZE →
      ∃ after, (message temp).msg = before ++ temp ++ after) :
    Mentions fun temp => some (message temp) := by
  refine ⟨before, ?_⟩
  intro temp htemp
  obtain ⟨after, hmsg⟩ := h temp htemp
  exact ⟨message temp, after, rfl, hmsg⟩

/-- In the buffer of 160 bytes only the text behind the temperature can be cut. -/
theorem snprintf_mentions {before temp : CStr} (hbefore : before.length ≤ 100)
    (htemp : temp.length < TEMP_SIZE) (after : CStr) :
    ∃ after', snprintf MSG_SIZE (before ++ temp ++ after) = before ++ temp ++ after' := by
  refine ⟨_, snprintf_append ?_ after⟩
  simp only [MSG_SIZE, TEMP_SIZE, List.length_append] at htemp ⊢
  omega

theorem snprintf_mentions_last {before temp : CStr} (hbefore : before.length ≤ 100)
    (htemp : temp.length < TEMP_SIZE) :
    ∃ after', snprintf MSG_SIZE (before ++ temp) = before ++ temp ++ after' := by
  simpa using snprintf_mentions hbefore htemp []

theorem notify_pump_mentions {e : Event} {temp : CStr} (h : notify_pump e temp ≠ none) :
    Mentions (notify_pump e) := by
  have hwater : "Water ".toList.length ≤ 100 := by decide
  unfold notify_pump at h ⊢
  cases hreason : e.reason with
  | auto_hot => exact mentions_intro fun temp htemp => snprintf_mentions_last hwater htemp
  | auto_cold =>
    by_cases hprev : e.prev_reason = .maintenance
    · simp [hreason, hprev] at h
    · simp only [if_neg hprev]
      exact mentions_intro fun temp htemp => snprintf_mentions hwater htemp _
  | manual_on | manual_off =>
    exact mentions_intro fun temp htemp => snprintf_mentions hwater htemp _
  | maintenance =>
    exact mentions_intro fun temp htemp => snprintf_mentions_last (by decide) htemp
  | sensor_fail | overheat => simp [hreason] at h

/-- Every message of `notify` but the one of a failed sensor mentions the
    temperature. -/
theorem notify_event_mentions {e : Event} {temp : CStr} (h : notify_event e temp ≠ none)
    (hfailed : ¬ (e.type = .sensor ∧ e.on = true)) : Mentions (notify_event e) := by
  unfold notify_event at h ⊢
  cases htype : e.type with
  | pump =>
    rw [htype] at h
    exact notify_pump_mentions h
  | overheat =>
    by_cases hon : e.on = true
    · simp only [if_pos hon]
      exact mentions_intro fun temp _ => ⟨_, rfl⟩
    · simp only [if_neg hon]
      exact mentions_intro fun temp htemp => snprintf_mentions_last (by decide) htemp
  | sensor =>
    by_cases hon : e.on = true
    · exact absurd ⟨htype, hon⟩ hfailed
    · simp only [if_neg hon]
      exact mentions_intro fun temp htemp => snprintf_mentions_last (by decide) htemp
  | manual_end => simp [htype] at h

theorem temp_text_length (e : Event) : (temp_text e TEMP_SIZE).length < TEMP_SIZE := by
  have hcut : ∀ text : CStr, (snprintf TEMP_SIZE text).length < TEMP_SIZE := by
    intro text
    have hlength := List.length_take_le (TEMP_SIZE - 1) text
    unfold snprintf
    simp only [TEMP_SIZE] at hlength ⊢
    omega
  unfold temp_text
  split <;> exact hcut _

/-- **Messages and temperatures.**  Of two events that differ in their
    temperatures alone the messages that mention them are the same exactly if
    the temperatures are shown the same. -/
theorem notify_same_iff {e₁ e₂ : Event} {t : Int16} (he : e₂ = { e₁ with temp_x10 := t })
    (htemp : e₁.has_temp = true) (hmessage : notify e₁ ≠ none)
    (hfailed : ¬ (e₁.type = .sensor ∧ e₁.on = true)) :
    notify e₁ = notify e₂ ↔ shown_x10 e₁.temp_x10.toInt = shown_x10 e₂.temp_x10.toInt := by
  have htemp' : e₂.has_temp = true := he ▸ htemp
  -- `notify` looks at the temperature only through its text
  have hframe : notify_event e₂ = notify_event e₁ := by
    subst he
    rfl
  constructor
  · intro hsame
    obtain ⟨before, hbefore⟩ := notify_event_mentions hmessage hfailed
    obtain ⟨n, after, hn, hmsg⟩ := hbefore _ (temp_text_length e₁)
    obtain ⟨n', after', hn', hmsg'⟩ := hbefore _ (temp_text_length e₂)
    unfold notify at hsame
    rw [hframe, hn, hn', Option.some.injEq] at hsame
    rw [hsame, hmsg', List.append_assoc, List.append_assoc, List.append_cancel_left_eq] at hmsg
    have hread := read_temp_text htemp after
    rw [← hmsg, read_temp_text htemp' after', Option.some.injEq, Prod.mk.injEq] at hread
    have hvalue : (shown_x10 e₁.temp_x10.toInt : ℚ) = shown_x10 e₂.temp_x10.toInt := by
      linarith [hread.1]
    exact_mod_cast hvalue
  · intro hshown
    unfold notify
    rw [hframe, (temp_text_inj htemp htemp').mpr hshown]

/-! ## Right temperatures -/

/-- What the messages say of the temperatures of two events is right, and tells
    different ones apart. -/
structure TempsReported (e₁ e₂ : Event) : Prop where
  first : read_celsius (temp_text e₁ TEMP_SIZE) = some ((e₁.temp_x10.toInt : ℚ) / 10)
  second : read_celsius (temp_text e₂ TEMP_SIZE) = some ((e₂.temp_x10.toInt : ℚ) / 10)
  distinct : e₁.temp_x10 ≠ e₂.temp_x10 → temp_text e₁ TEMP_SIZE ≠ temp_text e₂ TEMP_SIZE

theorem read_right_iff {e : Event} (h : e.has_temp = true) :
    read_celsius (temp_text e TEMP_SIZE) = some ((e.temp_x10.toInt : ℚ) / 10) ↔ SignShown e := by
  rw [read_celsius_temp_text h, Option.some.injEq, ← shown_x10_eq_iff]
  constructor
  · intro hvalue
    have hcast : (shown_x10 e.temp_x10.toInt : ℚ) = e.temp_x10.toInt := by linarith
    exact_mod_cast hcast
  · intro hshown
    rw [hshown]

/-- **Notification texts report the measured temperature**, both of two events,
    exactly if neither lies between -1.0 °C and 0 °C.  Every message but that
    of a failed sensor holds the text in full. -/
theorem temps_reported_iff (e₁ e₂ : Event) (h₁ : e₁.has_temp = true) (h₂ : e₂.has_temp = true) :
    (TempsReported e₁ e₂ ↔ SignShown e₁ ∧ SignShown e₂) ∧
      ∀ e n, notify e = some n → ¬ (e.type = .sensor ∧ e.on = true) →
        ∃ before after, n.msg = before ++ temp_text e TEMP_SIZE ++ after := by
  refine ⟨⟨?_, ?_⟩, ?_⟩
  · rintro ⟨hfirst, hsecond, -⟩
    exact ⟨(read_right_iff h₁).mp hfirst, (read_right_iff h₂).mp hsecond⟩
  · rintro ⟨hsign₁, hsign₂⟩
    refine ⟨(read_right_iff h₁).mpr hsign₁, (read_right_iff h₂).mpr hsign₂, ?_⟩
    intro hne htext
    have hshown := (temp_text_inj h₁ h₂).mp htext
    rw [(shown_x10_eq_iff e₁).mpr hsign₁, (shown_x10_eq_iff e₂).mpr hsign₂] at hshown
    exact hne (Int16.toInt_inj.mp hshown)
  · intro e n hn hfailed
    have hsome : notify_event e (temp_text e TEMP_SIZE) ≠ none := by
      intro hnone
      rw [notify, hnone] at hn
      simp at hn
    obtain ⟨before, hbefore⟩ := notify_event_mentions hsome hfailed
    obtain ⟨n', after, hn', hmsg⟩ := hbefore _ (temp_text_length e)
    rw [notify, hn'] at hn
    exact ⟨before, after, Option.some.inj hn ▸ hmsg⟩

/-- The event of a sensor that recovers with the reading `t`. -/
def recovered_event (t : Int16) : Event where
  type := .sensor
  mono_s := 15
  on := false
  reason := .sensor_fail
  has_temp := true
  temp_x10 := t

/-- Readings of 31.5 °C and of -1.2 °C. -/
theorem temps_reported_recovered :
    TempsReported (recovered_event 315) (recovered_event (-12)) :=
  (temps_reported_iff _ _ rfl rfl).1.mpr ⟨Or.inr (by decide), Or.inl (by decide)⟩

/-- A reading of -0.5 °C: the message says 0.5 °C, as it does for 0.5 °C. -/
theorem frost_reported_warm :
    temp_text (recovered_event (-5)) TEMP_SIZE = "0.5".toList ++ CELSIUS ∧
      notify (recovered_event (-5)) =
        some (.error ("Temperature sensor recovered: water 0.5".toList ++ CELSIUS)) ∧
      notify (recovered_event 5) = notify (recovered_event (-5)) ∧
      read_celsius (temp_text (recovered_event (-5)) TEMP_SIZE) ≠
        some (((recovered_event (-5)).temp_x10.toInt : ℚ) / 10) ∧
      ¬ TempsReported (recovered_event (-5)) (recovered_event 5) := by
  have hlost : ¬ SignShown (recovered_event (-5)) := by
    unfold SignShown
    decide
  have hread : read_celsius (temp_text (recovered_event (-5)) TEMP_SIZE) ≠
      some (((recovered_event (-5)).temp_x10.toInt : ℚ) / 10) :=
    fun h => hlost ((read_right_iff rfl).mp h)
  exact ⟨by decide, by decide, by decide, hread, fun h => hread h.first⟩

end FloorHeating
