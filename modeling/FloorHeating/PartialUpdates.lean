import FloorHeating.Api
import FloorHeating.Firmware

/-! # Partial threshold updates

    A `POST /api/settings` may name any of the three thresholds.  It is read
    over the settings in force, clamped as a whole and stored as a whole, so
    every post clamps all three.  Still the fields do not get in each
    other's way: what one post leaves of a field it does not name is what
    the next one would have made of it. -/

namespace FloorHeating

open LTS

/-! ## One post -/

/-- The triple `settings_handler` leaves in the settings, from the one in force
    and the body. -/
def settings_post (s : Settings) (body : Body) : Settings := sanitize (settings_request s body)

/-- A post in the firmware, by a caller nothing interleaves with: both the
    settings and the flash hold that triple. -/
theorem settings_post_saves {s : Firmware} {c : Nat} (hfree : s.s_write_lock = none)
    (hidle : s.callers c = .idle) (body : Body) :
    firmware.exec s (save_labels c (settings_request s.s_settings body)) =
      some { s with
        s_settings := settings_post s.s_settings body
        nvs := .stored (settings_post s.s_settings body) } :=
  save_exec hfree hidle (settings_request s.s_settings body)

/-- The body cut down to one of its fields. -/
def Body.only (body : Body) (key : CStr) : Body := fun k => if k = key then body k else none

/-- An item `json_celsius` passes over: absent, no number, or out of range. -/
def Ignored : Option Item → Prop
  | some (.number value) => ¬ (value > -100 ∧ value < 200)
  | _ => True

theorem json_celsius_ignored {item : Option Item} (h : Ignored item) (field : Int16) :
    json_celsius item field = field := by
  unfold json_celsius
  split
  · rename_i value
    rw [if_neg h]
  · rfl

/-- What is not ignored does not look at the field. -/
theorem json_celsius_accepted {item : Option Item} (h : ¬ Ignored item) (field field' : Int16) :
    json_celsius item field = json_celsius item field' := by
  match item with
  | some (.number value) =>
    have hrange : value > -100 ∧ value < 200 := Decidable.not_not.mp h
    simp only [json_celsius, if_pos hrange]
  | some (.string _) | some .other | none => exact absurd trivial h

theorem clamped_idem {lo hi : Int} (h : lo ≤ hi) (v : Int) :
    clamped (clamped v lo hi) lo hi = clamped v lo hi :=
  (clamped_eq_self_iff h).mpr ⟨le_clamped v lo hi, clamped_le h v⟩

/-- A field that was clamped to its range before the post comes out as it
    would have without that. -/
theorem clamped_json_celsius {lo hi : Int} (h : lo ≤ hi) (item : Option Item) {field field' : Int16}
    (hfield : field'.toInt = clamped field.toInt lo hi) :
    clamped (json_celsius item field').toInt lo hi = clamped (json_celsius item field).toInt lo hi := by
  by_cases hitem : Ignored item
  · rw [json_celsius_ignored hitem, json_celsius_ignored hitem, hfield, clamped_idem h]
  · rw [json_celsius_accepted hitem field' field]

/-! ## The three fields of a post -/

section post
variable (s : Settings) (body : Body)

theorem settings_post_valid : (settings_post s body).Valid := sanitize_valid _

theorem settings_post_start : (settings_post s body).start_x10.toInt =
    clamped (json_celsius (body "start_c".toList) s.start_x10).toInt START_MIN_X10 START_MAX_X10 :=
  sanitize_start _

theorem settings_post_stop : (settings_post s body).stop_x10.toInt =
    clamped (json_celsius (body "stop_c".toList) s.stop_x10).toInt STOP_MIN_X10
      ((settings_post s body).start_x10.toInt - HYSTERESIS_MIN_X10) :=
  sanitize_stop _

theorem settings_post_critical : (settings_post s body).critical_x10.toInt =
    clamped (json_celsius (body "critical_c".toList) s.critical_x10).toInt
      ((settings_post s body).start_x10.toInt + CRITICAL_MARGIN_MIN_X10) CRITICAL_MAX_X10 :=
  sanitize_critical _

/-- The ranges a post leaves for stop and critical. -/
theorem settings_post_stop_range :
    STOP_MIN_X10 ≤ (settings_post s body).start_x10.toInt - HYSTERESIS_MIN_X10 :=
  stop_range _

theorem settings_post_critical_range :
    (settings_post s body).start_x10.toInt + CRITICAL_MARGIN_MIN_X10 ≤ CRITICAL_MAX_X10 :=
  critical_range _

/-- Without a start threshold the one in force stays. -/
theorem settings_post_start_ignored {s : Settings} (hs : s.Valid) {body : Body}
    (h : Ignored (body "start_c".toList)) : (settings_post s body).start_x10 = s.start_x10 := by
  rw [← Int16.toInt_inj, settings_post_start, json_celsius_ignored h,
    clamped_eq_self_iff (by decide)]
  exact ⟨hs.start_min, hs.start_max⟩

/-- Without a stop threshold the one in force stays, or moves to its margin. -/
theorem settings_post_stop_ignored {s : Settings} (hs : s.Valid) {body : Body}
    (h : Ignored (body "stop_c".toList)) :
    (settings_post s body).stop_x10.toInt =
      if s.stop_x10.toInt ≤ (settings_post s body).start_x10.toInt - HYSTERESIS_MIN_X10
      then s.stop_x10.toInt
      else (settings_post s body).start_x10.toInt - HYSTERESIS_MIN_X10 := by
  have hmin := hs.stop_min
  have hrange := settings_post_stop_range s body
  rw [settings_post_stop, json_celsius_ignored h]
  unfold clamped
  split <;> omega

/-- Without a critical threshold the one in force stays, or moves to its
    margin. -/
theorem settings_post_critical_ignored {s : Settings} (hs : s.Valid) {body : Body}
    (h : Ignored (body "critical_c".toList)) :
    (settings_post s body).critical_x10.toInt =
      if (settings_post s body).start_x10.toInt + CRITICAL_MARGIN_MIN_X10 ≤ s.critical_x10.toInt
      then s.critical_x10.toInt
      else (settings_post s body).start_x10.toInt + CRITICAL_MARGIN_MIN_X10 := by
  have hmax := hs.critical_max
  have hrange := settings_post_critical_range s body
  rw [settings_post_critical, json_celsius_ignored h]
  unfold clamped
  split <;> omega

/-- A post with nothing in it. -/
theorem settings_post_ignored {s : Settings} (hs : s.Valid) {body : Body}
    (hstart : Ignored (body "start_c".toList)) (hstop : Ignored (body "stop_c".toList))
    (hcritical : Ignored (body "critical_c".toList)) : settings_post s body = s := by
  have hrequest : settings_request s body = s := by
    unfold settings_request
    rw [json_celsius_ignored hstart, json_celsius_ignored hstop, json_celsius_ignored hcritical]
  rw [settings_post, hrequest, sanitize_eq_self_iff]
  exact hs

/-- Where the start threshold stays, so does a stop threshold that is not
    named. -/
theorem settings_post_stop_kept {s : Settings} (hs : s.Valid) {body : Body}
    (hstart : Ignored (body "start_c".toList)) (hstop : Ignored (body "stop_c".toList)) :
    (settings_post s body).stop_x10 = s.stop_x10 := by
  rw [← Int16.toInt_inj, settings_post_stop_ignored hs hstop, settings_post_start_ignored hs hstart,
    if_pos hs.stop_max]

theorem settings_post_critical_kept {s : Settings} (hs : s.Valid) {body : Body}
    (hstart : Ignored (body "start_c".toList)) (hcritical : Ignored (body "critical_c".toList)) :
    (settings_post s body).critical_x10 = s.critical_x10 := by
  rw [← Int16.toInt_inj, settings_post_critical_ignored hs hcritical,
    settings_post_start_ignored hs hstart, if_pos hs.critical_min]

end post

/-! ## Three posts and one -/

section partial_posts
variable {s t : Settings} (body : Body)

theorem only_start_c : (body.only "start_c".toList) "start_c".toList = body "start_c".toList := rfl
theorem only_stop_c : (body.only "stop_c".toList) "stop_c".toList = body "stop_c".toList := rfl
theorem only_critical_c :
    (body.only "critical_c".toList) "critical_c".toList = body "critical_c".toList := rfl

/-- A post of the stop threshold alone leaves the others alone. -/
theorem stop_post_keeps (ht : t.Valid) :
    (settings_post t (body.only "stop_c".toList)).start_x10 = t.start_x10 ∧
      (settings_post t (body.only "stop_c".toList)).critical_x10 = t.critical_x10 :=
  ⟨settings_post_start_ignored ht trivial, settings_post_critical_kept ht trivial trivial⟩

theorem critical_post_keeps (ht : t.Valid) :
    (settings_post t (body.only "critical_c".toList)).start_x10 = t.start_x10 ∧
      (settings_post t (body.only "critical_c".toList)).stop_x10 = t.stop_x10 :=
  ⟨settings_post_start_ignored ht trivial, settings_post_stop_kept ht trivial trivial⟩

/-- A post of the critical threshold alone looks at the start threshold and the
    critical one only. -/
theorem critical_post_congr {u : Settings} (ht : t.Valid) (hu : u.Valid)
    (hstart : u.start_x10 = t.start_x10) (hcritical : u.critical_x10 = t.critical_x10) :
    (settings_post u (body.only "critical_c".toList)).critical_x10 =
      (settings_post t (body.only "critical_c".toList)).critical_x10 := by
  rw [← Int16.toInt_inj, settings_post_critical, settings_post_critical,
    (critical_post_keeps body hu).1, (critical_post_keeps body ht).1, hstart, hcritical]

theorem stop_post_congr {u : Settings} (ht : t.Valid) (hu : u.Valid)
    (hstart : u.start_x10 = t.start_x10) (hstop : u.stop_x10 = t.stop_x10) :
    (settings_post u (body.only "stop_c".toList)).stop_x10 =
      (settings_post t (body.only "stop_c".toList)).stop_x10 := by
  rw [← Int16.toInt_inj, settings_post_stop, settings_post_stop, (stop_post_keeps body hu).1,
    (stop_post_keeps body ht).1, hstart, hstop]

/-- What a post of the start threshold alone makes of `s`: the start threshold
    of the whole post, and the other two clamped to it. -/
structure StartPosted (s : Settings) (body : Body) (t : Settings) : Prop where
  valid : t.Valid
  start : t.start_x10 = (settings_post s body).start_x10
  stop : (settings_post t (body.only "stop_c".toList)).stop_x10 = (settings_post s body).stop_x10
  critical : (settings_post t (body.only "critical_c".toList)).critical_x10 =
    (settings_post s body).critical_x10

theorem startPosted (s : Settings) :
    StartPosted s body (settings_post s (body.only "start_c".toList)) := by
  have hvalid := settings_post_valid s (body.only "start_c".toList)
  have hstart : (settings_post s (body.only "start_c".toList)).start_x10 =
      (settings_post s body).start_x10 := by
    rw [← Int16.toInt_inj, settings_post_start, settings_post_start, only_start_c]
  have habsent : Ignored (body.only "start_c".toList "stop_c".toList) := trivial
  have habsent' : Ignored (body.only "start_c".toList "critical_c".toList) := trivial
  -- the other two are clamped for the new start threshold, and nothing else
  have hstop := settings_post_stop s (body.only "start_c".toList)
  have hcritical := settings_post_critical s (body.only "start_c".toList)
  rw [json_celsius_ignored habsent, hstart] at hstop
  rw [json_celsius_ignored habsent', hstart] at hcritical
  refine ⟨hvalid, hstart, ?_, ?_⟩
  · rw [← Int16.toInt_inj, settings_post_stop, settings_post_stop, only_stop_c,
      (stop_post_keeps body hvalid).1, hstart]
    exact clamped_json_celsius (settings_post_stop_range s body) _ hstop
  · rw [← Int16.toInt_inj, settings_post_critical, settings_post_critical, only_critical_c,
      (critical_post_keeps body hvalid).1, hstart]
    exact clamped_json_celsius (settings_post_critical_range s body) _ hcritical

/-- **A combined threshold update is the sequence of partial ones that starts
    with the start threshold.**  One post of all three leaves the triple that
    three posts of one field each leave, start first and the other two in
    either order.  A post with nothing in it changes nothing, and a field
    that is not in it moves only where it would break its margin to the new
    start threshold, and then to that margin. -/
theorem combined_post_eq_partial_posts (s : Settings) (hs : s.Valid) (body : Body) :
    settings_post (settings_post (settings_post s (body.only "start_c".toList))
        (body.only "stop_c".toList)) (body.only "critical_c".toList) = settings_post s body ∧
      settings_post (settings_post (settings_post s (body.only "start_c".toList))
        (body.only "critical_c".toList)) (body.only "stop_c".toList) = settings_post s body ∧
      (Ignored (body "start_c".toList) → Ignored (body "stop_c".toList) →
        Ignored (body "critical_c".toList) → settings_post s body = s) ∧
      (Ignored (body "start_c".toList) → (settings_post s body).start_x10 = s.start_x10) ∧
      (Ignored (body "stop_c".toList) → (settings_post s body).stop_x10.toInt =
        if s.stop_x10.toInt ≤ (settings_post s body).start_x10.toInt - HYSTERESIS_MIN_X10
        then s.stop_x10.toInt
        else (settings_post s body).start_x10.toInt - HYSTERESIS_MIN_X10) ∧
      (Ignored (body "critical_c".toList) → (settings_post s body).critical_x10.toInt =
        if (settings_post s body).start_x10.toInt + CRITICAL_MARGIN_MIN_X10 ≤ s.critical_x10.toInt
        then s.critical_x10.toInt
        else (settings_post s body).start_x10.toInt + CRITICAL_MARGIN_MIN_X10) := by
  have hposted := startPosted body s
  generalize settings_post s (body.only "start_c".toList) = t at hposted ⊢
  have hstop := settings_post_valid t (body.only "stop_c".toList)
  have hcritical := settings_post_valid t (body.only "critical_c".toList)
  have hkeep := stop_post_keeps body hposted.valid
  have hkeep' := critical_post_keeps body hposted.valid
  refine ⟨?_, ?_, settings_post_ignored hs, settings_post_start_ignored hs,
    settings_post_stop_ignored hs, settings_post_critical_ignored hs⟩
  · apply Settings.ext
    · rw [(critical_post_keeps body hstop).1, hkeep.1, hposted.start]
    · rw [(critical_post_keeps body hstop).2, hposted.stop]
    · rw [critical_post_congr body hposted.valid hstop hkeep.1 hkeep.2, hposted.critical]
  · apply Settings.ext
    · rw [(stop_post_keeps body hcritical).1, hkeep'.1, hposted.start]
    · rw [stop_post_congr body hposted.valid hcritical hkeep'.1 hkeep'.2, hposted.stop]
    · rw [(stop_post_keeps body hcritical).2, hposted.critical]

end partial_posts

/-- All three asked for 40 °C over the defaults. -/
theorem combined_post_all_40 :
    settings_post (settings_post (settings_post default_settings
        (Body.only (fun _ => some (.number 40)) "start_c".toList))
        (Body.only (fun _ => some (.number 40)) "stop_c".toList))
        (Body.only (fun _ => some (.number 40)) "critical_c".toList) =
      settings_post default_settings fun _ => some (.number 40) :=
  (combined_post_eq_partial_posts default_settings default_settings_valid _).1

end FloorHeating
