import FloorHeating.Api
import FloorHeating.Attribution
import FloorHeating.Lib.DottedQuad

/-! # The text of a command's event

    `control_manual` prints the whole minutes and the caller's address into
    24 bytes, and the event takes the text over as it is.  A number of three
    digits and an address of fifteen characters need one byte more: the last
    digit of the address is cut off.

    * `detail_eq_iff`: which commands have the same text.
    * `command_identified_iff`: the text is complete, and tells commands
      apart, unless one of them is that long. -/

namespace FloorHeating

open LTS Json DottedQuad Binary64

/-! ## The text of a request -/

/-- The complete text of a command for `minutes` whole minutes. -/
def detail_text (minutes : Nat) (ip : IpAddress) : CStr :=
  (Nat.repr minutes).toList ++ " min, ".toList ++ ip.text

/-- The whole minutes of the clamped duration. -/
def Request.whole_minutes (q : Request) : Nat := q.clamped_s.toNat / 60

theorem Request.whole_minutes_le (q : Request) : q.whole_minutes ≤ 720 := by
  have hclamped := clamped_s_toNat q
  unfold Request.whole_minutes
  omega

theorem detail_eq_snprintf {q : Request} {ip : IpAddress} (hm : q.manual ≠ .none)
    (hwho : q.who = ip.text) :
    q.detail = snprintf DETAIL_SIZE (detail_text q.whole_minutes ip) := by
  unfold Request.detail detail_text Request.whole_minutes
  rw [if_neg hm, hwho]

theorem repr_toList (n : Nat) : (Nat.repr n).toList = Nat.toDigits 10 n := by
  simp [Nat.repr]

/-- What of the address is left: all of it, or all but the last digit. -/
theorem snprintf_detail_text {n : Nat} (h : n ≤ 720) (ip : IpAddress) :
    snprintf DETAIL_SIZE (detail_text n ip) =
      Nat.toDigits 10 n ++ (" min, ".toList ++ if n < 100 then ip.text else ip.text.take 14) := by
  obtain ⟨hdigits, htwo⟩ := digits_length n
  have hthree := hdigits.mpr (by omega)
  obtain ⟨hip, -⟩ := ip.text_length
  have hsep : " min, ".toList.length = 6 := rfl
  have hbefore : (Nat.toDigits 10 n ++ " min, ".toList).length < DETAIL_SIZE := by
    rw [List.length_append, hsep, DETAIL_SIZE]
    omega
  unfold detail_text
  rw [repr_toList, snprintf_append hbefore, List.append_assoc, List.length_append, hsep]
  congr 2
  split
  · rename_i hshort
    have := htwo.mpr hshort
    exact List.take_of_length_le (by rw [DETAIL_SIZE]; omega)
  · rename_i hlong
    have hlength : (Nat.toDigits 10 n).length = 3 := by omega
    rw [hlength]
    rfl

/-- The text fits where the number or the address is short. -/
theorem detail_fits_iff {n : Nat} (h : n ≤ 720) (ip : IpAddress) :
    snprintf DETAIL_SIZE (detail_text n ip) = detail_text n ip ↔ n < 100 ∨ ip.Short := by
  rw [snprintf_detail_text h, detail_text, repr_toList, List.append_assoc,
    List.append_cancel_left_eq, List.append_cancel_left_eq, ← ip.text_length.2]
  by_cases hshort : n < 100
  · simp [hshort]
  · rw [if_neg hshort, List.take_eq_self_iff]
    simp [hshort]

/-- Two texts are the same for the same minutes and the same address, as far as
    it is printed. -/
theorem detail_eq_iff {n m : Nat} (hn : n ≤ 720) (hm : m ≤ 720) (x y : IpAddress) :
    snprintf DETAIL_SIZE (detail_text n x) = snprintf DETAIL_SIZE (detail_text m y) ↔
      n = m ∧ (x = y ∨ 100 ≤ n ∧ x.text.take 14 = y.text.take 14) := by
  have hsep : ∀ rest : CStr, Stops (" min, ".toList ++ rest) := fun rest => stops_cons (by decide)
  rw [snprintf_detail_text hn, snprintf_detail_text hm, toDigits_append_inj (hsep _) (hsep _),
    List.append_cancel_left_eq]
  constructor
  · rintro ⟨rfl, htext⟩
    refine ⟨rfl, ?_⟩
    by_cases hshort : n < 100
    · rw [if_pos hshort, if_pos hshort] at htext
      exact Or.inl (IpAddress.text_inj.mp htext)
    · rw [if_neg hshort, if_neg hshort] at htext
      exact Or.inr ⟨by omega, htext⟩
  · rintro ⟨rfl, rfl | ⟨hlong, htext⟩⟩
    · exact ⟨rfl, rfl⟩
    · rw [if_neg (by omega), if_neg (by omega)]
      exact ⟨rfl, htext⟩

/-- Below a hundred minutes the product is below 6000 s, rounded as it is: a
    double below 100 is a whole spacing below it, and so 60 times it more than
    half of one below 6000. -/
theorem product_lt_iff {minutes : ℚ} (hdouble : IsBinary64 minutes) (hpos : 0 < minutes) :
    round64 (60 * minutes) < 6000 ↔ minutes < 100 := by
  constructor
  · intro hlt
    by_contra hge
    have hround : IsBinary64 ((6000 : ℤ) : ℚ) := isBinary64_intCast (by norm_num)
    have hle := hround.le_round64 (x := 60 * minutes) (by push_cast; linarith)
    push_cast at hle
    linarith
  · intro hlt
    have hpred : minutes ≤ ((100 * 2 ^ 46 : ℤ) - 1) * 2 ^ (-46 : ℤ) :=
      hdouble.le_pred (by norm_num) (by norm_num; exact hlt)
    have hulp : ulp (60 * minutes) ≤ 2 ^ (-40 : ℤ) := by
      apply ulp_le (by positivity) (by norm_num)
      rw [abs_of_pos (by positivity)]
      norm_num
      linarith
    have hhalf := (abs_le.mp (round64_half (60 * minutes))).2
    norm_num at hpred hulp
    linarith

/-! ## The events of commands -/

/-- Into a buffer that has room for it, `hi_httpd_client_ip` writes the dotted
    quad of the client. -/
def YieldsDottedQuad (hi_httpd_client_ip : IpAddress → Nat → CStr) : Prop :=
  ∀ ip size, 15 < size → hi_httpd_client_ip ip size = ip.text

/-- `/api/pump` took the request `q`, a start or a stop for `minutes`, from the
    client. -/
structure FromApi (hi_httpd_client_ip : IpAddress → Nat → CStr) (ip : IpAddress) (minutes : ℚ)
    (q : Request) : Prop where
  handled : ∃ body, pump_handler (hi_httpd_client_ip ip) body = .ok q ∧
    body "minutes".toList = some (.number minutes)
  override : q.manual ≠ .none

/-- The decision of the call for `q` published the event `e` of the pump, in a
    run to `s`. -/
structure CommandEvent (acts : List Label) (s : Firmware) (q : Request) (e : Event) : Prop where
  published : ∃ s₁ c now_s wall s₂, PublishedAt acts s e s₁ (.manual c (.decide wall)) s₂ ∧
    s₁.callers c = .manual_accepted q now_s
  pump : e.type = .pump

/-- The event has the text that was printed for the call. -/
theorem CommandEvent.detail {acts : List Label} {s : Firmware} {q : Request} {e : Event}
    (h : CommandEvent acts s q e) : e.detail = q.detail := by
  obtain ⟨s₁, c, now_s, wall, s₂, hpub, hpc⟩ := h.published
  obtain ⟨es, hes, hmem⟩ := hpub.new
  obtain rfl : step_events s₁ (.manual c (.decide wall)) = es := by
    rw [step_notified hpub.step] at hes
    exact List.append_cancel_left hes
  simp only [step_events, hpc] at hmem
  obtain ⟨-, -, hdetail⟩ := pump_event_inv hmem h.pump
  rw [hdetail q.detail rfl, snprintf_detail]

section api
variable {hi_httpd_client_ip : IpAddress → Nat → CStr} {ip : IpAddress} {minutes : ℚ} {q : Request}

theorem FromApi.detail (hip : YieldsDottedQuad hi_httpd_client_ip)
    (h : FromApi hi_httpd_client_ip ip minutes q) :
    q.detail = snprintf DETAIL_SIZE (detail_text q.whole_minutes ip) := by
  obtain ⟨body, hbody, -⟩ := h.handled
  apply detail_eq_snprintf h.override
  rw [pump_command_who hbody, hip ip IP_SIZE (by decide)]

/-- Fewer than a hundred minutes are fewer than a hundred whole ones. -/
theorem FromApi.whole_minutes_lt (h : FromApi hi_httpd_client_ip ip minutes q) :
    q.whole_minutes < 100 ↔ valuedouble minutes < 100 := by
  obtain ⟨body, hbody, hminutes⟩ := h.handled
  obtain ⟨minutes', hpos, hitem, hduration⟩ := pump_command_duration hbody h.override
  obtain rfl : minutes = minutes' := by
    rw [hminutes] at hitem
    simpa using hitem
  have hclamped := clamped_s_toNat q
  have hproduct := product_lt_iff (isBinary64_round64 minutes) hpos
  have hnonneg : 0 ≤ round64 (60 * valuedouble minutes) := by
    have hzero : IsBinary64 ((0 : ℤ) : ℚ) := isBinary64_intCast (by norm_num)
    simpa using hzero.le_round64 (x := 60 * valuedouble minutes) (by push_cast; linarith)
  have hfloor : ⌊round64 (60 * valuedouble minutes)⌋₊ < 6000 ↔
      round64 (60 * valuedouble minutes) < (6000 : ℕ) := Nat.floor_lt hnonneg
  push_cast at hfloor
  rw [valuedouble] at hfloor hduration ⊢
  rw [← hproduct, ← hfloor]
  unfold Request.whole_minutes
  omega

end api

/-- The minutes, as the double they are read as, have two digits, or the address
    is short. -/
def Fits (minutes : ℚ) (ip : IpAddress) : Prop := valuedouble minutes < 100 ∨ ip.Short

/-- Two events that are complete, and tell their commands apart. -/
structure Identified (q₁ : Request) (ip₁ : IpAddress) (e₁ : Event) (q₂ : Request)
    (ip₂ : IpAddress) (e₂ : Event) : Prop where
  first : e₁.detail = detail_text q₁.whole_minutes ip₁
  second : e₂.detail = detail_text q₂.whole_minutes ip₂
  apart : e₁.detail = e₂.detail → q₁.whole_minutes = q₂.whole_minutes ∧ ip₁ = ip₂

/-- **A manual command's event identifies who gave it and for how long**, for
    any two starts or stops of any runs, exactly if each was for less than a
    hundred minutes or came from an address with an octet below 100. -/
theorem command_identified_iff (hi_httpd_client_ip : IpAddress → Nat → CStr)
    (hip : YieldsDottedQuad hi_httpd_client_ip) (acts₁ acts₂ : List Label) (s₁ s₂ : Firmware)
    (ip₁ ip₂ : IpAddress) (minutes₁ minutes₂ : ℚ) (q₁ q₂ : Request) (e₁ e₂ : Event)
    (hq₁ : FromApi hi_httpd_client_ip ip₁ minutes₁ q₁)
    (hq₂ : FromApi hi_httpd_client_ip ip₂ minutes₂ q₂)
    (he₁ : CommandEvent acts₁ s₁ q₁ e₁) (he₂ : CommandEvent acts₂ s₂ q₂ e₂) :
    Identified q₁ ip₁ e₁ q₂ ip₂ e₂ ↔ Fits minutes₁ ip₁ ∧ Fits minutes₂ ip₂ := by
  have htext₁ := he₁.detail.trans (hq₁.detail hip)
  have htext₂ := he₂.detail.trans (hq₂.detail hip)
  have hle₁ := q₁.whole_minutes_le
  have hle₂ := q₂.whole_minutes_le
  have hfits₁ := detail_fits_iff hle₁ ip₁
  have hfits₂ := detail_fits_iff hle₂ ip₂
  rw [hq₁.whole_minutes_lt] at hfits₁
  rw [hq₂.whole_minutes_lt] at hfits₂
  constructor
  · rintro ⟨hfirst, hsecond, -⟩
    exact ⟨hfits₁.mp (htext₁ ▸ hfirst), hfits₂.mp (htext₂ ▸ hsecond)⟩
  · rintro ⟨h₁, h₂⟩
    have hfirst := htext₁.trans (hfits₁.mpr h₁)
    have hsecond := htext₂.trans (hfits₂.mpr h₂)
    refine ⟨hfirst, hsecond, ?_⟩
    intro hsame
    rw [htext₁, htext₂] at hsame
    obtain ⟨hminutes, rfl | ⟨hlong, hcut⟩⟩ := (detail_eq_iff hle₁ hle₂ ip₁ ip₂).mp hsame
    · exact ⟨hminutes, rfl⟩
    · -- a number of three digits: both addresses are short, and nothing is cut off them
      have hshort₁ : ip₁.Short :=
        h₁.resolve_left fun hlt => absurd (hq₁.whole_minutes_lt.mpr hlt) (by omega)
      have hshort₂ : ip₂.Short :=
        h₂.resolve_left fun hlt => absurd (hq₂.whole_minutes_lt.mpr hlt) (by omega)
      rw [List.take_of_length_le (ip₁.text_length.2.mpr hshort₁),
        List.take_of_length_le (ip₂.text_length.2.mpr hshort₂)] at hcut
      exact ⟨hminutes, IpAddress.text_inj.mp hcut⟩

/-! ## Starts for twelve hours -/

/-- The text of the address, as far as the buffer holds it. -/
def print_ip (ip : IpAddress) (size : Nat) : CStr := snprintf size ip.text

theorem print_ip_yields : YieldsDottedQuad print_ip := by
  intro ip size hsize
  have hlength := ip.text_length.1
  exact snprintf_fits (by omega)

/-- The request of a start for 720 minutes. -/
def start_request (ip : IpAddress) : Request := ⟨.start, 43200, ip.text⟩

theorem start_from_api (ip : IpAddress) : FromApi print_ip ip 720 (start_request ip) where
  handled := by
    refine ⟨fun key => if key = "state".toList then some (.string "start".toList)
      else if key = "minutes".toList then some (.number 720) else none, ?_, by simp⟩
    have hduration : minutes_duration_s (valuedouble 720) = 43200 := by
      rw [← UInt32.toNat_inj]
      exact minutes_duration_s_whole (n := 720) (by decide)
    have hpositive : 0 < valuedouble 720 := by decide +kernel
    simp [pump_handler, pump_command, state_manual, positive_minutes, hpositive, hduration,
      start_request, print_ip_yields ip IP_SIZE (by decide)]
  override := by simp [start_request]

/-- A manual command, up to its decision. -/
def manual_labels (c : Nat) (q : Request) : List Label :=
  [.manual c (.call q), .manual c .lock, .manual c .apply]

/-- An idle caller's command is applied to the state it finds. -/
theorem manual_exec {s : Firmware} {c : Nat} {q : Request} {st : CtlState}
    (hidle : s.callers c = .idle) (hfree : s.s_lock = none)
    (happly : ctl_manual s.dev.s_state q.manual q.clamped_s s.mono_s = some st) :
    firmware.exec s (manual_labels c q) =
      some ({ s with
        s_lock := some (.caller c)
        dev := { s.dev with s_state := st } }.set_caller c (.manual_accepted q s.mono_s)) := by
  have hmono : ∀ (lock : Option Owner) (callers : Nat → CallerPc),
      ({ s with s_lock := lock, callers } : Firmware).mono_s = s.mono_s := fun _ _ => rfl
  simp [manual_labels, System.exec, firmware, step, manual_step, Firmware.set_caller,
    Firmware.manual_apply, hidle, hfree, hmono, happly]

/-- The decision of a start at boot. -/
def start_labels (ip : IpAddress) : List Label :=
  manual_labels 0 (start_request ip) ++ [.manual 0 (.decide ⟨false, 0⟩)]

/-- A decision that switches the pump publishes an event of the pump. -/
theorem changed_event {st : CtlState} {now_s : Int} {r : CtlResult} (detail : Option CStr)
    (h : r.changed = true) : ∃ e ∈ decide_events st now_s r detail, e.type = .pump := by
  obtain ⟨e, he, htype⟩ : ∃ e, pump_events st now_s r detail = [e] ∧ e.type = .pump := by
    unfold pump_events
    rw [if_pos h]
    exact ⟨_, rfl, rfl⟩
  refine ⟨e, List.mem_append_right _ ?_, htype⟩
  rw [he]
  exact List.mem_singleton_self e

/-- A start switches a pump that is off on, whatever the settings. -/
theorem start_changed {s st : CtlState} {q : Request} {now_s : Int} (hstart : q.manual = .start)
    (hoff : s.on = false) (hcool : s.overheat = false)
    (happly : ctl_manual s q.manual q.clamped_s now_s = some st) (cfg : CtlConfig) :
    (ctl_decide st cfg now_s {}).2.changed = true := by
  have hclamped := clamped_s_toNat q
  unfold ctl_manual at happly
  rw [hstart, if_neg (by simp)] at happly
  obtain rfl := Option.some.inj happly
  have hrunning : ¬ now_s + (q.clamped_s.toNat : Int) ≤ now_s := by omega
  rw [ctl_decide_eq]
  simp [ctl_rule, flags_next, manual_next, manual_expires, manual_cancels, hrunning, hoff, hcool]

/-- The start is accepted, and its event is one of the pump. -/
theorem start_event (ip : IpAddress) :
    ∃ s e, CommandEvent (start_labels ip) s (start_request ip) e := by
  have hnever : ¬ ((start_request ip).manual = .stop ∧
      (boot .missing 0).dev.s_state.overheat = true) := by simp [start_request]
  obtain ⟨st, happly⟩ : ∃ st, ctl_manual (boot .missing 0).dev.s_state (start_request ip).manual
      (start_request ip).clamped_s (boot .missing 0).mono_s = some st := ⟨_, if_neg hnever⟩
  have hexec := manual_exec (s := boot .missing 0) (c := 0) rfl rfl happly
  generalize hs₁ : Firmware.set_caller _ _ _ = s₁ at hexec
  have hpc : s₁.callers 0 = .manual_accepted (start_request ip) (boot .missing 0).mono_s := by
    rw [← hs₁]
    simp [Firmware.set_caller]
  have hstate : s₁.dev.s_state = st := by
    rw [← hs₁]
    rfl
  have hstep : step s₁ (.manual 0 (.decide ⟨false, 0⟩)) =
      some (s₁.manual_decide 0 (start_request ip) (boot .missing 0).mono_s ⟨false, 0⟩) := by
    simp [step, manual_step, hpc]
  obtain ⟨e, he, htype⟩ : ∃ e ∈ step_events s₁ (.manual 0 (.decide ⟨false, 0⟩)),
      e.type = .pump := by
    simp only [step_events, hpc, hstate]
    exact changed_event _ (start_changed rfl rfl rfl happly _)
  have hcut := run_from_boot .missing 0 hexec
  exact ⟨_, e, ⟨s₁, 0, _, ⟨false, 0⟩, _, ⟨⟨_, [], rfl, hcut, rfl⟩, hstep,
    ⟨_, step_notified hstep, he⟩⟩, hpc⟩, htype⟩

/-- Starts from two addresses with an octet below 100: both events are complete,
    and they differ. -/
theorem command_identified_short :
    ∃ s₁ s₂ e₁ e₂,
      CommandEvent (start_labels ⟨192, 168, 11, 105⟩) s₁ (start_request ⟨192, 168, 11, 105⟩) e₁ ∧
      CommandEvent (start_labels ⟨192, 168, 11, 106⟩) s₂ (start_request ⟨192, 168, 11, 106⟩) e₂ ∧
      Identified (start_request ⟨192, 168, 11, 105⟩) ⟨192, 168, 11, 105⟩ e₁
        (start_request ⟨192, 168, 11, 106⟩) ⟨192, 168, 11, 106⟩ e₂ := by
  obtain ⟨s₁, e₁, he₁⟩ := start_event ⟨192, 168, 11, 105⟩
  obtain ⟨s₂, e₂, he₂⟩ := start_event ⟨192, 168, 11, 106⟩
  have hshort : (11 : UInt8) < 100 := by decide
  refine ⟨s₁, s₂, e₁, e₂, he₁, he₂, ?_⟩
  refine (command_identified_iff print_ip print_ip_yields _ _ s₁ s₂ _ _ 720 720 _ _ e₁ e₂
    (start_from_api _) (start_from_api _) he₁ he₂).mpr ⟨?_, ?_⟩
  · exact Or.inr (Or.inr (Or.inr (Or.inl hshort)))
  · exact Or.inr (Or.inr (Or.inr (Or.inl hshort)))

/-- Two starts for 720 minutes, from 192.168.100.101 and from 192.168.100.102:
    both events say `720 min, 192.168.100.10`. -/
theorem commands_confused :
    ∃ s₁ s₂ e₁ e₂,
      FromApi print_ip ⟨192, 168, 100, 101⟩ 720 (start_request ⟨192, 168, 100, 101⟩) ∧
      FromApi print_ip ⟨192, 168, 100, 102⟩ 720 (start_request ⟨192, 168, 100, 102⟩) ∧
      CommandEvent (start_labels ⟨192, 168, 100, 101⟩) s₁
        (start_request ⟨192, 168, 100, 101⟩) e₁ ∧
      CommandEvent (start_labels ⟨192, 168, 100, 102⟩) s₂
        (start_request ⟨192, 168, 100, 102⟩) e₂ ∧
      e₁.detail = "720 min, 192.168.100.10".toList ∧ e₂.detail = e₁.detail ∧
      ¬ Identified (start_request ⟨192, 168, 100, 101⟩) ⟨192, 168, 100, 101⟩ e₁
        (start_request ⟨192, 168, 100, 102⟩) ⟨192, 168, 100, 102⟩ e₂ := by
  obtain ⟨s₁, e₁, he₁⟩ := start_event ⟨192, 168, 100, 101⟩
  obtain ⟨s₂, e₂, he₂⟩ := start_event ⟨192, 168, 100, 102⟩
  have htext₁ : e₁.detail = "720 min, 192.168.100.10".toList := he₁.detail.trans (by decide)
  have htext₂ : e₂.detail = "720 min, 192.168.100.10".toList := he₂.detail.trans (by decide)
  have hsame : e₂.detail = e₁.detail := htext₂.trans htext₁.symm
  refine ⟨s₁, s₂, e₁, e₂, start_from_api _, start_from_api _, he₁, he₂, htext₁, hsame, ?_⟩
  intro h
  exact absurd (h.apart hsame.symm).2 (by decide)

end FloorHeating
