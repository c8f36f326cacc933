import FloorHeating.PartialUpdates
import FloorHeating.Progress
import FloorHeating.Status

/-! # The HTTP server over the firmware

    httpd runs one handler at a time, and its handlers are the only callers of
    `control_manual` and of `settings_set`.  So a request is read, carried out
    and answered before the next one is looked at, while `control_task` and
    the clock go on between any two of its steps.

    What the library decides is in the request: whether its guard lets it
    through, how the client is named, and the body if it is JSON.

    Source: the handlers and `api_start` (`api.c`). -/

namespace FloorHeating

open LTS

/-! ## Requests and responses -/

/-- The routes of `api_start`. -/
inductive Route where
  | status
  | events
  | history
  | pump
  | settings
  | admin_pump
  | admin_status
  deriving DecidableEq, Repr

/-- The routes that ask for the admin header and for no session. -/
def Route.admin : Route → Bool
  | .admin_pump | .admin_status => true
  | _ => false

/-- A request, with what the library makes of it. -/
structure HttpRequest where
  route : Route
  /-- `hi_httpd_guard`, or `hi_auth_admin_header_valid` on an admin route. -/
  admitted : Bool
  /-- `hi_httpd_client_ip`, by the size of the buffer. -/
  client_ip : Nat → CStr
  /-- `hi_httpd_read_json`. -/
  body : Option Body

inductive Response where
  /-- What `hi_httpd_guard` or `hi_httpd_read_json` has answered itself. -/
  | guarded
  /-- `401 Unauthorized`, empty. -/
  | unauthorized
  /-- `hi_httpd_send_error`. -/
  | error (status text : CStr)
  | status (st : StatusJson)
  | events (items : List EventJson)
  | history (chunks : Except Failure (List CStr))

/-! ## The handlers -/

/-- Where the handler is, with its locals. -/
inductive HandlerPc where
  /-- Before, or in, its call of `control_manual`. -/
  | command (q : Request)
  /-- Before its `settings_get`. -/
  | patch (body : Body)
  /-- Before, or in, its call of `settings_set`. -/
  | save (v : Settings)
  /-- At the start of `status_json`. -/
  | report
  | copied (c : ControlStatus)
  | timed (c : ControlStatus)
  | configured (c : ControlStatus) (v : Settings)
  | list_events
  | copy_history
  | respond (r : Response)

/-- `pump_command` up to its call. -/
def start_command (body : Option Body) (who : CStr) : HandlerPc :=
  match body with
  | none => .respond .guarded
  | some body => match pump_command body who with
    | .error field => .respond (.error "400 Bad Request".toList field)
    | .ok q => .command q

/-- A handler up to its first look at the device. -/
def dispatch (req : HttpRequest) : HandlerPc :=
  if !req.admitted then .respond (if req.route.admin then .unauthorized else .guarded)
  else match req.route with
    | .status | .admin_status => .report
    | .events => .list_events
    | .history => .copy_history
    | .pump => start_command req.body (req.client_ip IP_SIZE)
    | .admin_pump => start_command req.body "admin".toList
    | .settings => match req.body with
      | none => .respond .guarded
      | some body => .patch body

/-- After a step of `control_manual`: the answer, if that was the return of a
    refused call. -/
def after_manual (q : Request) (act : ManualAct) (pc : CallerPc) : HandlerPc :=
  match act, pc with
  | .leave, .manual_returned .ok => .report
  | .leave, .manual_returned .refused_overheat =>
    .respond (.error "409 Conflict".toList "overheat".toList)
  | _, _ => .command q

/-- After a step of `settings_set`: the answer, if that was the return of a
    call that could not save. -/
def after_settings (v : Settings) (act : SetAct) (pc : CallerPc) : HandlerPc :=
  match act, pc with
  | .leave, .set_returned _ true => .report
  | .leave, .set_returned _ false =>
    .respond (.error "500 Internal Server Error".toList "save_failed".toList)
  | _, _ => .save v

/-- The handler's own arguments, where the step is the call. -/
def ManualAct.passes (q : Request) : ManualAct → Bool
  | .call q' => q' = q
  | _ => true

def SetAct.passes (v : Settings) : SetAct → Bool
  | .call v' => v' = v
  | _ => true

/-! ## The system -/

/-- The task httpd, as a caller. -/
def HTTPD : Nat := 0

/-- The device and the request that is being served. -/
structure Server where
  fw : Firmware
  serving : Option (HttpRequest × HandlerPc)

/-- A step of the environment or of `control_task`. -/
def Label.internal : Label → Bool
  | .tick _ | .disturb _ | .task _ => true
  | .manual _ _ | .settings _ _ => false

inductive ServerLabel where
  | device (a : Label)
  | request (req : HttpRequest)
  | manual (act : ManualAct)
  | settings (act : SetAct)
  | get
  | copy
  | clock
  | config
  | unix (clock : HandlerClock)
  | events (clocks : Nat → HandlerClock)
  | history (sends : Nat → Bool) (clock : HandlerClock)
  | send

/-- The handler goes on. -/
def Server.goto (s : Server) (req : HttpRequest) (pc : HandlerPc) : Server :=
  { s with serving := some (req, pc) }

def server_step (s : Server) : ServerLabel → Option Server
  | .device a => if a.internal then (step s.fw a).map fun fw => { s with fw } else none
  | .request req => match s.serving with
    | none => some (s.goto req (dispatch req))
    | some _ => none
  | .manual act => match s.serving with
    | some (req, .command q) =>
      if act.passes q then (manual_step s.fw HTTPD act).map fun fw =>
        ⟨fw, some (req, after_manual q act (s.fw.callers HTTPD))⟩
      else none
    | _ => none
  | .settings act => match s.serving with
    | some (req, .save v) =>
      if act.passes v then (settings_step s.fw HTTPD act).map fun fw =>
        ⟨fw, some (req, after_settings v act (s.fw.callers HTTPD))⟩
      else none
    | _ => none
  | .get => match s.serving with
    | some (req, .patch body) => some (s.goto req (.save (settings_request s.fw.s_settings body)))
    | _ => none
  -- `control_status` up to its release: nobody else is inside meanwhile
  | .copy => match s.serving, s.fw.s_lock with
    | some (req, .report), none => some (s.goto req (.copied (control_status s.fw.dev 0)))
    | _, _ => none
  | .clock => match s.serving with
    | some (req, .copied c) => some (s.goto req (.timed { c with now_mono_s := s.fw.mono_s }))
    | _ => none
  | .config => match s.serving with
    | some (req, .timed c) => some (s.goto req (.configured c s.fw.s_settings))
    | _ => none
  | .unix clock => match s.serving with
    | some (req, .configured c v) => some (s.goto req (.respond (.status (status_json c v clock))))
    | _ => none
  | .events clocks => match s.serving with
    | some (req, .list_events) =>
      some (s.goto req (.respond (.events (events_json s.fw.dev.events clocks))))
    | _ => none
  | .history sends clock => match s.serving with
    | some (req, .copy_history) =>
      some (s.goto req (.respond (.history (history_handler sends s.fw.history clock))))
    | _ => none
  | .send => match s.serving with
    | some (_, .respond _) => some { s with serving := none }
    | _ => none

/-- The server, from any boot. -/
def served : System Server ServerLabel where
  init s := ∃ nvs clock_us, s = ⟨boot nvs clock_us, none⟩
  step := server_step

/-- What a step is in the firmware. -/
def ServerLabel.firmware : ServerLabel → Option Label
  | .device a => some a
  | .manual act => some (.manual HTTPD act)
  | .settings act => some (.settings HTTPD act)
  | _ => none

/-- The firmware's part of a run. -/
def firmware_labels (acts : List ServerLabel) : List Label :=
  acts.filterMap ServerLabel.firmware

/-! ## What a step can do -/

inductive ServerStep (s : Server) : ServerLabel → Server → Prop where
  | device (a : Label) (fw : Firmware) (internal : a.internal = true)
      (took : step s.fw a = some fw) : ServerStep s (.device a) { s with fw }
  | request (req : HttpRequest) (pc : s.serving = none) :
      ServerStep s (.request req) (s.goto req (dispatch req))
  | manual (req : HttpRequest) (q : Request) (act : ManualAct) (fw : Firmware)
      (pc : s.serving = some (req, .command q)) (passes : act.passes q = true)
      (took : manual_step s.fw HTTPD act = some fw) :
      ServerStep s (.manual act) ⟨fw, some (req, after_manual q act (s.fw.callers HTTPD))⟩
  | settings (req : HttpRequest) (v : Settings) (act : SetAct) (fw : Firmware)
      (pc : s.serving = some (req, .save v)) (passes : act.passes v = true)
      (took : settings_step s.fw HTTPD act = some fw) :
      ServerStep s (.settings act) ⟨fw, some (req, after_settings v act (s.fw.callers HTTPD))⟩
  | get (req : HttpRequest) (body : Body) (pc : s.serving = some (req, .patch body)) :
      ServerStep s .get (s.goto req (.save (settings_request s.fw.s_settings body)))
  | copy (req : HttpRequest) (pc : s.serving = some (req, .report)) (free : s.fw.s_lock = none) :
      ServerStep s .copy (s.goto req (.copied (control_status s.fw.dev 0)))
  | clock (req : HttpRequest) (c : ControlStatus) (pc : s.serving = some (req, .copied c)) :
      ServerStep s .clock (s.goto req (.timed { c with now_mono_s := s.fw.mono_s }))
  | config (req : HttpRequest) (c : ControlStatus) (pc : s.serving = some (req, .timed c)) :
      ServerStep s .config (s.goto req (.configured c s.fw.s_settings))
  | unix (req : HttpRequest) (c : ControlStatus) (v : Settings) (clock : HandlerClock)
      (pc : s.serving = some (req, .configured c v)) :
      ServerStep s (.unix clock) (s.goto req (.respond (.status (status_json c v clock))))
  | events (req : HttpRequest) (clocks : Nat → HandlerClock)
      (pc : s.serving = some (req, .list_events)) :
      ServerStep s (.events clocks)
        (s.goto req (.respond (.events (events_json s.fw.dev.events clocks))))
  | history (req : HttpRequest) (sends : Nat → Bool) (clock : HandlerClock)
      (pc : s.serving = some (req, .copy_history)) :
      ServerStep s (.history sends clock)
        (s.goto req (.respond (.history (history_handler sends s.fw.history clock))))
  | send (req : HttpRequest) (r : Response) (pc : s.serving = some (req, .respond r)) :
      ServerStep s .send { s with serving := none }

theorem server_step_inv {s s' : Server} {a : ServerLabel} (h : server_step s a = some s') :
    ServerStep s a s' := by
  cases a with
  | device a =>
    simp only [server_step] at h
    split at h
    · rename_i hinternal
      obtain ⟨fw, hfw, rfl⟩ := Option.map_eq_some_iff.mp h
      exact .device a fw hinternal hfw
    · simp at h
  | request req =>
    simp only [server_step] at h
    split at h
    · rename_i pc
      exact Option.some.inj h ▸ .request req pc
    · simp at h
  | manual act =>
    simp only [server_step] at h
    split at h
    · rename_i req q pc
      split at h
      · rename_i hpasses
        obtain ⟨fw, hfw, rfl⟩ := Option.map_eq_some_iff.mp h
        exact .manual req q act fw pc hpasses hfw
      · simp at h
    · simp at h
  | settings act =>
    simp only [server_step] at h
    split at h
    · rename_i req v pc
      split at h
      · rename_i hpasses
        obtain ⟨fw, hfw, rfl⟩ := Option.map_eq_some_iff.mp h
        exact .settings req v act fw pc hpasses hfw
      · simp at h
    · simp at h
  | get =>
    simp only [server_step] at h
    split at h
    · rename_i pc
      exact Option.some.inj h ▸ .get _ _ pc
    · simp at h
  | copy =>
    simp only [server_step] at h
    split at h
    · rename_i pc free
      exact Option.some.inj h ▸ .copy _ pc free
    · simp at h
  | clock =>
    simp only [server_step] at h
    split at h
    · rename_i pc
      exact Option.some.inj h ▸ .clock _ _ pc
    · simp at h
  | config =>
    simp only [server_step] at h
    split at h
    · rename_i pc
      exact Option.some.inj h ▸ .config _ _ pc
    · simp at h
  | unix clock =>
    simp only [server_step] at h
    split at h
    · rename_i pc
      exact Option.some.inj h ▸ .unix _ _ _ clock pc
    · simp at h
  | events clocks =>
    simp only [server_step] at h
    split at h
    · rename_i pc
      exact Option.some.inj h ▸ .events _ clocks pc
    · simp at h
  | history sends clock =>
    simp only [server_step] at h
    split at h
    · rename_i pc
      exact Option.some.inj h ▸ .history _ sends clock pc
    · simp at h
  | send =>
    simp only [server_step] at h
    split at h
    · rename_i pc
      exact Option.some.inj h ▸ .send _ _ pc
    · simp at h

/-! ## The firmware's part -/

theorem server_step_firmware {s s' : Server} {a : ServerLabel} (h : ServerStep s a s') :
    match a.firmware with
    | some b => step s.fw b = some s'.fw
    | none => s'.fw = s.fw := by
  cases h with
  | device a fw _ took => exact took
  | manual _ _ act fw _ _ took => exact took
  | settings _ _ act fw _ _ took => exact took
  | request _ _ | get _ _ _ | copy _ _ _ | clock _ _ _ | config _ _ _ | unix _ _ _ _ _
  | events _ _ _ | history _ _ _ _ | send _ _ _ => rfl

/-- The firmware's part of a run of the server is a run of the firmware. -/
theorem server_exec_firmware {s s' : Server} {acts : List ServerLabel}
    (h : served.exec s acts = some s') :
    firmware.exec s.fw (firmware_labels acts) = some s'.fw := by
  have hhidden : ∀ (s : Server) (a : ServerLabel) (s' : Server) (fw : Firmware), fw = s.fw →
      served.step s a = some s' → a.firmware = none → fw = s'.fw := by
    rintro s a s' _ rfl hstep hhidden
    have hfirmware := server_step_firmware (server_step_inv hstep)
    rw [hhidden] at hfirmware
    exact hfirmware.symm
  have hvisible : ∀ (s : Server) (a : ServerLabel) (s' : Server) (fw : Firmware) (b : Label),
      fw = s.fw → served.step s a = some s' → a.firmware = some b →
      ∃ fw', firmware.step fw b = some fw' ∧ fw' = s'.fw := by
    rintro s a s' _ b rfl hstep hvisible
    have hfirmware := server_step_firmware (server_step_inv hstep)
    rw [hvisible] at hfirmware
    exact ⟨_, hfirmware, rfl⟩
  obtain ⟨fw, hfw, rfl⟩ := exec_simulation ServerLabel.firmware (fun s fw => fw = s.fw)
    hhidden hvisible rfl h
  exact hfw

/-- A run of the server reaches what the firmware reaches. -/
theorem served_run {nvs : NvsBlob} {clock_us : Nat} {acts : List ServerLabel} {s : Server}
    (h : served.exec ⟨boot nvs clock_us, none⟩ acts = some s) :
    Run firmware (firmware_labels acts) s.fw :=
  run_from_boot nvs clock_us (server_exec_firmware h)

/-! ## One caller -/

/-- The call is one of `control_manual` with these arguments. -/
def CallerPc.CommandOf (q : Request) : CallerPc → Prop
  | .manual_called q' | .manual_locked q' | .manual_accepted q' _ | .manual_refused q' _ => q' = q
  | .manual_decided cmd => cmd.request = q
  | .manual_returned _ => True
  | _ => False

/-- The call is one of `settings_set` with these thresholds. -/
def CallerPc.SaveOf (v : Settings) : CallerPc → Prop
  | .set_called w | .set_locked w | .set_applied w | .set_opened w | .set_written w
  | .set_saved w _ | .set_returned w _ => w = sanitize v
  | _ => False

/-- Where httpd may be as a caller, while its handler is at `pc`. -/
def CalledFrom : Option HandlerPc → CallerPc → Prop
  | some (.command q), caller => caller = .idle ∨ caller.CommandOf q
  | some (.save v), caller => caller = .idle ∨ caller.SaveOf v
  | _, caller => caller = .idle

/-- httpd is the only caller, and calls from where its handler is. -/
structure OneCaller (s : Server) : Prop where
  others : ∀ c, c ≠ HTTPD → s.fw.callers c = .idle
  httpd : CalledFrom (s.serving.map Prod.snd) (s.fw.callers HTTPD)

theorem oneCaller_boot (nvs : NvsBlob) (clock_us : Nat) : OneCaller ⟨boot nvs clock_us, none⟩ :=
  ⟨fun _ _ => rfl, rfl⟩

/-- The call goes on with its arguments, or comes back. -/
theorem ManualStep.calledFrom {s s' : Firmware} {c : Nat} {act : ManualAct}
    (h : ManualStep s c act s') {q : Request} (hpasses : act.passes q = true)
    (hpc : s.callers c = .idle ∨ (s.callers c).CommandOf q) :
    CalledFrom (some (after_manual q act (s.callers c))) (s'.callers c) := by
  cases h with
  | call q' pc =>
    obtain rfl : q' = q := by simpa [ManualAct.passes] using hpasses
    show _ ∨ _
    rw [set_caller_same]
    exact Or.inr rfl
  | leave res pc =>
    rw [set_caller_same, pc]
    cases res <;> rfl
  | lock q' pc _ | accept q' _ pc _ | reject q' pc _ =>
    rw [pc] at hpc
    show _ ∨ _
    rw [set_caller_same]
    exact Or.inr (hpc.resolve_left (by simp))
  | unlock _ pc | refuse q' _ pc =>
    show _ ∨ _
    rw [set_caller_same]
    exact Or.inr trivial
  | decide q' now_s wall pc =>
    rw [pc] at hpc
    show _ ∨ _
    unfold Firmware.manual_decide
    rw [set_caller_same]
    exact Or.inr (hpc.resolve_left (by simp))

theorem SetStep.calledFrom {s s' : Firmware} {c : Nat} {act : SetAct}
    (h : SetStep s c act s') {v : Settings} (hpasses : act.passes v = true)
    (hpc : s.callers c = .idle ∨ (s.callers c).SaveOf v) :
    CalledFrom (some (after_settings v act (s.callers c))) (s'.callers c) := by
  cases h with
  | call w pc =>
    obtain rfl : w = v := by simpa [SetAct.passes] using hpasses
    show _ ∨ _
    rw [set_caller_same]
    exact Or.inr rfl
  | leave w ok pc =>
    rw [set_caller_same, pc]
    cases ok <;> rfl
  | nvs_open w ok pc | nvs_set_blob w ok _ pc =>
    rw [pc] at hpc
    show _ ∨ _
    rw [set_caller_same]
    refine Or.inr ?_
    have hw : w = sanitize v := hpc.resolve_left (by simp)
    cases ok <;> exact hw
  | lock w pc _ | apply w pc | nvs_commit w _ _ pc | unlock w _ pc =>
    rw [pc] at hpc
    show _ ∨ _
    rw [set_caller_same]
    exact Or.inr (hpc.resolve_left (by simp))

/-- A step by httpd leaves the other callers idle. -/
theorem others_idle {s : Server} (hs : OneCaller s) {fw : Firmware} {a : Label}
    (h : step s.fw a = some fw) (hmover : ∀ c, a.mover = some (.caller c) → c = HTTPD) :
    ∀ c, c ≠ HTTPD → fw.callers c = .idle := by
  intro c hc
  rw [(step_others h).2 c fun ho => hc (hmover c ho)]
  exact hs.others c hc

/-- What is internal moves no caller. -/
theorem internal_callers {s s' : Firmware} {a : Label} (h : step s a = some s')
    (hinternal : a.internal = true) (c : Nat) : s'.callers c = s.callers c := by
  refine (step_others h).2 c ?_
  cases a <;> simp_all [Label.internal, Label.mover]

theorem OneCaller.step {s s' : Server} {a : ServerLabel} (hs : OneCaller s)
    (h : ServerStep s a s') : OneCaller s' := by
  have hhttpd := hs.httpd
  cases h with
  | device a fw hinternal took =>
    refine ⟨fun c hc => ?_, ?_⟩
    · rw [internal_callers took hinternal c]
      exact hs.others c hc
    · rw [internal_callers took hinternal HTTPD]
      exact hhttpd
  | manual req q act fw pc hpasses took =>
    rw [pc] at hhttpd
    refine ⟨others_idle hs (a := .manual HTTPD act) took (by simp [Label.mover]), ?_⟩
    exact (manual_step_inv took).calledFrom hpasses hhttpd
  | settings req v act fw pc hpasses took =>
    rw [pc] at hhttpd
    refine ⟨others_idle hs (a := .settings HTTPD act) took (by simp [Label.mover]), ?_⟩
    exact (settings_step_inv took).calledFrom hpasses hhttpd
  | request req pc =>
    rw [pc] at hhttpd
    refine ⟨hs.others, ?_⟩
    have hidle : s.fw.callers HTTPD = .idle := hhttpd
    show CalledFrom (some (dispatch req)) (s.fw.callers HTTPD)
    rw [hidle]
    cases dispatch req <;> simp [CalledFrom]
  | get req body pc =>
    rw [pc] at hhttpd
    exact ⟨hs.others, Or.inl hhttpd⟩
  | copy req pc _ | clock req _ pc | config req _ pc | unix req _ _ _ pc | events req _ pc
  | history req _ _ pc | send req _ pc =>
    rw [pc] at hhttpd
    exact ⟨hs.others, hhttpd⟩

end FloorHeating
