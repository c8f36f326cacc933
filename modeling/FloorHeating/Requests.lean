import FloorHeating.PowerCycles
import FloorHeating.Server

/-! # What the server answers

    One handler at a time makes the HTTP interface sequential: every request
    gets one answer, in the order of arrival.  What it asks of the device
    happens between its arrival and its answer and nothing else does, and the
    answer tells how it went.

    The specification of the server is therefore a list of requests and their
    answers.  The calls of `control_manual` in the control state's history
    are those of that list, and the settings are what the patches in it make
    of the settings at boot. -/

namespace FloorHeating

open LTS

/-! ## Requests and their answers -/

/-- The command of a request that has passed every check. -/
def HttpRequest.command (req : HttpRequest) : Option Request :=
  match dispatch req with
  | .command q => some q
  | _ => none

/-- The thresholds of a request that has passed every check. -/
def HttpRequest.patch (req : HttpRequest) : Option Body :=
  match dispatch req with
  | .patch body => some body
  | _ => none

def ServerLabel.received : ServerLabel → Option HttpRequest
  | .request req => some req
  | _ => none

/-- The requests that have arrived, in order. -/
def received (acts : List ServerLabel) : List HttpRequest := acts.filterMap ServerLabel.received

/-- The request that a step answers, and the answer. -/
def answered (s : Server) : ServerLabel → Option (HttpRequest × Response)
  | .send => match s.serving with
    | some (req, .respond r) => some (req, r)
    | _ => none
  | _ => none

/-- The answers of a run, in order. -/
def answers (nvs : NvsBlob) (clock_us : Nat) (acts : List ServerLabel) :
    List (HttpRequest × Response) :=
  served.trace answered ⟨boot nvs clock_us, none⟩ acts

/-- `200 OK` with the status document, as all but two of the handlers end. -/
def Response.IsStatus (r : Response) : Prop := ∃ st, r = .status st

/-- What a request may be answered with, by what its handler starts with. -/
def Answers (req : HttpRequest) (r : Response) : Prop :=
  match dispatch req with
  | .respond r' => r = r'
  | .command _ => r.IsStatus ∨ r = .error "409 Conflict".toList "overheat".toList
  | .patch _ => r.IsStatus ∨ r = .error "500 Internal Server Error".toList "save_failed".toList
  | .report => r.IsStatus
  | .list_events => ∃ items, r = .events items
  | .copy_history => ∃ chunks, r = .history chunks
  -- no handler starts there
  | .save _ | .copied _ | .timed _ | .configured _ _ => False

/-- Where the handler of a request may be. -/
def HandlerOf (req : HttpRequest) : HandlerPc → Prop
  | .save _ => ∃ body, dispatch req = .patch body
  | .report | .copied _ | .timed _ | .configured _ _ => ∀ st, Answers req (.status st)
  | .respond r => Answers req r
  | pc => dispatch req = pc

theorem dispatch_handlerOf (req : HttpRequest) : HandlerOf req (dispatch req) := by
  have hstart : (∀ v, dispatch req ≠ .save v) ∧ (∀ c, dispatch req ≠ .copied c) ∧
      (∀ c, dispatch req ≠ .timed c) ∧ ∀ c v, dispatch req ≠ .configured c v := by
    unfold dispatch start_command
    split
    · simp
    · split <;> (try split) <;> (try split) <;> simp
  obtain ⟨hsave, hcopied, htimed, hconfigured⟩ := hstart
  cases h : dispatch req with
  | save v => exact absurd h (hsave v)
  | copied c => exact absurd h (hcopied c)
  | timed c => exact absurd h (htimed c)
  | configured c v => exact absurd h (hconfigured c v)
  | respond r =>
    show Answers req r
    simp [Answers, h]
  | report =>
    intro st
    simp [Answers, h, Response.IsStatus]
  | command _ | patch _ | list_events | copy_history => exact h

/-! ## The handler goes with its request -/

theorem ServerStep.handlerOf {s s' : Server} {a : ServerLabel} (h : ServerStep s a s')
    (hs : ∀ req pc, s.serving = some (req, pc) → HandlerOf req pc) :
    ∀ req pc, s'.serving = some (req, pc) → HandlerOf req pc := by
  intro req' pc' h'
  cases h with
  | device a fw _ _ => exact hs req' pc' h'
  | request req pc =>
    obtain ⟨rfl, rfl⟩ : req = req' ∧ dispatch req = pc' := by simpa [Server.goto] using h'
    exact dispatch_handlerOf req
  | manual req q act fw pc _ _ =>
    obtain ⟨rfl, rfl⟩ : req = req' ∧ after_manual q act (s.fw.callers HTTPD) = pc' := by
      simpa using h'
    have hreq : dispatch req = .command q := hs req _ pc
    unfold after_manual
    split
    · intro st
      simp [Answers, hreq, Response.IsStatus]
    · show Answers req _
      simp [Answers, hreq]
    · exact hreq
  | settings req v act fw pc _ _ =>
    obtain ⟨rfl, rfl⟩ : req = req' ∧ after_settings v act (s.fw.callers HTTPD) = pc' := by
      simpa using h'
    obtain ⟨body, hreq⟩ : ∃ body, dispatch req = .patch body := hs req _ pc
    unfold after_settings
    split
    · intro st
      simp [Answers, hreq, Response.IsStatus]
    · show Answers req _
      simp [Answers, hreq]
    · exact ⟨body, hreq⟩
  | get req body pc =>
    obtain ⟨rfl, rfl⟩ : req = req' ∧ _ = pc' := by simpa [Server.goto] using h'
    exact ⟨body, hs req _ pc⟩
  | copy req pc _ | clock req _ pc | config req _ pc =>
    obtain ⟨rfl, rfl⟩ : req = req' ∧ _ = pc' := by simpa [Server.goto] using h'
    have hreports := hs req _ pc
    exact hreports
  | unix req c v clock pc =>
    obtain ⟨rfl, rfl⟩ : req = req' ∧ _ = pc' := by simpa [Server.goto] using h'
    exact hs req _ pc _
  | events req clocks pc | history req sends clock pc =>
    obtain ⟨rfl, rfl⟩ : req = req' ∧ _ = pc' := by simpa [Server.goto] using h'
    have hreq := hs req _ pc
    show Answers req _
    simp only [HandlerOf] at hreq
    simp [Answers, hreq]
  | send req r pc => simp at h'

/-! ## The calls of `control_manual` -/

/-- The call that a critical section ends. -/
def Section.call : Section → Option (Request × ControlResult)
  | .iteration _ => none
  | .command c => some (c.request, .ok)
  | .refused q _ => some (q, .refused_overheat)

/-- The call that a step of the server ends. -/
def ServerLabel.call (a : ServerLabel) : Option (Request × ControlResult) :=
  (a.firmware.bind Label.released).bind Section.call

/-- The calls of a run, in the order of their critical sections. -/
def calls_of (acts : List ServerLabel) : List (Request × ControlResult) :=
  (sections_of (firmware_labels acts)).filterMap Section.call

/-- What the answer to a pump request says of its call. -/
def told : HttpRequest × Response → Option (Request × ControlResult)
  | (req, .error _ _) => req.command.map fun q => (q, .refused_overheat)
  | (req, _) => req.command.map fun q => (q, .ok)

/-- The call of the request that is being served, once it is over. -/
def called_by (req : HttpRequest) (caller : CallerPc) : HandlerPc → Option (Request × ControlResult)
  | .command q => match caller with
    | .manual_returned res => some (q, res)
    | _ => none
  | .respond r => told (req, r)
  | _ => req.command.map fun q => (q, .ok)

def Server.called (s : Server) : Option (Request × ControlResult) :=
  s.serving.bind fun x => called_by x.1 (s.fw.callers HTTPD) x.2

theorem calls_of_concat (acts : List ServerLabel) (a : ServerLabel) :
    calls_of (acts ++ [a]) = calls_of acts ++ a.call.toList := by
  unfold calls_of firmware_labels sections_of ServerLabel.call
  simp only [List.filterMap_append, List.filterMap_cons, List.filterMap_nil]
  cases a.firmware with
  | none => rfl
  | some b =>
    simp only [List.filterMap_cons, List.filterMap_nil, Option.bind_some]
    cases b.released with
    | none => rfl
    | some sec =>
      simp only [List.filterMap_cons, List.filterMap_nil, Option.bind_some]
      cases sec.call <;> rfl

/-- A request with nothing to call has nothing to tell. -/
theorem told_none {req : HttpRequest} (h : req.command = none) (r : Response) :
    told (req, r) = none := by
  cases r <;> simp [told, h]

/-- Before its handler starts, a request has called nothing. -/
theorem called_by_dispatch (req : HttpRequest) : called_by req .idle (dispatch req) = none := by
  cases h : dispatch req with
  | command q => rfl
  | respond r =>
    have hnone : req.command = none := by simp [HttpRequest.command, h]
    exact told_none hnone r
  | patch _ | save _ | report | copied _ | timed _ | configured _ _ | list_events
  | copy_history => simp [called_by, HttpRequest.command, h]

/-- What a step of `control_manual` ends is the call that is then over. -/
theorem ManualStep.called {s s' : Firmware} {act : ManualAct} (h : ManualStep s HTTPD act s')
    {req : HttpRequest} {q : Request} (hreq : req.command = some q)
    (hpc : s.callers HTTPD = .idle ∨ (s.callers HTTPD).CommandOf q) :
    (called_by req (s'.callers HTTPD) (after_manual q act (s.callers HTTPD))).toList =
      (called_by req (s.callers HTTPD) (.command q)).toList ++
        (ServerLabel.manual act).call.toList := by
  cases h with
  | call _ pc | lock _ pc _ | accept _ _ pc _ | reject _ pc _ =>
    rw [set_caller_same, pc]
    rfl
  | decide _ _ _ pc =>
    unfold Firmware.manual_decide
    rw [set_caller_same, pc]
    rfl
  | unlock cmd pc =>
    rw [pc] at hpc
    have hcmd : cmd.request = q := hpc.resolve_left (by simp)
    rw [set_caller_same, pc, ← hcmd]
    rfl
  | refuse q' now_s pc =>
    rw [pc] at hpc
    obtain rfl : q' = q := hpc.resolve_left (by simp)
    rw [set_caller_same, pc]
    rfl
  | leave res pc =>
    rw [set_caller_same, pc]
    cases res <;> simp [after_manual, called_by, told, hreq, ServerLabel.call,
      ServerLabel.firmware, Label.released]

theorem ServerStep.called {s s' : Server} {a : ServerLabel} (h : ServerStep s a s')
    (hcaller : OneCaller s)
    (hs : ∀ req pc, s.serving = some (req, pc) → HandlerOf req pc) :
    s.called.toList ++ a.call.toList =
      (answered s a).toList.filterMap told ++ s'.called.toList := by
  have hhttpd := hcaller.httpd
  cases h with
  | device a fw hinternal took =>
    -- an iteration is no call
    have hnone : (ServerLabel.device a).call = none := by
      cases a with
      | tick _ | disturb _ => rfl
      | task act => cases act <;> rfl
      | manual _ _ | settings _ _ => simp [Label.internal] at hinternal
    simp only [Server.called, hnone, internal_callers took hinternal HTTPD]
    simp [answered]
  | request req pc =>
    rw [pc] at hhttpd
    have hidle : s.fw.callers HTTPD = .idle := hhttpd
    have hafter : (s.goto req (dispatch req)).called = none := by
      show called_by req (s.fw.callers HTTPD) (dispatch req) = none
      rw [hidle, called_by_dispatch]
    have hbefore : s.called = none := by simp [Server.called, pc]
    simp [hbefore, hafter, answered, ServerLabel.call, ServerLabel.firmware]
  | manual req q act fw pc passes took =>
    rw [pc] at hhttpd
    have hreq : dispatch req = .command q := hs req _ pc
    have hcommand : req.command = some q := by simp [HttpRequest.command, hreq]
    have hstep := (manual_step_inv took).called hcommand hhttpd
    have hbefore : s.called = called_by req (s.fw.callers HTTPD) (.command q) := by
      simp [Server.called, pc]
    rw [hbefore, ← hstep]
    simp [Server.called, answered]
  | settings req v act fw pc passes took =>
    obtain ⟨body, hreq⟩ : ∃ body, dispatch req = .patch body := hs req _ pc
    have hnone : req.command = none := by simp [HttpRequest.command, hreq]
    have hbefore : s.called = none := by simp [Server.called, pc, called_by, hnone]
    have hafter : Server.called ⟨fw, some (req, after_settings v act (s.fw.callers HTTPD))⟩ =
        none := by
      show called_by req (fw.callers HTTPD) (after_settings v act (s.fw.callers HTTPD)) = none
      unfold after_settings
      split
      · simp [called_by, hnone]
      · simp [called_by, told, hnone]
      · simp [called_by, hnone]
    have hcall : (ServerLabel.settings act).call = none := by cases act <;> rfl
    simp [hbefore, hafter, hcall, answered]
  | send req r pc =>
    cases htold : told (req, r) <;>
      simp [Server.called, pc, called_by, answered, htold, ServerLabel.call, ServerLabel.firmware]
  | events req clocks pc | history req sends clock pc =>
    have hreq := hs req _ pc
    simp only [HandlerOf] at hreq
    have hnone : req.command = none := by simp [HttpRequest.command, hreq]
    simp [Server.called, Server.goto, pc, called_by, answered, told, hnone, ServerLabel.call,
      ServerLabel.firmware]
  | get req body pc | copy req pc _ | clock req c pc | config req c pc | unix req c v clk pc =>
    simp [Server.called, Server.goto, pc, called_by, answered, told, ServerLabel.call,
      ServerLabel.firmware]

/-! ## Requests in, answers out -/

/-- What has come in, gone out and been called. -/
structure ServedInv (acts : List ServerLabel) (out : List (HttpRequest × Response)) (s : Server) :
    Prop where
  caller : OneCaller s
  handler : ∀ req pc, s.serving = some (req, pc) → HandlerOf req pc
  order : received acts = out.map Prod.fst ++ (s.serving.map Prod.fst).toList
  answers : ∀ ex ∈ out, Answers ex.1 ex.2
  calls : calls_of acts = out.filterMap told ++ s.called.toList

theorem ServerStep.order {s s' : Server} {a : ServerLabel} (h : ServerStep s a s') :
    (s.serving.map Prod.fst).toList ++ a.received.toList =
      (answered s a).toList.map Prod.fst ++ (s'.serving.map Prod.fst).toList := by
  cases h with
  | device _ _ _ _ => simp [ServerLabel.received, answered]
  | request _ pc | manual _ _ _ _ pc _ _ | settings _ _ _ _ pc _ _ | get _ _ pc | copy _ pc _
  | clock _ _ pc | config _ _ pc | unix _ _ _ _ pc | events _ _ pc | history _ _ _ pc
  | send _ _ pc => simp [ServerLabel.received, answered, Server.goto, pc]

/-- An answer goes to its request. -/
theorem answered_answers {s : Server} {a : ServerLabel}
    (hs : ∀ req pc, s.serving = some (req, pc) → HandlerOf req pc) :
    ∀ ex ∈ (answered s a).toList, Answers ex.1 ex.2 := by
  intro ex hex
  unfold answered at hex
  split at hex
  · split at hex
    · rename_i req r hserving
      obtain rfl : ex = (req, r) := by simpa using hex
      exact hs req _ hserving
    · simp at hex
  · simp at hex

theorem ServedInv.step {acts : List ServerLabel} {out : List (HttpRequest × Response)}
    {s s' : Server} {a : ServerLabel} (hs : ServedInv acts out s) (h : ServerStep s a s') :
    ServedInv (acts ++ [a]) (out ++ (answered s a).toList) s' where
  caller := hs.caller.step h
  handler := h.handlerOf hs.handler
  order := by
    have hlast : received (acts ++ [a]) = received acts ++ a.received.toList := by
      unfold received
      rw [List.filterMap_append]
      cases hreq : a.received <;> simp [hreq]
    rw [hlast, hs.order, List.append_assoc, h.order, List.map_append, List.append_assoc]
  answers := by
    intro ex hex
    rcases List.mem_append.mp hex with hex | hex
    · exact hs.answers ex hex
    · exact answered_answers hs.handler ex hex
  calls := by
    rw [calls_of_concat, hs.calls, List.append_assoc, h.called hs.caller hs.handler,
      List.filterMap_append, List.append_assoc]

theorem served_inv {nvs : NvsBlob} {clock_us : Nat} {acts : List ServerLabel} {s : Server}
    (h : served.exec ⟨boot nvs clock_us, none⟩ acts = some s) :
    ServedInv acts (answers nvs clock_us acts) s := by
  refine history_invariant (P := fun acts s => ServedInv acts (answers nvs clock_us acts) s)
    ?_ ?_ h
  · exact ⟨oneCaller_boot nvs clock_us, by simp, rfl, by simp [answers, System.trace], rfl⟩
  · intro past s a s' hpast hs hstep
    rw [answers, trace_concat hpast]
    exact hs.step (server_step_inv hstep)

/-- **Every request is answered once, in order, and truthfully.**  The requests
    that have arrived are those that were answered and the one that is being
    served.  Each answer is one its handler may give.  The calls of
    `control_manual` that took place, in the order of their critical sections,
    are the commands of the pump requests that passed every check, each once,
    and the answer is a conflict exactly where the call was refused: so no
    other request ever reaches the control state. -/
theorem requests_answered (nvs : NvsBlob) (clock_us : Nat) (acts : List ServerLabel) (s : Server)
    (h : served.exec ⟨boot nvs clock_us, none⟩ acts = some s) :
    received acts =
        (answers nvs clock_us acts).map Prod.fst ++ (s.serving.map Prod.fst).toList ∧
      (∀ ex ∈ answers nvs clock_us acts, Answers ex.1 ex.2) ∧
      calls_of acts = (answers nvs clock_us acts).filterMap told ++ s.called.toList :=
  have hs := served_inv h
  ⟨hs.order, hs.answers, hs.calls⟩

/-- The admin's request to go back to automatic control. -/
def admin_auto : HttpRequest where
  route := .admin_pump
  admitted := true
  client_ip := fun _ => []
  body := some fun key => if key = "state".toList then some (.string "auto".toList) else none

/-- Seven seconds after boot, up to its answer. -/
def admin_auto_labels : List ServerLabel :=
  [.request admin_auto, .manual (.call ⟨.none, 0, "admin".toList⟩), .manual .lock,
    .manual .apply, .manual (.decide ⟨false, 0⟩),
    .manual (.unlock ⟨⟨.none, 0, "admin".toList⟩, 7, settings_init .missing, ⟨false, 0⟩⟩),
    .manual .leave, .copy, .clock, .config, .unix ⟨false, 0, 7, 7⟩]

/-- It is the one call there was, and is about to be told of. -/
theorem requests_answered_auto :
    ∃ s, served.exec ⟨boot .missing 7000000, none⟩ admin_auto_labels = some s ∧
      calls_of admin_auto_labels = s.called.toList :=
  ⟨_, rfl, (requests_answered .missing 7000000 admin_auto_labels _ rfl).2.2⟩

/-! ## The settings -/

/-- The bodies of the settings requests that have passed every check. -/
def patches (acts : List ServerLabel) : List Body := (received acts).filterMap HttpRequest.patch

theorem patches_concat (acts : List ServerLabel) (a : ServerLabel) :
    patches (acts ++ [a]) = patches acts ++ (a.received.bind HttpRequest.patch).toList := by
  unfold patches received
  rw [List.filterMap_append, List.filterMap_append]
  cases hreq : a.received with
  | none => simp [hreq]
  | some req => cases hbody : req.patch <;> simp [hreq, hbody]

/-- The handler has thresholds that are not in force yet. -/
def unapplied : HandlerPc → CallerPc → Bool
  | .patch _, _ => true
  | .save _, .idle | .save _, .set_called _ | .save _, .set_locked _ => true
  | _, _ => false

/-- The body that is being served, as long as it has changed nothing. -/
def Server.pending (s : Server) : Option Body :=
  s.serving.bind fun x => if unapplied x.2 (s.fw.callers HTTPD) then x.1.patch else none

theorem internal_settings {s s' : Firmware} {a : Label} (h : step s a = some s')
    (hinternal : a.internal = true) : s'.s_settings = s.s_settings ∧ s'.nvs = s.nvs := by
  cases a with
  | tick _ | disturb _ =>
    obtain rfl := Option.some.inj h
    exact ⟨rfl, rfl⟩
  | task act =>
    have hframe := (task_step_inv h).settings_frame
    exact ⟨hframe.settings, hframe.nvs⟩
  | manual _ _ | settings _ _ => simp [Label.internal] at hinternal

/-- What the handler passes to `settings_set` is over the settings in force. -/
def OverCurrent (s : Server) : Prop :=
  ∀ req v, s.serving = some (req, .save v) → unapplied (.save v) (s.fw.callers HTTPD) = true →
    ∃ body, req.patch = some body ∧ v = settings_request s.fw.s_settings body

/-- The patches that take effect in a step: none, or the one that is pending. -/
structure PatchStep (s : Server) (a : ServerLabel) (s' : Server) : Prop where
  current : OverCurrent s'
  patches : ∃ took, s.pending.toList ++ (a.received.bind HttpRequest.patch).toList =
      took ++ s'.pending.toList ∧ s'.fw.s_settings = took.foldl settings_post s.fw.s_settings

/-- No patch takes effect. -/
theorem PatchStep.keep {s s' : Server} {a : ServerLabel} (hover : OverCurrent s')
    (hpending : s'.pending = s.pending.or (a.received.bind HttpRequest.patch))
    (hone : s.pending = none ∨ a.received.bind HttpRequest.patch = none)
    (hsettings : s'.fw.s_settings = s.fw.s_settings) : PatchStep s a s' := by
  refine ⟨hover, [], ?_, hsettings⟩
  rw [hpending]
  rcases hone with hnone | hnone <;> simp [hnone]

/-- A step of `settings_set` before the settings are applied. -/
theorem SetStep.patchStep {s : Server} {fw : Firmware} {act : SetAct}
    (h : SetStep s.fw HTTPD act fw) {req : HttpRequest} {v : Settings}
    (pc : s.serving = some (req, .save v)) (hover : OverCurrent s)
    (hpc : s.fw.callers HTTPD = .idle ∨ (s.fw.callers HTTPD).SaveOf v) :
    PatchStep s (.settings act)
      ⟨fw, some (req, after_settings v act (s.fw.callers HTTPD))⟩ := by
  have hover' := hover req v pc
  have hpending : s.pending =
      if unapplied (.save v) (s.fw.callers HTTPD) then req.patch else none := by
    simp [Server.pending, pc]
  cases h with
  | call w hat | lock w hat _ =>
    rw [hat] at hover' hpending
    refine .keep ?_ ?_ (Or.inr rfl) rfl
    · intro req' v' hserving _
      obtain ⟨rfl, rfl⟩ : req = req' ∧ v = v' := by simpa [after_settings] using hserving
      exact hover' rfl
    · rw [hpending]
      simp [Server.pending, set_caller_same, after_settings, unapplied, ServerLabel.received]
  | apply w hat =>
    rw [hat] at hover' hpending hpc
    obtain ⟨body, hbody, rfl⟩ := hover' rfl
    obtain rfl : w = sanitize (settings_request s.fw.s_settings body) :=
      hpc.resolve_left (by simp)
    refine ⟨?_, [body], ?_, rfl⟩
    · intro req' v' hserving hun
      obtain ⟨rfl, rfl⟩ : req = req' ∧ _ = v' := by simpa [after_settings] using hserving
      simp [set_caller_same, unapplied] at hun
    · rw [hpending]
      simp [Server.pending, set_caller_same, after_settings, unapplied, ServerLabel.received, hbody]
  | nvs_open w ok hat | nvs_set_blob w ok _ hat =>
    rw [hat] at hpending
    refine .keep ?_ ?_ (Or.inr rfl) rfl
    · intro req' v' hserving hun
      cases ok <;> simp [set_caller_same, unapplied] at hun
    · rw [hpending]
      cases ok <;> simp [Server.pending, set_caller_same, after_settings, unapplied, ServerLabel.received]
  | nvs_commit w _ _ hat | unlock w _ hat =>
    rw [hat] at hpending
    refine .keep ?_ ?_ (Or.inr rfl) rfl
    · intro req' v' hserving hun
      simp [set_caller_same, unapplied] at hun
    · rw [hpending]
      simp [Server.pending, set_caller_same, after_settings, unapplied, ServerLabel.received]
  | leave w ok hat =>
    rw [hat] at hpending
    refine .keep ?_ ?_ (Or.inr rfl) rfl
    · intro req' v' hserving hun
      rw [hat] at hserving
      cases ok <;> simp [after_settings] at hserving
    · rw [hpending, hat]
      cases ok <;> simp [Server.pending, set_caller_same, after_settings, unapplied, ServerLabel.received]

theorem ServerStep.patchStep {s s' : Server} {a : ServerLabel} (h : ServerStep s a s')
    (hcaller : OneCaller s) (hs : ∀ req pc, s.serving = some (req, pc) → HandlerOf req pc)
    (hover : OverCurrent s) : PatchStep s a s' := by
  have hhttpd := hcaller.httpd
  cases h with
  | device a fw hinternal took =>
    have hcallers := internal_callers took hinternal HTTPD
    have hsettings := (internal_settings took hinternal).1
    refine .keep ?_ ?_ (Or.inr rfl) hsettings
    · intro req v hserving hun
      rw [hcallers] at hun
      rw [hsettings]
      exact hover req v hserving hun
    · simp [Server.pending, ServerLabel.received, hcallers]
  | request req pc =>
    have hnone : s.pending = none := by simp [Server.pending, pc]
    refine .keep ?_ ?_ (Or.inl hnone) rfl
    · -- no handler starts with a save
      intro req' v hserving _
      obtain ⟨rfl, hsave⟩ : req = req' ∧ dispatch req = .save v := by
        simpa [Server.goto] using hserving
      have hof := dispatch_handlerOf req
      rw [hsave] at hof
      obtain ⟨body, hbody⟩ := hof
      rw [hbody] at hsave
      cases hsave
    · rw [hnone]
      show (if unapplied (dispatch req) (s.fw.callers HTTPD) then req.patch else none) = req.patch
      cases hreq : dispatch req <;> simp [unapplied, HttpRequest.patch, hreq]
  | manual req q act fw pc passes took =>
    have hsettings := (manual_step_inv took).settings_frame.settings
    have hbefore : s.pending = none := by simp [Server.pending, pc, unapplied]
    refine .keep ?_ ?_ (Or.inl hbefore) hsettings
    · intro req' v hserving _
      have hsave : after_manual q act (s.fw.callers HTTPD) = .save v := by
        have := congrArg (Option.map Prod.snd) hserving
        simpa using this
      unfold after_manual at hsave
      split at hsave <;> cases hsave
    · rw [hbefore]
      show (if unapplied (after_manual q act (s.fw.callers HTTPD)) (fw.callers HTTPD)
        then req.patch else none) = none
      unfold after_manual
      split <;> simp [unapplied]
  | settings req v act fw pc passes took =>
    rw [pc] at hhttpd
    exact (settings_step_inv took).patchStep pc hover hhttpd
  | get req body pc =>
    rw [pc] at hhttpd
    have hidle : s.fw.callers HTTPD = .idle := hhttpd
    have hreq : dispatch req = .patch body := hs req _ pc
    refine .keep ?_ ?_ (Or.inr rfl) rfl
    · intro req' v hserving _
      obtain ⟨rfl, rfl⟩ : req = req' ∧ settings_request s.fw.s_settings body = v := by
        simpa [Server.goto] using hserving
      exact ⟨body, by simp [HttpRequest.patch, hreq], rfl⟩
    · simp [Server.pending, Server.goto, pc, unapplied, hidle, ServerLabel.received]
  | copy req pc _ | clock req _ pc | config req _ pc | unix req _ _ _ pc | events req _ pc
  | history req _ _ pc | send req _ pc =>
    refine .keep ?_ ?_ (Or.inr rfl) rfl
    · intro req' v hserving
      simp [Server.goto] at hserving
    · simp [Server.pending, Server.goto, pc, unapplied, ServerLabel.received]

theorem served_patches {nvs : NvsBlob} {clock_us : Nat} {acts : List ServerLabel} {s : Server}
    (h : served.exec ⟨boot nvs clock_us, none⟩ acts = some s) :
    OverCurrent s ∧ ∃ took, patches acts = took ++ s.pending.toList ∧
      s.fw.s_settings = took.foldl settings_post (settings_init nvs) := by
  refine history_invariant (P := fun acts s =>
    OverCurrent s ∧ ∃ took, patches acts = took ++ s.pending.toList ∧
      s.fw.s_settings = took.foldl settings_post (settings_init nvs)) ?_ ?_ h
  · exact ⟨fun req v hserving => by simp at hserving, [], rfl, rfl⟩
  · rintro past s a s' hpast ⟨hover, took, htook, hsettings⟩ hstep
    have hinv := served_inv hpast
    have hpatch := (server_step_inv hstep).patchStep hinv.caller hinv.handler hover
    obtain ⟨more, hmore, hsettings'⟩ := hpatch.patches
    refine ⟨hpatch.current, took ++ more, ?_, ?_⟩
    · rw [patches_concat, htook, List.append_assoc, hmore, List.append_assoc]
    · rw [hsettings', hsettings, List.foldl_append]

/-- **No update is lost.**  `settings_handler` reads the settings, merges its
    body into the copy and only then calls `settings_set`, with nothing held
    in between.  Yet the settings are at any moment what all patches so far,
    in order of arrival, make of those at boot, less the one that is being
    served, as long as it has changed nothing. -/
theorem no_update_lost (nvs : NvsBlob) (clock_us : Nat) (acts : List ServerLabel) (s : Server)
    (h : served.exec ⟨boot nvs clock_us, none⟩ acts = some s) :
    ∃ took, patches acts = took ++ s.pending.toList ∧
      s.fw.s_settings = took.foldl settings_post (settings_init nvs) :=
  (served_patches h).2

/-- A start threshold of 31 °C. -/
def patch_start : HttpRequest where
  route := .settings
  admitted := true
  client_ip := fun _ => []
  body := some fun key => if key = "start_c".toList then some (.number 31) else none

/-- Up to the moment it is in force. -/
def patch_start_labels : List ServerLabel :=
  [.request patch_start, .get, .settings (.call ⟨310, 250, 450⟩), .settings .lock, .settings .apply]

theorem no_update_lost_start :
    ∃ s, served.exec ⟨boot .missing 0, none⟩ patch_start_labels = some s ∧
      ∃ took, patches patch_start_labels = took ++ s.pending.toList ∧
        s.fw.s_settings = took.foldl settings_post (settings_init .missing) := by
  have hexec : (served.exec ⟨boot .missing 0, none⟩ patch_start_labels).isSome = true := by
    decide +kernel
  obtain ⟨s, hs⟩ := Option.isSome_iff_exists.mp hexec
  exact ⟨s, hs, no_update_lost _ _ _ _ hs⟩

end FloorHeating
