import FloorHeating.Requests

/-! # Every request is answered

    `requests_answered` says which answer a request gets, and that it gets no
    more than one.  Here it gets one: a handler waits for nothing but
    `s_lock`, in `control_status` and in `control_manual`, and who holds that
    is `control_task`, which waits for nobody.  `s_write_lock` never keeps
    the one handler waiting.

    Source: the handlers of `api.c`, `control_status`, `control_manual`,
    `control_task` (`control.c`), `settings_set` (`settings.c`). -/

namespace FloorHeating

open LTS

/-! ## What is left of a request -/

/-- A step of httpd in a handler. -/
def ServerLabel.serves : ServerLabel → Bool
  | .device _ | .request _ => false
  | _ => true

/-- A step of `control_task`. -/
def ServerLabel.controls : ServerLabel → Bool
  | .device (.task _) => true
  | _ => false

/-- The steps of a call, at most, that its handler is about to make. -/
def CallerPc.to_return : CallerPc → Nat
  | .idle => 8
  | pc => pc.left

/-- The steps of a handler to its answer, at most. -/
def HandlerPc.left (caller : CallerPc) : HandlerPc → Nat
  | .respond _ => 1
  | .list_events | .copy_history | .configured _ _ => 2
  | .timed _ => 3
  | .copied _ => 4
  | .report => 5
  | .command _ | .save _ => 5 + caller.to_return
  | .patch _ => 14

def Server.left (s : Server) : Nat :=
  (s.serving.map fun x => x.2.left (s.fw.callers HTTPD)).getD 0

theorem left_serving {s : Server} {req : HttpRequest} {pc : HandlerPc}
    (h : s.serving = some (req, pc)) : s.left = pc.left (s.fw.callers HTTPD) := by
  simp [Server.left, h]

theorem ManualStep.handler_left {s s' : Firmware} {act : ManualAct}
    (h : ManualStep s HTTPD act s') (q : Request) :
    (after_manual q act (s.callers HTTPD)).left (s'.callers HTTPD) <
      5 + (s.callers HTTPD).to_return := by
  cases h with
  | leave res pc =>
    rw [set_caller_same, pc]
    cases res <;> simp [after_manual, HandlerPc.left, CallerPc.to_return, CallerPc.left]
  | decide _ _ _ pc =>
    unfold Firmware.manual_decide
    rw [set_caller_same, pc]
    simp [after_manual, HandlerPc.left, CallerPc.to_return, CallerPc.left]
  | call _ pc | lock _ pc _ | accept _ _ pc _ | reject _ pc _ | unlock _ pc | refuse _ _ pc =>
    rw [set_caller_same, pc]
    simp [after_manual, HandlerPc.left, CallerPc.to_return, CallerPc.left]

theorem SetStep.handler_left {s s' : Firmware} {act : SetAct}
    (h : SetStep s HTTPD act s') (v : Settings) :
    (after_settings v act (s.callers HTTPD)).left (s'.callers HTTPD) <
      5 + (s.callers HTTPD).to_return := by
  cases h with
  | leave _ ok pc | nvs_open _ ok pc | nvs_set_blob _ ok _ pc =>
    rw [set_caller_same, pc]
    cases ok <;> simp [after_settings, HandlerPc.left, CallerPc.to_return, CallerPc.left]
  | call _ pc | lock _ pc _ | apply _ pc | nvs_commit _ _ _ pc | unlock _ _ pc =>
    rw [set_caller_same, pc]
    simp [after_settings, HandlerPc.left, CallerPc.to_return, CallerPc.left]

/-- Every step of a handler brings its answer closer. -/
theorem ServerStep.left_lt {s s' : Server} {a : ServerLabel} (h : ServerStep s a s')
    (hcaller : OneCaller s) (hserves : a.serves = true) : s'.left < s.left := by
  have hhttpd := hcaller.httpd
  cases h with
  | device _ _ _ _ | request _ _ => simp [ServerLabel.serves] at hserves
  | manual req q act fw pc _ took =>
    rw [left_serving pc]
    exact (manual_step_inv took).handler_left q
  | settings req v act fw pc _ took =>
    rw [left_serving pc]
    exact (settings_step_inv took).handler_left v
  | get req body pc =>
    rw [pc] at hhttpd
    have hidle : s.fw.callers HTTPD = .idle := hhttpd
    rw [left_serving pc]
    simp [Server.left, Server.goto, HandlerPc.left, CallerPc.to_return, hidle]
  | copy _ pc _ | clock _ _ pc | config _ _ pc | unix _ _ _ _ pc | events _ _ pc
  | history _ _ _ pc =>
    rw [left_serving pc]
    simp [Server.left, Server.goto, HandlerPc.left]
  | send req r pc =>
    rw [left_serving pc]
    simp [Server.left, HandlerPc.left]

/-- While a request is being served, no other step moves its handler. -/
theorem ServerStep.left_others {s s' : Server} {a : ServerLabel} (h : ServerStep s a s')
    (hserves : a.serves = false) (hserving : s.serving ≠ none) : s'.left = s.left := by
  cases h with
  | device a fw hinternal took =>
    show (s.serving.map fun x => x.2.left (fw.callers HTTPD)).getD 0 = s.left
    rw [internal_callers took hinternal HTTPD]
    rfl
  | request req pc => exact absurd pc hserving
  | manual _ _ _ _ _ _ _ | settings _ _ _ _ _ _ _ | get _ _ _ | copy _ _ _ | clock _ _ _
  | config _ _ _ | unix _ _ _ _ _ | events _ _ _ | history _ _ _ _ | send _ _ _ =>
    simp [ServerLabel.serves] at hserves

/-- Only `control_task` moves itself. -/
theorem ServerStep.task_stays {s s' : Server} {a : ServerLabel} (h : ServerStep s a s')
    (hcontrols : a.controls = false) : s'.fw.task = s.fw.task := by
  cases h with
  | device a fw _ took =>
    refine (step_others took).1 fun hmover => ?_
    cases a <;> simp_all [Label.mover, ServerLabel.controls]
  | manual _ _ act fw _ _ took =>
    exact (step_others (a := .manual HTTPD act) took).1 (by simp [Label.mover])
  | settings _ _ act fw _ _ took =>
    exact (step_others (a := .settings HTTPD act) took).1 (by simp [Label.mover])
  | request _ _ | get _ _ _ | copy _ _ _ | clock _ _ _ | config _ _ _ | unix _ _ _ _ _
  | events _ _ _ | history _ _ _ _ | send _ _ _ => rfl

/-- Nothing arrives meanwhile. -/
theorem ServerStep.received_none {s s' : Server} {a : ServerLabel} (h : ServerStep s a s')
    (hserving : s.serving ≠ none) : a.received = none := by
  cases h with
  | request req pc => exact absurd pc hserving
  | device _ _ _ _ | manual _ _ _ _ _ _ _ | settings _ _ _ _ _ _ _ | get _ _ _ | copy _ _ _
  | clock _ _ _ | config _ _ _ | unix _ _ _ _ _ | events _ _ _ | history _ _ _ _ | send _ _ _ => rfl

/-! ## Who can move -/

section ready
variable {s : Server} (hcaller : OneCaller s) (hlocks : LocksHeld s.fw)
include hcaller hlocks

/-- httpd does not wait for itself, and nobody else saves. -/
theorem httpd_free (hlock : s.fw.s_lock ≠ some .task) :
    ((s.fw.callers HTTPD).waits_lock = true → s.fw.s_lock = none) ∧
      ((s.fw.callers HTTPD).waits_write = true → s.fw.s_write_lock = none) := by
  obtain ⟨-, hholder, hwriter⟩ := holder_next hlocks
  have honly : ∀ c, s.fw.left (.caller c) ≠ 0 → c = HTTPD := by
    intro c hbusy
    by_contra hc
    exact hbusy (CallerPc.left_eq_zero.mpr (hcaller.others c hc))
  refine ⟨fun hwaits => ?_, fun hwaits => ?_⟩
  · cases h : s.fw.s_lock with
    | none => rfl
    | some o =>
      cases o with
      | task => exact absurd h hlock
      | caller c =>
        obtain rfl := honly c (holds_s_lock_busy hlocks h)
        rw [(hholder _ h).1] at hwaits
        exact absurd hwaits Bool.false_ne_true
  · cases h : s.fw.s_write_lock with
    | none => rfl
    | some c =>
      obtain rfl := honly c (holds_write_lock_busy hlocks h)
      rw [(hwriter _ h).2] at hwaits
      exact absurd hwaits Bool.false_ne_true

/-- A call of `control_manual` begins or goes on. -/
theorem command_ready (hlock : s.fw.s_lock ≠ some .task) {req : HttpRequest} {q : Request}
    (hpc : s.serving = some (req, .command q)) :
    ∃ act, (server_step s (.manual act)).isSome := by
  obtain ⟨hwaits, hwaits_write⟩ := httpd_free hcaller hlocks hlock
  have hhttpd := hcaller.httpd
  rw [hpc] at hhttpd
  rcases hhttpd with hidle | hcommand
  · exact ⟨.call q, by simp [server_step, hpc, ManualAct.passes, manual_step, hidle]⟩
  have hcommands : (s.fw.callers HTTPD).commands = true := by
    cases h : s.fw.callers HTTPD <;> simp_all [CallerPc.CommandOf, CallerPc.commands]
  have hbusy : s.fw.callers HTTPD ≠ .idle := by
    intro hidle
    simp [hidle, CallerPc.commands] at hcommands
  obtain ⟨a, hmover, hgoes, hcontrols, hsome⟩ := caller_next s.fw HTTPD hbusy hwaits hwaits_write
  rw [hcommands] at hcontrols
  cases a with
  | manual c act =>
    obtain rfl : c = HTTPD := by simpa [Label.mover] using hmover
    have hpasses : act.passes q = true := by
      cases act <;> simp_all [Label.begins, ManualAct.passes]
    have hsome : (manual_step s.fw HTTPD act).isSome := hsome
    refine ⟨act, ?_⟩
    simpa [server_step, hpc, hpasses] using hsome
  | tick _ | disturb _ | task _ => simp [Label.mover] at hmover
  | settings _ _ => simp [Label.controls] at hcontrols

/-- So does one of `settings_set`. -/
theorem save_ready (hlock : s.fw.s_lock ≠ some .task) {req : HttpRequest} {v : Settings}
    (hpc : s.serving = some (req, .save v)) :
    ∃ act, (server_step s (.settings act)).isSome := by
  obtain ⟨hwaits, hwaits_write⟩ := httpd_free hcaller hlocks hlock
  have hhttpd := hcaller.httpd
  rw [hpc] at hhttpd
  rcases hhttpd with hidle | hsave
  · exact ⟨.call v, by simp [server_step, hpc, SetAct.passes, settings_step, hidle]⟩
  have hcommands : (s.fw.callers HTTPD).commands = false := by
    cases h : s.fw.callers HTTPD <;> simp_all [CallerPc.SaveOf, CallerPc.commands]
  have hbusy : s.fw.callers HTTPD ≠ .idle := by
    intro hidle
    simp [hidle, CallerPc.SaveOf] at hsave
  obtain ⟨a, hmover, hgoes, hcontrols, hsome⟩ := caller_next s.fw HTTPD hbusy hwaits hwaits_write
  rw [hcommands] at hcontrols
  cases a with
  | settings c act =>
    obtain rfl : c = HTTPD := by simpa [Label.mover] using hmover
    have hpasses : act.passes v = true := by
      cases act <;> simp_all [Label.begins, SetAct.passes]
    have hsome : (settings_step s.fw HTTPD act).isSome := hsome
    refine ⟨act, ?_⟩
    simpa [server_step, hpc, hpasses] using hsome
  | tick _ | disturb _ => simp [Label.mover] at hmover
  | task _ | manual _ _ => simp [Label.controls] at hcontrols

/-- A handler at `control_status` finds the lock free. -/
theorem report_free (hlock : s.fw.s_lock ≠ some .task) {req : HttpRequest}
    (hpc : s.serving = some (req, .report)) : s.fw.s_lock = none := by
  have hhttpd := hcaller.httpd
  rw [hpc] at hhttpd
  have hidle : ∀ c, s.fw.callers c = .idle := by
    intro c
    by_cases hc : c = HTTPD
    · rw [hc]
      exact hhttpd
    · exact hcaller.others c hc
  cases h : s.fw.s_lock with
  | none => rfl
  | some o =>
    cases o with
    | task => exact absurd h hlock
    | caller c =>
      exact absurd (CallerPc.left_eq_zero.mpr (hidle c)) (holds_s_lock_busy hlocks h)

/-- **Only `control_task` can keep a handler waiting.** -/
theorem handler_ready (hlock : s.fw.s_lock ≠ some .task) (hserving : s.serving ≠ none) :
    served.Ready (fun a => a.serves = true) s := by
  have hready : ∀ a : ServerLabel, a.serves = true → (server_step s a).isSome →
      served.Ready (fun a => a.serves = true) s := by
    intro a ha hsome
    obtain ⟨s', hs'⟩ := Option.isSome_iff_exists.mp hsome
    exact ⟨a, s', ha, hs'⟩
  obtain ⟨⟨req, pc⟩, hpc⟩ := Option.ne_none_iff_exists'.mp hserving
  cases pc with
  | command q =>
    obtain ⟨act, hsome⟩ := command_ready hcaller hlocks hlock hpc
    exact hready (.manual act) rfl hsome
  | save v =>
    obtain ⟨act, hsome⟩ := save_ready hcaller hlocks hlock hpc
    exact hready (.settings act) rfl hsome
  | report =>
    have hfree := report_free hcaller hlocks hlock hpc
    exact hready .copy rfl (by simp [server_step, hpc, hfree])
  | patch body => exact hready .get rfl (by simp [server_step, hpc])
  | copied c => exact hready .clock rfl (by simp [server_step, hpc])
  | timed c => exact hready .config rfl (by simp [server_step, hpc])
  | configured c v => exact hready (.unix ⟨false, 0, 0, 0⟩) rfl (by simp [server_step, hpc])
  | list_events =>
    exact hready (.events fun _ => ⟨false, 0, 0, 0⟩) rfl (by simp [server_step, hpc])
  | copy_history =>
    exact hready (.history (fun _ => true) ⟨false, 0, 0, 0⟩) rfl (by simp [server_step, hpc])
  | respond r => exact hready .send rfl (by simp [server_step, hpc])

end ready

/-! ## Fair executions -/

section fair
variable (e : Execution served)

/-- The answers among the first `n` steps. -/
def replies (n : Nat) : List (HttpRequest × Response) :=
  served.trace answered (e.states 0) (e.past n)

theorem served_states (n : Nat) :
    ServedInv (e.past n) (replies e n) (e.states n) ∧ LocksHeld (e.states n).fw := by
  obtain ⟨nvs, clock_us, hboot⟩ := e.init
  have hexec := e.exec n
  rw [hboot] at hexec
  refine ⟨?_, firmware_locks (served_run hexec)⟩
  unfold replies
  rw [hboot]
  exact served_inv hexec

/-- `control_task` does not keep `s_lock`. -/
theorem task_releases (htask : e.Fair fun a => a.controls = true) (n : Nat) :
    ∃ m ≥ n, (e.states m).fw.s_lock ≠ some .task := by
  refine htask.leaves (fun s => s.fw.s_lock = some .task) (fun s => s.fw.task.left) ?_ ?_ ?_ n
  · intro k _ hother _
    rw [(server_step_inv (e.step k)).task_stays (by simpa using hother)]
  · intro k hk hcontrols _
    have hfirmware := server_step_firmware (server_step_inv (e.step k))
    have hbusy := holds_s_lock_busy (served_states e k).2 hk
    obtain ⟨act, ha⟩ : ∃ act, e.labels k = .device (.task act) := by
      cases hk : e.labels k with
      | device a => cases a <;> simp_all [ServerLabel.controls]
      | _ => simp_all [ServerLabel.controls]
    rw [ha] at hfirmware
    exact due_left_lt (o := .task) hfirmware hbusy rfl
  · intro k hk
    -- who is inside waits for nobody
    have hholder := (holder_next (served_states e k).2).1 (hk k le_rfl)
    obtain ⟨fw, hstep⟩ := task_next (e.states k).fw fun hnext => absurd hnext hholder
    have hready : served.step (e.states k) (.device (.task (e.states k).fw.task.next)) =
        some { e.states k with fw } := by
      simp [served, server_step, Label.internal, hstep]
    exact ⟨k, le_rfl, _, _, rfl, hready⟩

/-- The request that is being served is done with at some time. -/
theorem request_done (htask : e.Fair fun a => a.controls = true)
    (hhttpd : e.Fair fun a => a.serves = true) (n : Nat) :
    ∃ m ≥ n, (e.states m).serving = none := by
  have hleaves := hhttpd.leaves (fun s => s.serving ≠ none) Server.left ?_ ?_ ?_ n
  · obtain ⟨m, hm, hnone⟩ := hleaves
    exact ⟨m, hm, not_not.mp hnone⟩
  · intro k hk hother _
    exact ((server_step_inv (e.step k)).left_others (by simpa using hother) hk).le
  · intro k _ hserves _
    exact (server_step_inv (e.step k)).left_lt (served_states e k).1.caller hserves
  · intro k hk
    obtain ⟨m, hm, hlock⟩ := task_releases e htask k
    have hs := served_states e m
    exact ⟨m, hm, handler_ready hs.1.caller hs.2 hlock (hk m hm)⟩

/-- **Every request is answered.**  In every infinite run in which the
    scheduler is fair to httpd and to `control_task`, whatever comes in, and
    whatever the sensor, the clocks and the NVS answer: the requests that have
    arrived by any step have all been answered by some later one, each once
    and in order, with an answer of their own, and every command among them
    that passed the checks has been given to `control_manual` and its answer
    tells what came of it. -/
theorem every_request_answered (htask : e.Fair fun a => a.controls = true)
    (hhttpd : e.Fair fun a => a.serves = true) (n : Nat) :
    ∃ m ≥ n, (replies e m).map Prod.fst = received (e.past n) ∧
      (∀ ex ∈ replies e m, Answers ex.1 ex.2) ∧
      calls_of (e.past m) = (replies e m).filterMap told := by
  obtain ⟨m, hm, hdone, hbusy⟩ := exists_first (request_done e htask hhttpd n)
  -- nothing arrives as long as a request is being served
  have hnone : received (e.past m) = received (e.past n) := by
    clear hdone
    induction m, hm using Nat.le_induction with
    | base => rfl
    | succ m hm ih =>
      rw [← ih fun k hk hlt => hbusy k hk (by omega)]
      have hlast := (server_step_inv (e.step m)).received_none (hbusy m hm (Nat.lt_succ_self m))
      simp [Execution.past_succ, received, hlast]
  have hs := (served_states e m).1
  refine ⟨m, hm, ?_, hs.answers, ?_⟩
  · rw [← hnone, hs.order, hdone]
    simp
  · rw [hs.calls]
    simp [Server.called, hdone]

end fair

/-! An execution to which it applies: the event list is asked for again and
    again, and after each answer `control_task` takes one step. -/

def events_request : HttpRequest where
  route := .events
  admitted := true
  client_ip := fun _ => []
  body := none

def asking (n : Nat) : Server :=
  let fw := alone_step^[n / 4] (boot .missing 0)
  { fw
    serving := match n % 4 with
      | 1 => some (events_request, .list_events)
      | 2 => some (events_request, .respond (.events (events_json fw.dev.events fun _ =>
          ⟨false, 0, 0, 0⟩)))
      | _ => none }

def asking_label (n : Nat) : ServerLabel :=
  match n % 4 with
  | 0 => .request events_request
  | 1 => .events fun _ => ⟨false, 0, 0, 0⟩
  | 2 => .send
  | _ => .device (.task (alone_step^[n / 4] (boot .missing 0)).task.next)

theorem asking_step (n : Nat) :
    server_step (asking n) (asking_label n) = some (asking (n + 1)) := by
  unfold asking asking_label
  have hcases : n % 4 = 0 ∨ n % 4 = 1 ∨ n % 4 = 2 ∨ n % 4 = 3 := by omega
  rcases hcases with h | h | h | h
  · have hnext : (n + 1) / 4 = n / 4 ∧ (n + 1) % 4 = 1 := by omega
    rw [h, hnext.1, hnext.2]
    rfl
  · have hnext : (n + 1) / 4 = n / 4 ∧ (n + 1) % 4 = 2 := by omega
    rw [h, hnext.1, hnext.2]
    rfl
  · have hnext : (n + 1) / 4 = n / 4 ∧ (n + 1) % 4 = 3 := by omega
    rw [h, hnext.1, hnext.2]
    rfl
  · have hnext : (n + 1) / 4 = n / 4 + 1 ∧ (n + 1) % 4 = 0 := by omega
    rw [h, hnext.1, hnext.2, Function.iterate_succ_apply']
    simp [server_step, Label.internal, alone_next (alone_states (n / 4))]

def asking_execution : Execution served where
  states := asking
  labels := asking_label
  init := ⟨.missing, 0, rfl⟩
  step := asking_step

/-- The request that has arrived with the first step is answered. -/
theorem every_request_answered_events :
    ∃ m ≥ 1, (replies asking_execution m).map Prod.fst = [events_request] := by
  obtain ⟨m, hm, hanswered, -⟩ := every_request_answered asking_execution
    (fun _ n => ⟨4 * n + 3, by omega, by
      simp [asking_execution, asking_label, ServerLabel.controls]⟩)
    (fun _ n => ⟨4 * n + 2, by omega, by
      simp [asking_execution, asking_label, ServerLabel.serves]⟩) 1
  exact ⟨m, hm, hanswered⟩

end FloorHeating
