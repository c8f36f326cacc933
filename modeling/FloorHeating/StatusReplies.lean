import FloorHeating.ManualOverride
import FloorHeating.Requests

/-! # What a status document says

    All but two of the handlers end with `status_json`.  It copies the state
    under `s_lock`, and reads the clock, the settings and the wall clock one
    after the other with nothing held, while `control_task` goes on.  The
    document is a picture of the moment of the copy nevertheless: the copy is
    of a moment between two critical sections, the times are relative to a
    clock that only went on, and nobody but the handler itself could have
    changed the settings. -/

namespace FloorHeating

open LTS

/-! ## The picture grows old -/

theorem StateBy.mono {b b' : Int} {s : CtlState} (h : StateBy b s) (hle : b ≤ b') :
    StateBy b' s where
  changed := le_trans h.changed hle
  reading := fun htemp => le_trans (h.reading htemp) hle
  last_on := le_trans h.last_on hle
  manual := fun hm => le_trans (h.manual hm) (by omega)
  maintenance := fun hm => le_trans (h.maintenance hm) (by omega)
  idle := h.idle

theorem Pictured.mono {d : Device} {t t' : Int} (h : Pictured d t) (hle : t ≤ t') :
    Pictured d t' :=
  ⟨h.settled, h.times.mono hle, h.reading, h.failed⟩

/-- The device `d` is what the sections up to `now_s` have left, and no call has
    ended since. -/
structure Picture (boot_s : Int) (secs : List Section) (d : Device) (now_s : Int) : Prop where
  pictured : Pictured d now_s
  taken : ∃ before since, secs = before ++ since ∧
    sections.exec (control_start boot_s) before = some d ∧
    (∀ sec ∈ before, sec.now_s ≤ now_s) ∧ since.filterMap Section.call = []

theorem Picture.extend {boot_s : Int} {secs more : List Section} {d : Device} {now_s : Int}
    (h : Picture boot_s secs d now_s) (hmore : more.filterMap Section.call = []) :
    Picture boot_s (secs ++ more) d now_s := by
  obtain ⟨before, since, rfl, hexec, hby, hsince⟩ := h.taken
  refine ⟨h.pictured, before, since ++ more, by simp, hexec, hby, ?_⟩
  rw [List.filterMap_append, hsince, hmore]
  rfl

theorem Picture.mono {boot_s : Int} {secs : List Section} {d : Device} {t t' : Int}
    (h : Picture boot_s secs d t) (hle : t ≤ t') : Picture boot_s secs d t' := by
  obtain ⟨before, since, rfl, hexec, hby, hsince⟩ := h.taken
  exact ⟨h.pictured.mono hle, before, since, rfl, hexec,
    fun sec hsec => le_trans (hby sec hsec) hle, hsince⟩

/-! ## The picture in the handler's locals -/

/-- What the handler's locals, or its answer, hold of the device. -/
def Holds (boot_s : Int) (secs : List Section) (fw : Firmware) : HandlerPc → Prop
  | .copied c => ∃ d, c = control_status d 0 ∧ Picture boot_s secs d fw.mono_s
  | .timed c => ∃ d t, c = control_status d t ∧ Picture boot_s secs d t
  | .configured c v => v = fw.s_settings ∧
    ∃ d t, c = control_status d t ∧ Picture boot_s secs d t
  | .respond (.status st) => ∃ d t clock,
    st = status_json (control_status d t) fw.s_settings clock ∧ Picture boot_s secs d t
  | _ => True

/-- What goes on meanwhile leaves that as it is. -/
theorem Holds.keep {boot_s : Int} {secs more : List Section} {fw fw' : Firmware} {pc : HandlerPc}
    (h : Holds boot_s secs fw pc) (hmore : more.filterMap Section.call = [])
    (hclock : fw.mono_s ≤ fw'.mono_s) (hsettings : fw'.s_settings = fw.s_settings) :
    Holds boot_s (secs ++ more) fw' pc := by
  cases pc with
  | copied c =>
    obtain ⟨d, hc, hd⟩ := h
    exact ⟨d, hc, (hd.extend hmore).mono hclock⟩
  | timed c =>
    obtain ⟨d, t, hc, hd⟩ := h
    exact ⟨d, t, hc, hd.extend hmore⟩
  | configured c v =>
    obtain ⟨hv, d, t, hc, hd⟩ := h
    exact ⟨hv.trans hsettings.symm, d, t, hc, hd.extend hmore⟩
  | respond r =>
    cases r with
    | status st =>
      obtain ⟨d, t, clock, hst, hd⟩ := h
      rw [← hsettings] at hst
      exact ⟨d, t, clock, hst, hd.extend hmore⟩
    | guarded | unauthorized | error _ _ | events _ | history _ => trivial
  | command _ | patch _ | save _ | report | list_events | copy_history => trivial

/-- The sections of a run of the server. -/
def server_sections (acts : List ServerLabel) : List Section :=
  sections_of (firmware_labels acts)

theorem server_sections_concat (acts : List ServerLabel) (a : ServerLabel) :
    server_sections (acts ++ [a]) =
      server_sections acts ++ (a.firmware.bind Label.released).toList := by
  unfold server_sections sections_of firmware_labels
  rw [List.filterMap_append, List.filterMap_append]
  cases hb : a.firmware with
  | none => simp [hb]
  | some b => cases hsec : b.released <;> simp [hb, hsec]

/-- No handler starts with anything in its hands. -/
theorem dispatch_holds (boot_s : Int) (secs : List Section) (fw : Firmware) (req : HttpRequest) :
    Holds boot_s secs fw (dispatch req) := by
  have hof := dispatch_handlerOf req
  unfold dispatch start_command
  split
  · split <;> trivial
  · split <;> (try split) <;> (try split) <;> trivial

theorem ServerStep.holds {s s' : Server} {a : ServerLabel} (h : ServerStep s a s')
    {nvs : NvsBlob} {clock_us : Nat} {past : List ServerLabel}
    (hpast : served.exec ⟨boot nvs clock_us, none⟩ past = some s)
    (hs : ∀ req pc, s.serving = some (req, pc) →
      Holds (boot nvs clock_us).mono_s (server_sections past) s.fw pc) :
    ∀ req pc, s'.serving = some (req, pc) →
      Holds (boot nvs clock_us).mono_s (server_sections (past ++ [a])) s'.fw pc := by
  intro req' pc' h'
  rw [server_sections_concat]
  cases h with
  | device a fw hinternal took =>
    refine (hs req' pc' h').keep ?_ (step_times took).clock (internal_settings took hinternal).1
    cases a with
    | tick _ | disturb _ => rfl
    | task act => cases act <;> rfl
    | manual _ _ | settings _ _ => simp [Label.internal] at hinternal
  | request req pc =>
    obtain ⟨rfl, rfl⟩ : req = req' ∧ dispatch req = pc' := by simpa [Server.goto] using h'
    exact dispatch_holds _ _ _ req
  | manual req q act fw pc _ _ =>
    obtain ⟨rfl, rfl⟩ : req = req' ∧ after_manual q act (s.fw.callers HTTPD) = pc' := by
      simpa using h'
    unfold after_manual
    split <;> trivial
  | settings req v act fw pc _ _ =>
    obtain ⟨rfl, rfl⟩ : req = req' ∧ after_settings v act (s.fw.callers HTTPD) = pc' := by
      simpa using h'
    unfold after_settings
    split <;> trivial
  | copy req pc free =>
    obtain ⟨rfl, rfl⟩ : req = req' ∧ _ = pc' := by simpa [Server.goto] using h'
    have hfw := server_exec_firmware hpast
    have hexec := firmware_free_exec hfw free
    have hpictured := firmware_pictured (run_from_boot _ _ hfw) free le_rfl
    exact ⟨s.fw.dev, rfl, hpictured, server_sections past, [], rfl, hexec,
      (firmware_times hfw).1.secs, rfl⟩
  | clock req c pc =>
    obtain ⟨rfl, rfl⟩ : req = req' ∧ _ = pc' := by simpa [Server.goto] using h'
    obtain ⟨d, rfl, hd⟩ := hs req _ pc
    have hd' : Picture _ (server_sections past ++ []) d s.fw.mono_s := hd.extend rfl
    exact ⟨d, s.fw.mono_s, rfl, hd'⟩
  | config req c pc =>
    obtain ⟨rfl, rfl⟩ : req = req' ∧ _ = pc' := by simpa [Server.goto] using h'
    obtain ⟨d, t, hc, hd⟩ := hs req _ pc
    exact ⟨rfl, d, t, hc, hd.extend rfl⟩
  | unix req c v clock pc =>
    obtain ⟨rfl, rfl⟩ : req = req' ∧ _ = pc' := by simpa [Server.goto] using h'
    obtain ⟨rfl, d, t, rfl, hd⟩ := hs req _ pc
    exact ⟨d, t, clock, rfl, hd.extend rfl⟩
  | get req _ pc | events req _ pc | history req _ _ pc =>
    obtain ⟨rfl, rfl⟩ : req = req' ∧ _ = pc' := by simpa [Server.goto] using h'
    trivial
  | send req r pc => simp at h'

theorem served_holds {nvs : NvsBlob} {clock_us : Nat} {acts : List ServerLabel} {s : Server}
    (h : served.exec ⟨boot nvs clock_us, none⟩ acts = some s) :
    ∀ req pc, s.serving = some (req, pc) →
      Holds (boot nvs clock_us).mono_s (server_sections acts) s.fw pc := by
  refine history_invariant (P := fun acts s => ∀ req pc, s.serving = some (req, pc) →
    Holds (boot nvs clock_us).mono_s (server_sections acts) s.fw pc) ?_ ?_ h
  · intro req pc hserving
    simp at hserving
  · intro past s a s' hpast hs hstep
    exact (server_step_inv hstep).holds hpast hs

/-! ## The flash behind a saved patch -/

/-- What a patch that could be saved has left in the flash. -/
def Flashed (fw : Firmware) (req : HttpRequest) : HandlerPc → Prop
  | .save _ => ∀ w, fw.callers HTTPD = .set_returned w true → fw.nvs = .stored fw.s_settings
  | .report | .copied _ | .timed _ | .configured _ _ | .respond (.status _) =>
    req.patch.isSome = true → fw.nvs = .stored fw.s_settings
  | _ => True

theorem Flashed.keep {fw fw' : Firmware} {req : HttpRequest} {pc : HandlerPc}
    (h : Flashed fw req pc) (hsettings : fw'.s_settings = fw.s_settings) (hnvs : fw'.nvs = fw.nvs)
    (hcallers : fw'.callers HTTPD = fw.callers HTTPD) : Flashed fw' req pc := by
  cases pc with
  | save v =>
    simp only [Flashed, hsettings, hnvs, hcallers]
    exact h
  | report | copied _ | timed _ | configured _ _ =>
    simp only [Flashed, hsettings, hnvs]
    exact h
  | respond r =>
    cases r with
    | status st =>
      simp only [Flashed, hsettings, hnvs]
      exact h
    | guarded | unauthorized | error _ _ | events _ | history _ => trivial
  | command _ | patch _ | list_events | copy_history => trivial

theorem SetStep.flashed {fw fw' : Firmware} {act : SetAct} (h : SetStep fw HTTPD act fw')
    {nvs : NvsBlob} {log : SaveLog} (hsaves : SaveInv nvs log fw) {req : HttpRequest} {v : Settings}
    (hs : Flashed fw req (.save v)) : Flashed fw' req (after_settings v act (fw.callers HTTPD)) := by
  cases h with
  | unlock w ok hat =>
    intro u hu
    rw [set_caller_same] at hu
    obtain ⟨rfl, rfl⟩ : w = u ∧ ok = true := by simpa using hu
    obtain ⟨_, -, -, rfl, hsettings, -, hflash⟩ := hsaves.at_saving hat rfl
    show fw.nvs = .stored fw.s_settings
    rw [hsettings]
    exact hflash rfl
  | leave w ok hat =>
    rw [hat]
    cases ok with
    | true => exact fun _ => hs w hat
    | false => trivial
  | nvs_open w ok _ | nvs_set_blob w ok _ _ =>
    intro u hu
    rw [set_caller_same] at hu
    cases ok <;> simp at hu
  | call w _ | lock w _ _ | apply w _ | nvs_commit w _ _ _ =>
    intro u hu
    rw [set_caller_same] at hu
    simp at hu

theorem ServerStep.flashed {s s' : Server} {a : ServerLabel} (h : ServerStep s a s')
    {nvs : NvsBlob} {log : SaveLog} (hsaves : SaveInv nvs log s.fw) (hcaller : OneCaller s)
    (hof : ∀ req pc, s.serving = some (req, pc) → HandlerOf req pc)
    (hs : ∀ req pc, s.serving = some (req, pc) → Flashed s.fw req pc) :
    ∀ req pc, s'.serving = some (req, pc) → Flashed s'.fw req pc := by
  have hhttpd := hcaller.httpd
  intro req' pc' h'
  cases h with
  | device a fw hinternal took =>
    obtain ⟨hsettings, hnvs⟩ := internal_settings took hinternal
    have hcallers := internal_callers took hinternal HTTPD
    exact (hs req' pc' h').keep hsettings hnvs hcallers
  | request req pc =>
    -- a handler that starts with a report has no patch
    obtain ⟨rfl, rfl⟩ : req = req' ∧ dispatch req = pc' := by simpa [Server.goto] using h'
    rw [pc] at hhttpd
    have hidle : s.fw.callers HTTPD = .idle := hhttpd
    cases hreq : dispatch req with
    | save v =>
      intro w hw
      have hw' : s.fw.callers HTTPD = .set_returned w true := hw
      rw [hidle] at hw'
      cases hw'
    | respond r =>
      cases r <;> simp [Flashed, HttpRequest.patch, hreq]
    | command _ | patch _ | report | copied _ | timed _ | configured _ _ | list_events
    | copy_history => simp [Flashed, HttpRequest.patch, hreq]
  | manual req q act fw pc _ _ =>
    obtain ⟨rfl, rfl⟩ : req = req' ∧ after_manual q act (s.fw.callers HTTPD) = pc' := by
      simpa using h'
    have hreq : dispatch req = .command q := hof req _ pc
    unfold after_manual
    split
    · simp [Flashed, HttpRequest.patch, hreq]
    · trivial
    · trivial
  | settings req v act fw pc passes took =>
    obtain ⟨rfl, rfl⟩ : req = req' ∧ after_settings v act (s.fw.callers HTTPD) = pc' := by
      simpa using h'
    exact (settings_step_inv took).flashed hsaves (hs req _ pc)
  | get req body pc =>
    obtain ⟨rfl, rfl⟩ : req = req' ∧ _ = pc' := by simpa [Server.goto] using h'
    rw [pc] at hhttpd
    intro w hw
    have hw' : s.fw.callers HTTPD = .set_returned w true := hw
    rw [show s.fw.callers HTTPD = .idle from hhttpd] at hw'
    cases hw'
  | copy req pc _ | clock req _ pc | config req _ pc | unix req _ _ _ pc =>
    obtain ⟨rfl, rfl⟩ : req = req' ∧ _ = pc' := by simpa [Server.goto] using h'
    have hflash := hs req _ pc
    exact hflash
  | events req _ pc | history req _ _ pc =>
    obtain ⟨rfl, rfl⟩ : req = req' ∧ _ = pc' := by simpa [Server.goto] using h'
    trivial
  | send req r pc => simp at h'

theorem served_flashed {nvs : NvsBlob} {clock_us : Nat} {acts : List ServerLabel} {s : Server}
    (h : served.exec ⟨boot nvs clock_us, none⟩ acts = some s) :
    ∀ req pc, s.serving = some (req, pc) → Flashed s.fw req pc := by
  refine history_invariant (P := fun _ s => ∀ req pc, s.serving = some (req, pc) →
    Flashed s.fw req pc) ?_ ?_ h
  · intro req pc hserving
    simp at hserving
  · intro past s a s' hpast hs hstep
    have hinv := served_inv hpast
    exact (server_step_inv hstep).flashed (firmware_saves (server_exec_firmware hpast))
      hinv.caller hinv.handler hs

/-- No patch is on its way to the flash. -/
def NoSave (s : Server) : Prop :=
  ∀ req pc, s.serving = some (req, pc) → (∀ body, pc ≠ .patch body) ∧ ∀ v, pc ≠ .save v

/-- Without a patch the flash stays as it is. -/
theorem ServerStep.no_save {s s' : Server} {a : ServerLabel} (h : ServerStep s a s')
    (hs : NoSave s) (hno : a.received.bind HttpRequest.patch = none) :
    NoSave s' ∧ s'.fw.nvs = s.fw.nvs := by
  cases h with
  | device a fw hinternal took => exact ⟨hs, (internal_settings took hinternal).2⟩
  | request req pc =>
    refine ⟨?_, rfl⟩
    intro req' pc' h'
    obtain ⟨rfl, rfl⟩ : req = req' ∧ dispatch req = pc' := by simpa [Server.goto] using h'
    have hpatch : req.patch = none := hno
    have hof := dispatch_handlerOf req
    constructor
    · intro body hbody
      simp [HttpRequest.patch, hbody] at hpatch
    · intro v hv
      rw [hv] at hof
      obtain ⟨body, hbody⟩ := hof
      simp [HttpRequest.patch, hbody] at hpatch
  | manual req q act fw pc passes took =>
    refine ⟨?_, (manual_step_inv took).settings_frame.nvs⟩
    intro req' pc' h'
    obtain ⟨rfl, rfl⟩ : req = req' ∧ after_manual q act (s.fw.callers HTTPD) = pc' := by
      simpa using h'
    unfold after_manual
    split <;> simp
  | settings req v act fw pc passes took => exact absurd rfl ((hs req _ pc).2 v)
  | get req body pc => exact absurd rfl ((hs req _ pc).1 body)
  | copy req pc _ | clock req _ pc | config req _ pc | unix req _ _ _ pc | events req _ pc
  | history req _ _ pc =>
    refine ⟨?_, rfl⟩
    intro req' pc' h'
    obtain ⟨rfl, rfl⟩ : req = req' ∧ _ = pc' := by simpa [Server.goto] using h'
    simp
  | send req r pc =>
    refine ⟨?_, rfl⟩
    intro req' pc' h'
    simp at h'

theorem no_save_exec {s s' : Server} {later : List ServerLabel} (hs : NoSave s)
    (h : served.exec s later = some s') (hno : patches later = []) : s'.fw.nvs = s.fw.nvs := by
  have hrun : patches later = [] → NoSave s' ∧ s'.fw.nvs = s.fw.nvs := by
    refine history_invariant (P := fun later s' => patches later = [] →
      NoSave s' ∧ s'.fw.nvs = s.fw.nvs) (fun _ => ⟨hs, rfl⟩) ?_ h
    intro past s₁ a s₂ _ ih hstep hnone
    rw [patches_concat, List.append_eq_nil_iff, Option.toList_eq_nil_iff] at hnone
    obtain ⟨hs₁, hnvs⟩ := ih hnone.1
    obtain ⟨hs₂, hlast⟩ := (server_step_inv hstep).no_save hs₁ hnone.2
    exact ⟨hs₂, hlast.trans hnvs⟩
  exact (hrun hno).2

/-! ## The override of a command -/

/-- The section has read a temperature at or above the critical threshold. -/
def Section.overheats : Section → Prop
  | .iteration it => ∃ rd, it.read = some rd ∧ rd.valid = true ∧
    rd.settings.critical_x10.toInt ≤ rd.temp_x10.toInt
  | .command _ | .refused _ _ => False

/-- What ends the override of a command of the time `t`: its duration has
    passed, or the water was too hot for a stop. -/
def Ended (q : Request) (t : Int) (since : List Section) : Prop :=
  (∃ sec ∈ since, t + q.clamped_s.toNat ≤ sec.now_s) ∨
    q.manual = .stop ∧ ∃ sec ∈ since, sec.overheats

/-- The override, some sections after the command. -/
structure OverrideSince (q : Request) (t : Int) (since : List Section) (s : CtlState) : Prop where
  manual : s.manual = q.manual ∨ s.manual = .none ∧ Ended q t since
  until_s : s.manual ≠ .none → s.manual_until_s = t + q.clamped_s.toNat
  cool : q.manual = .stop → s.overheat = true → ∃ sec ∈ since, sec.overheats

theorem Ended.concat {q : Request} {t : Int} {since : List Section} (h : Ended q t since)
    (sec : Section) : Ended q t (since ++ [sec]) := by
  rcases h with ⟨sec', hsec, hlate⟩ | ⟨hstop, sec', hsec, hhot⟩
  · exact Or.inl ⟨sec', by simp [hsec], hlate⟩
  · exact Or.inr ⟨hstop, sec', by simp [hsec], hhot⟩

theorem manual_next_cases (s : CtlState) (now_s : Int) :
    manual_next s now_s = .none ∨ manual_next s now_s = s.manual := by
  unfold manual_next
  split
  · exact Or.inl rfl
  · exact Or.inr rfl

/-- The override right after its command. -/
theorem overrideSince_command {s st : CtlState} {q : Request} {t : Int}
    (h : ctl_manual s q.manual q.clamped_s t = some st) (cfg : CtlConfig) :
    OverrideSince q t [] (ctl_step st (.decide cfg t)) := by
  have haccepted : ¬ (q.manual = .stop ∧ s.overheat = true) := by
    rw [← ctl_manual_eq_none_iff s q.manual q.clamped_s t, h]
    simp
  rw [ctl_manual, if_neg haccepted] at h
  obtain rfl := Option.some.inj h
  rw [ctl_step_decide]
  have hclamped := clamped_s_toNat q
  by_cases hm : q.manual = .none
  · have hnone : manual_next { s with
        manual := q.manual
        manual_until_s := if q.manual = .none then 0 else t + q.clamped_s.toNat } t = .none := by
      rcases manual_next_cases { s with
        manual := q.manual
        manual_until_s := if q.manual = .none then 0 else t + q.clamped_s.toNat } t with h | h
      · exact h
      · exact h.trans hm
    refine ⟨Or.inl (hnone.trans hm.symm), fun hne => absurd hnone hne, ?_⟩
    intro hstop
    exact absurd (hm.symm.trans hstop) (by simp)
  · -- the shortest override outlasts its own decision
    have hnext := (manual_next_eq_iff { s with
        manual := q.manual
        manual_until_s := if q.manual = .none then 0 else t + q.clamped_s.toNat } t hm).mpr
      ⟨rfl, by simp only [if_neg hm]; omega, fun hstop => by simpa [hstop] using haccepted⟩
    refine ⟨Or.inl hnext, fun _ => if_neg hm, ?_⟩
    intro hstop hover
    exact absurd ⟨hstop, hover⟩ haccepted

/-- A read leaves the override alone, and only a hot one raises the overheat. -/
theorem read_ops_override (s : CtlState) (it : Iteration) :
    (it.read_ops.foldl ctl_step s).manual = s.manual ∧
      (it.read_ops.foldl ctl_step s).manual_until_s = s.manual_until_s ∧
      ((it.read_ops.foldl ctl_step s).overheat = true →
        s.overheat = true ∨ (Section.iteration it).overheats) := by
  unfold Iteration.read_ops
  cases hread : it.read with
  | none => exact ⟨rfl, rfl, Or.inl⟩
  | some rd =>
    simp only [List.foldl_cons, List.foldl_nil]
    cases hvalid : rd.valid with
    | false =>
      rw [ctl_step_bad]
      exact ⟨rfl, rfl, Or.inl⟩
    | true =>
      rw [ctl_step_good]
      refine ⟨rfl, rfl, ?_⟩
      intro hover
      rcases (overheat_next_iff _ _ _).mp hover with hhot | ⟨hbefore, -⟩
      · exact Or.inr ⟨rd, hread, hvalid, hhot⟩
      · exact Or.inl hbefore

theorem OverrideSince.iteration {q : Request} {t : Int} {since : List Section} {s : CtlState}
    (h : OverrideSince q t since s) (it : Iteration) :
    OverrideSince q t (since ++ [.iteration it]) ((Section.iteration it).ops.foldl ctl_step s) := by
  obtain ⟨hmanual, huntil, hover⟩ := read_ops_override s it
  rw [Section.ops, List.foldl_append, List.foldl_cons, List.foldl_nil, ctl_step_decide]
  generalize it.read_ops.foldl ctl_step s = s₁ at hmanual huntil hover
  have hcool : q.manual = .stop → s₁.overheat = true →
      ∃ sec ∈ since ++ [.iteration it], sec.overheats := by
    intro hstop hhot
    rcases hover hhot with hbefore | hnow
    · obtain ⟨sec, hsec, hsec'⟩ := h.cool hstop hbefore
      exact ⟨sec, by simp [hsec], hsec'⟩
    · exact ⟨_, by simp, hnow⟩
  refine ⟨?_, ?_, hcool⟩
  · show manual_next s₁ it.now_s = q.manual ∨ manual_next s₁ it.now_s = .none ∧ _
    rcases h.manual with hkept | ⟨hnone, hended⟩
    · by_cases hm : q.manual = .none
      · left
        rcases manual_next_cases s₁ it.now_s with hnext | hnext
        · rw [hnext, hm]
        · rw [hnext, hmanual, hkept]
      · by_cases hnext : manual_next s₁ it.now_s = q.manual
        · exact Or.inl hnext
        · -- it ends in this decision
          right
          refine ⟨?_, ?_⟩
          · rcases manual_next_cases s₁ it.now_s with hnone | hsame
            · exact hnone
            · exact absurd (hsame.trans (hmanual.trans hkept)) hnext
          · rw [manual_next_eq_iff s₁ it.now_s hm, huntil,
              h.until_s (by rw [hkept]; exact hm)] at hnext
            by_cases hlate : t + q.clamped_s.toNat ≤ it.now_s
            · exact Or.inl ⟨.iteration it, by simp, hlate⟩
            · right
              by_contra hno
              refine hnext ⟨hmanual.trans hkept, by omega, ?_⟩
              intro hstop
              by_contra hhot
              exact hno ⟨hstop, hcool hstop (by simpa using hhot)⟩
    · right
      refine ⟨?_, hended.concat _⟩
      rcases manual_next_cases s₁ it.now_s with hnext | hnext
      · exact hnext
      · rw [hnext, hmanual, hnone]
  · intro hne
    show s₁.manual_until_s = _
    rw [huntil]
    refine h.until_s ?_
    intro hnone
    rcases manual_next_cases s₁ it.now_s with hnext | hnext
    · exact hne hnext
    · exact hne (hnext.trans (hmanual.trans hnone))

/-- The override of an accepted command, as long as no other call ends. -/
theorem overrideSince_exec {d d' : Device} {c : Command} {since : List Section}
    (h : sections.exec d (.command c :: since) = some d')
    (hsince : since.filterMap Section.call = []) :
    OverrideSince c.request c.now_s since d'.s_state := by
  obtain ⟨d₁, hcommand, hrest⟩ := Option.bind_eq_some_iff.mp h
  have hfirst : OverrideSince c.request c.now_s [] d₁.s_state := by
    cases (section_step_inv hcommand).2 with
    | command c st accepted =>
      rw [decide_locked_state, ctl_decide_state]
      exact overrideSince_command accepted _
  refine history_invariant (P := fun since d => since.filterMap Section.call = [] →
    OverrideSince c.request c.now_s since d.s_state) (fun _ => hfirst) ?_ hrest hsince
  intro past d sec d' _ hd hstep hnone
  rw [List.filterMap_append, List.append_eq_nil_iff] at hnone
  have hlast := hd hnone.1
  rw [(section_step_inv hstep).2.state]
  cases sec with
  | iteration it => exact hlast.iteration it
  | command c' => simp [Section.call] at hnone
  | refused q now_s => simp [Section.call] at hnone

/-! ## What the answers say -/

/-- **A status reply is consistent, shows the settings in force, and if it
    answers a patch, they are safe.**  Its fields agree with each other,
    whatever happened while it was put together.  Its thresholds are what all
    patches so far, its own included, make of those at boot.  After a patch a
    reboot finds these very thresholds, then and at any later moment until the
    next patch arrives, where `hi_nvs_init` leaves the NVS as it is. -/
theorem status_reply_truthful (nvs : NvsBlob) (clock_us : Nat) (acts : List ServerLabel)
    (s : Server) (h : served.exec ⟨boot nvs clock_us, none⟩ acts = some s) (req : HttpRequest)
    (st : StatusJson) (hserving : s.serving = some (req, .respond (.status st))) :
    st.Consistent ∧
      st.settings = settings_status ((patches acts).foldl settings_post (settings_init nvs)) ∧
      (req.patch.isSome = true → ∀ later s', served.exec s later = some s' →
        patches later = [] → ∀ clock_us', (boot s'.fw.nvs clock_us').s_settings =
          (patches acts).foldl settings_post (settings_init nvs)) := by
  obtain ⟨took, htook, hsettings⟩ := (served_patches h).2
  have hpending : s.pending = none := by simp [Server.pending, hserving, unapplied]
  rw [hpending, Option.toList_none, List.append_nil] at htook
  rw [htook, ← hsettings]
  obtain ⟨d, t, clock, rfl, hd⟩ := served_holds h req _ hserving
  have hvalid := (firmware_settings (served_run h)).current
  refine ⟨hd.pictured.consistent hvalid clock, rfl, ?_⟩
  intro hpatch later s' hlater hno clock_us'
  have hflash : s.fw.nvs = .stored s.fw.s_settings := served_flashed h req _ hserving hpatch
  have hidle : NoSave s := by
    intro req' pc hpc
    obtain ⟨rfl, rfl⟩ : req = req' ∧ _ = pc := by simpa [hserving] using hpc
    simp
  show settings_init s'.fw.nvs = s.fw.s_settings
  rw [no_save_exec hidle hlater hno, hflash]
  exact sanitize_eq_self_iff.mpr hvalid

/-- The rest of the patch, up to its answer. -/
def patch_saved_labels : List ServerLabel :=
  patch_start_labels ++ [.settings (.nvs_open true), .settings (.nvs_set_blob true false),
    .settings (.nvs_commit true false), .settings .unlock, .settings .leave, .copy, .clock,
    .config, .unix ⟨false, 0, 7, 7⟩]

/-- The answer to a start threshold of 31.0 °C, and a reboot while another
    request is being served. -/
theorem status_reply_truthful_start : ∃ s st s',
    served.exec ⟨boot .missing 0, none⟩ patch_saved_labels = some s ∧
      s.serving = some (patch_start, .respond (.status st)) ∧
      st.settings = settings_status ⟨310, 250, 450⟩ ∧
      served.exec s [.send, .request admin_auto] = some s' ∧
      (boot s'.fw.nvs 9).s_settings = ⟨310, 250, 450⟩ := by
  have hfold : (patches patch_saved_labels).foldl settings_post (settings_init .missing) =
      ⟨310, 250, 450⟩ := by decide +kernel
  have hread : served.exec ⟨boot .missing 0, none⟩ patch_saved_labels =
      served.exec ⟨boot .missing 0, some (patch_start, .save ⟨310, 250, 450⟩)⟩
        (patch_saved_labels.drop 2) := by
    rw [← show settings_request default_settings
      (fun key => if key = "start_c".toList then some (.number 31) else none) =
        ⟨310, 250, 450⟩ by decide +kernel]
    rfl
  obtain ⟨s, hexec⟩ : ∃ s, served.exec ⟨boot .missing 0, none⟩ patch_saved_labels = some s := by
    rw [hread]
    exact ⟨_, rfl⟩
  obtain ⟨st, s', hserving, hlater⟩ : ∃ st s',
      s.serving = some (patch_start, .respond (.status st)) ∧
      served.exec s [.send, .request admin_auto] = some s' := by
    rw [hread] at hexec
    obtain rfl := Option.some.inj hexec
    exact ⟨_, _, rfl, rfl⟩
  have hst := status_reply_truthful .missing 0 patch_saved_labels s hexec patch_start st hserving
  rw [hfold] at hst
  exact ⟨s, st, s', hexec, hserving, hst.2.1, hlater, hst.2.2 rfl _ s' hlater (by decide) 9⟩

/-- **A pump reply shows the override that was asked for.**  When a command is
    answered with the status document, it was the last call to take effect,
    and the document shows its override with no more than its duration left,
    or none at all where the override has ended since: its whole duration has
    passed meanwhile, or it is a stop and the water got too hot. -/
theorem command_shown (nvs : NvsBlob) (clock_us : Nat) (acts : List ServerLabel) (s : Server)
    (h : served.exec ⟨boot nvs clock_us, none⟩ acts = some s) (req : HttpRequest) (q : Request)
    (hreq : req.command = some q) (st : StatusJson)
    (hserving : s.serving = some (req, .respond (.status st))) :
    ∃ before c since, server_sections acts = before ++ .command c :: since ∧ c.request = q ∧
      since.filterMap Section.call = [] ∧
      (st.pump.manual = manual_name q.manual ∧ st.pump.manual_left_s ≤ q.clamped_s.toNat ∨
        st.pump.manual = "none".toList ∧ Ended q c.now_s since) := by
  have hcalls := (served_inv h).calls
  have hcalled : s.called = some (q, .ok) := by
    simp [Server.called, hserving, called_by, told, hreq]
  obtain ⟨d, t, clock, rfl, hd⟩ := served_holds h req _ hserving
  obtain ⟨before, since, hsecs, hexec, hby, hsince⟩ := hd.taken
  -- the command is the last call before the picture was taken
  have hbefore : before.filterMap Section.call =
      (answers nvs clock_us acts).filterMap told ++ [(q, .ok)] := by
    have hall : calls_of acts = before.filterMap Section.call := by
      show (server_sections acts).filterMap Section.call = _
      rw [hsecs, List.filterMap_append, hsince, List.append_nil]
    rw [← hall, hcalls, hcalled]
    rfl
  obtain ⟨pre, post, rfl, -, hpost⟩ := List.filterMap_eq_append_iff.mp hbefore
  obtain ⟨its, sec, since', rfl, hits, hsec, hrest⟩ := List.filterMap_eq_cons_iff.mp hpost
  obtain ⟨c, rfl, rfl⟩ : ∃ c, sec = .command c ∧ c.request = q := by
    cases sec with
    | command c => exact ⟨c, rfl, congrArg Prod.fst (Option.some.inj hsec)⟩
    | iteration it => simp [Section.call] at hsec
    | refused q' now_s => simp [Section.call] at hsec
  have hover : OverrideSince c.request c.now_s since' d.s_state := by
    rw [← List.append_assoc, exec_append] at hexec
    obtain ⟨d₀, -, hlast⟩ := Option.bind_eq_some_iff.mp hexec
    exact overrideSince_exec hlast hrest
  have htime : c.now_s ≤ t := hby (.command c) (by simp)
  refine ⟨pre ++ its, c, since' ++ since, by simp [hsecs], rfl, ?_, ?_⟩
  · rw [List.filterMap_append, hrest, hsince]
    rfl
  · have hleft : (status_json (control_status d t) s.fw.s_settings clock).pump.manual_left_s ≤
        c.request.clamped_s.toNat := by
      show (if d.s_state.manual = .none then 0 else d.s_state.manual_until_s - t) ≤ _
      split
      · exact Int.natCast_nonneg _
      · rename_i hm
        have huntil := hover.until_s hm
        omega
    rcases hover.manual with hkept | ⟨hnone, hended⟩
    · exact Or.inl ⟨congrArg manual_name hkept, hleft⟩
    · refine Or.inr ⟨congrArg manual_name hnone, ?_⟩
      rcases hended with ⟨sec', hsec', hlate⟩ | ⟨hstop, sec', hsec', hhot⟩
      · exact Or.inl ⟨sec', by simp [hsec'], hlate⟩
      · exact Or.inr ⟨hstop, sec', by simp [hsec'], hhot⟩

/-- A start for half an hour. -/
def admin_start_body : Body := fun key =>
  if key = "state".toList then some (.string "start".toList)
  else if key = "minutes".toList then some (.number 30)
  else none

def admin_start : HttpRequest := ⟨.admin_pump, true, fun _ => [], some admin_start_body⟩

/-- Seven seconds after boot, up to its answer, which takes three seconds. -/
def admin_start_labels : List ServerLabel :=
  [.request admin_start, .manual (.call ⟨.start, 1800, "admin".toList⟩), .manual .lock,
    .manual .apply, .manual (.decide ⟨false, 0⟩),
    .manual (.unlock ⟨⟨.start, 1800, "admin".toList⟩, 7, settings_init .missing, ⟨false, 0⟩⟩),
    .manual .leave, .copy, .device (.tick 3000000), .clock, .config, .unix ⟨false, 0, 10, 10⟩]

theorem admin_start_dispatch :
    dispatch admin_start = .command ⟨.start, 1800, "admin".toList⟩ := by
  have hduration : minutes_duration_s (valuedouble 30) = 1800 := by decide +kernel
  have hminutes : positive_minutes (admin_start_body "minutes".toList) = some (valuedouble 30) :=
    if_pos (by decide +kernel)
  have hcommand : pump_command admin_start_body "admin".toList =
      .ok ⟨.start, 1800, "admin".toList⟩ := by
    rw [pump_command_override rfl CtlManual.noConfusion hminutes, hduration]
  show start_command (some admin_start_body) "admin".toList = _
  rw [start_command, hcommand]

theorem admin_start_reply : ∃ s,
    served.exec ⟨boot .missing 7000000, none⟩ admin_start_labels = some s ∧ ∃ st,
      s.serving = some (admin_start, .respond (.status st)) ∧ st.pump.manual = "start".toList := by
  have hfirst : served.step ⟨boot .missing 7000000, none⟩ (.request admin_start) =
      some ⟨boot .missing 7000000,
        some (admin_start, .command ⟨.start, 1800, "admin".toList⟩)⟩ := by
    rw [← admin_start_dispatch]
    rfl
  rw [admin_start_labels, System.exec, hfirst]
  refine ⟨_, rfl, _, rfl, ?_⟩
  decide +kernel

/-- The answer to the admin's start shows it, with at most half an hour left. -/
theorem command_shown_start : ∃ s st,
    served.exec ⟨boot .missing 7000000, none⟩ admin_start_labels = some s ∧
      s.serving = some (admin_start, .respond (.status st)) ∧
      st.pump.manual = "start".toList ∧ st.pump.manual_left_s ≤ 1800 := by
  obtain ⟨s, hexec, st, hserving, hshown⟩ := admin_start_reply
  have hcommand : admin_start.command = some ⟨.start, 1800, "admin".toList⟩ := by
    rw [HttpRequest.command, admin_start_dispatch]
  obtain ⟨before, c, since, -, -, -, hmanual⟩ := command_shown .missing 7000000
    admin_start_labels s hexec admin_start _ hcommand st hserving
  rcases hmanual with hmanual | ⟨hnone, -⟩
  · exact ⟨s, st, hexec, hserving, hmanual⟩
  · rw [hshown] at hnone
    exact absurd hnone (by decide)

end FloorHeating
