import FloorHeating.App

/-! # The app's polling (`app.html`)

    `refresh` gets the status every three seconds, and the event list only
    when a marker that it makes of six fields has changed.  That no switch of
    the pump is missed rests on the counter among them: the flags are back
    where they were after a second switch, the number of starts is not
    (`polled_list_complete`).  An overheat or a failed sensor that comes and
    goes between two polls is not seen.

    Documents and lists are made on the device and arrive later, while the
    device goes on, and `refresh` does not wait for the list it asks for.  For
    the documents their order does not matter.  For the lists it does: the one
    that comes last is shown, and nothing asks for a newer one.  The marker is
    remembered before the list has come, so neither is a list that fails asked
    for again until the next change.  A device that restarts counts from zero
    again, and may so come back to the same marker.

    Source: `refresh`, `loadEvents` (`app.html`), `status_json`,
    `events_handler` (`api.c`). -/

namespace FloorHeating

open LTS Json PastTime

/-! ## The marker -/

/-- `true` or `false` in a template. -/
def template_bool (b : Bool) : CStr := if b then "true".toList else "false".toList

/-- `marker` of `refresh`. -/
def marker (s : StatusJson) : CStr :=
  template_bool s.pump.on ++ '|' :: (s.pump.reason ++ '|' :: (s.pump.manual ++ '|' ::
    (decimal s.since_boot.starts.toNat ++ '|' ::
      (template_bool s.temp.sensor_failed ++ '|' :: template_bool s.temp.overheat))))

/-- Text up to a bar. -/
theorem bar_inj {a b rest rest' : CStr} (ha : '|' ∉ a) (hb : '|' ∉ b)
    (h : a ++ '|' :: rest = b ++ '|' :: rest') : a = b ∧ rest = rest' := by
  induction a generalizing b with
  | nil =>
    cases b with
    | nil => exact ⟨rfl, (List.cons.inj h).2⟩
    | cons c b => exact absurd (List.mem_cons.mpr (Or.inl (List.cons.inj h).1)) hb
  | cons c a ih =>
    cases b with
    | nil => exact absurd (List.mem_cons.mpr (Or.inl (List.cons.inj h).1.symm)) ha
    | cons d b =>
      obtain ⟨rfl, htail⟩ := List.cons.inj h
      obtain ⟨rfl, hrest⟩ := ih (fun hmem => ha (List.mem_cons_of_mem _ hmem))
        (fun hmem => hb (List.mem_cons_of_mem _ hmem)) htail
      exact ⟨rfl, hrest⟩

theorem template_bool_no_bar (b : Bool) : '|' ∉ template_bool b := by cases b <;> decide

theorem template_bool_inj {b b' : Bool} (h : template_bool b = template_bool b') : b = b' := by
  revert h
  cases b <;> cases b' <;> decide

/-- The marker of a status document tells whether the pump is on, and how
    often it was started. -/
theorem marker_inj {c c' : ControlStatus} {s s' : Settings} {clock clock' : HandlerClock}
    (h : marker (status_json c s clock) = marker (status_json c' s' clock')) :
    c.state.on = c'.state.on ∧ c.starts_boot = c'.starts_boot := by
  have hreason : ∀ r, '|' ∉ ctl_reason_name r := by intro r; cases r <;> decide
  have hmanual : ∀ m, '|' ∉ manual_name m := by intro m; cases m <;> decide
  obtain ⟨hon, h⟩ := bar_inj (template_bool_no_bar _) (template_bool_no_bar _) h
  obtain ⟨-, h⟩ := bar_inj (hreason _) (hreason _) h
  obtain ⟨-, h⟩ := bar_inj (hmanual _) (hmanual _) h
  have hbar : ∀ text : CStr, Stops ('|' :: text) := fun text => stops_cons (by decide)
  have hnumber := congrArg number h
  rw [number_reads _ _ (hbar _), number_reads _ _ (hbar _)] at hnumber
  have hstarts := (Prod.mk.inj (Option.some.inj hnumber)).1
  exact ⟨template_bool_inj hon, UInt32.toNat_inj.mp (by exact_mod_cast hstarts)⟩

/-! ## The ring in a run -/

theorem publish_inRing {log : EventLog} (h : log.InRing) (es : List Event) :
    (es.foldl events_publish log).InRing := by
  induction es generalizing log with
  | nil => exact h
  | cons e es ih => exact ih (events_publish_inRing h e)

theorem decide_locked_inRing {d : Device} (h : d.events.InRing) (s : Settings) (wall : WallClock)
    (now_s : Int) (r : CtlResult) (detail : Option CStr) :
    (decide_locked d s wall now_s r detail).1.events.InRing := by
  rw [decide_locked_eq]
  exact publish_inRing h _

theorem sections_inRing {secs : List Section} {d : Device} (h : Run sections secs d) :
    d.events.InRing := by
  refine h.invariant (P := fun d => d.events.InRing) ?_ ?_
  · rintro d ⟨now_s, rfl⟩
    exact events_init_inRing
  · intro d sec d' hd hstep
    cases (section_step_inv hstep).2 with
    | iteration it =>
      rw [control_iteration_eq]
      refine decide_locked_inRing ?_ _ _ _ _ _
      rw [iteration_sensor_device]
      exact hd
    | command c st accepted => exact decide_locked_inRing (d := { d with s_state := st }) hd _ _ _ _ _
    | refused q now_s _ => exact hd

/-- What `events_recent` gives in any state of a run. -/
theorem firmware_recent {acts : List Label} {s : Firmware} (h : Run firmware acts s) :
    events_recent s.dev.events EVENTS_RING_SIZE =
      s.dev.events.notified.reverse.take EVENTS_RING_SIZE := by
  obtain ⟨secs, d, hrun, hev⟩ := firmware_events h
  have hrecent := (sections_inRing hrun).recent EVENTS_RING_SIZE
  rw [hev, hrecent, Nat.min_self]

/-! ## The app and the firmware -/

/-- A status document on its way, with the number of events that had been
    published when it was made, which it does not say. -/
structure Document where
  json : StatusJson
  published : Nat

/-- The firmware, and of the app `eventsSeen` and the list that is shown; in
    between, the status documents on their way, the requests for a list that
    no handler has seen yet, and the lists on their way, oldest first. -/
structure Polling where
  fw : Firmware
  eventsSeen : CStr
  documents : List Document
  asked : Nat
  lists : List (List Event)
  shown : List Event

inductive PollLabel where
  | other (a : Label)
  /-- `status_handler` answers the request of a `refresh`. -/
  | status_handler (now_s : Int) (settings : Settings) (clock : HandlerClock)
  /-- One of the documents comes to its `refresh`. -/
  | refresh (i : Nat)
  /-- `loadEvents` for the history tab, or after a `command`. -/
  | ask
  /-- `events_handler` answers the request of a `loadEvents`. -/
  | events_handler
  /-- One of the lists comes to its `loadEvents`. -/
  | loadEvents (i : Nat)
  /-- A request for a list does not get through, or an answer to one. -/
  | failed (answer : Option Nat)
  deriving DecidableEq

def polling_step (p : Polling) : PollLabel → Option Polling
  | .other a => (step p.fw a).map fun fw => { p with fw }
  | .status_handler now_s settings clock =>
    -- `control_status` takes the lock
    if p.fw.s_lock = none then
      let json := status_json (control_status p.fw.dev now_s) settings clock
      some { p with documents := p.documents ++ [⟨json, p.fw.dev.events.notified.length⟩] }
    else none
  | .refresh i => p.documents[i]?.map fun document =>
    let p := { p with documents := p.documents.eraseIdx i }
    let m := marker document.json
    if m ≠ p.eventsSeen then { p with eventsSeen := m, asked := p.asked + 1 } else p
  | .ask => some { p with asked := p.asked + 1 }
  | .events_handler =>
    match p.asked with
    | 0 => none
    | asked + 1 =>
      let list := events_recent p.fw.dev.events EVENTS_RING_SIZE
      some { p with asked, lists := p.lists ++ [list] }
  | .loadEvents i => p.lists[i]?.map fun list =>
    { p with lists := p.lists.eraseIdx i, shown := list }
  | .failed none =>
    match p.asked with
    | 0 => none
    | asked + 1 => some { p with asked }
  | .failed (some i) =>
    if i < p.lists.length then some { p with lists := p.lists.eraseIdx i } else none

/-- The app from its start, on a device from its boot. -/
def polling : System Polling PollLabel where
  init p := ∃ nvs clock_us, p = ⟨boot nvs clock_us, [], [], 0, [], []⟩
  step := polling_step

/-- Every list comes, and none overtakes another. -/
def PollLabel.InOrder : PollLabel → Prop
  | .loadEvents i => i = 0
  | .failed _ => False
  | _ => True

instance (a : PollLabel) : Decidable a.InOrder := by
  cases a <;> unfold PollLabel.InOrder <;> infer_instance

/-! ## What the documents and the lists tell -/

/-- The document was made when `pre` had been published. -/
structure MadeAt (json : StatusJson) (pre : List Event) : Prop where
  fields : ∃ c settings clock, json = status_json c settings clock ∧
    c.state.on = level (ons .pump pre) ∧ c.starts_boot = UInt32.ofNat (starts pre)

/-- Each document on its way tells of some moment of the run. -/
def DocumentsInv (p : Polling) : Prop :=
  ∀ document ∈ p.documents, ∃ pre since, p.fw.dev.events.notified = pre ++ since ∧
    document.published = pre.length ∧ MadeAt document.json pre

/-- The list that is shown once those on their way have come, in order. -/
def Polling.newest (p : Polling) : List Event := p.lists.getLast?.getD p.shown

/-- The last change of the marker was seen in a document made when `pre` had
    been published; where no request is left, the newest list is no older. -/
structure SeenAt (p : Polling) (pre since : List Event) : Prop where
  notified : p.fw.dev.events.notified = pre ++ since
  marker : ∃ json, p.eventsSeen = marker json ∧ MadeAt json pre
  newest : p.asked = 0 → ∃ mid post, since = mid ++ post ∧
    p.newest = (pre ++ mid).reverse.take EVENTS_RING_SIZE

structure PollInv (p : Polling) : Prop where
  run : ∃ acts, Run firmware acts p.fw
  documents : DocumentsInv p
  seen : p.eventsSeen ≠ [] → ∃ pre since, SeenAt p pre since

theorem marker_ne_nil (s : StatusJson) : marker s ≠ [] := by
  unfold marker template_bool
  split <;> exact List.cons_ne_nil _ _

/-- More is published. -/
theorem DocumentsInv.extend {p : Polling} (h : DocumentsInv p) {fw : Firmware} {es : List Event}
    (hes : fw.dev.events.notified = p.fw.dev.events.notified ++ es) :
    DocumentsInv { p with fw } := by
  intro document hmem
  obtain ⟨pre, since, hnotified, hpublished, hmade⟩ := h document hmem
  refine ⟨pre, since ++ es, ?_, hpublished, hmade⟩
  rw [hes, hnotified, List.append_assoc]

theorem SeenAt.extend {p : Polling} {pre since : List Event} (h : SeenAt p pre since)
    {fw : Firmware} {es : List Event}
    (hes : fw.dev.events.notified = p.fw.dev.events.notified ++ es) :
    SeenAt { p with fw } pre (since ++ es) := by
  refine ⟨?_, h.marker, ?_⟩
  · rw [hes, h.notified, List.append_assoc]
  · intro hasked
    obtain ⟨mid, post, rfl, hnewest⟩ := h.newest hasked
    exact ⟨mid, post ++ es, List.append_assoc _ _ _, hnewest⟩

/-- The handler makes its document of the state that the events replay. -/
theorem madeAt_status {acts : List Label} {fw : Firmware} (hrun : Run firmware acts fw)
    (hfree : fw.s_lock = none) (now_s : Int) (settings : Settings) (clock : HandlerClock) :
    MadeAt (status_json (control_status fw.dev now_s) settings clock) fw.dev.events.notified := by
  obtain ⟨hon, -, -, hstarts⟩ := (event_log_replays acts fw hrun).2.2.2 hfree
  exact ⟨_, _, _, rfl, hon, hstarts⟩

theorem pollInv_step {p p' : Polling} {a : PollLabel} (ha : a.InOrder) (hp : PollInv p)
    (h : polling_step p a = some p') : PollInv p' := by
  obtain ⟨⟨acts, hrun⟩, hdocuments, hseen⟩ := hp
  cases a with
  | other a =>
    obtain ⟨fw, hfw, rfl⟩ := Option.map_eq_some_iff.mp h
    refine ⟨⟨_, hrun.snoc hfw⟩, hdocuments.extend (step_notified hfw), ?_⟩
    intro hne
    obtain ⟨pre, since, hs⟩ := hseen hne
    exact ⟨pre, _, hs.extend (step_notified hfw)⟩
  | status_handler now_s settings clock =>
    obtain ⟨hfree, hmade⟩ := Option.ite_none_right_eq_some.mp h
    obtain rfl := Option.some.inj hmade
    refine ⟨⟨acts, hrun⟩, ?_, ?_⟩
    · intro document hmem
      rcases List.mem_append.mp hmem with hold | hnew
      · exact hdocuments document hold
      · obtain rfl := List.mem_singleton.mp hnew
        exact ⟨_, [], (List.append_nil _).symm, rfl, madeAt_status hrun hfree _ _ _⟩
    · intro hne
      obtain ⟨pre, since, hs⟩ := hseen hne
      exact ⟨pre, since, hs.notified, hs.marker, hs.newest⟩
  | refresh i =>
    obtain ⟨document, hdocument, rfl⟩ := Option.map_eq_some_iff.mp h
    have hrest : ∀ d ∈ p.documents.eraseIdx i, d ∈ p.documents :=
      fun d hd => (List.eraseIdx_sublist _ _).subset hd
    by_cases hsame : marker document.json ≠ p.eventsSeen
    · -- the list that is now asked for is made later than the document
      simp only [if_pos hsame]
      obtain ⟨pre, since, hnotified, -, hmade⟩ :=
        hdocuments document (List.mem_of_getElem? hdocument)
      exact ⟨⟨acts, hrun⟩, fun d hd => hdocuments d (hrest d hd), fun _ => ⟨pre, since, hnotified,
        ⟨_, rfl, hmade⟩, fun hasked => absurd hasked (Nat.succ_ne_zero _)⟩⟩
    · simp only [if_neg hsame]
      refine ⟨⟨acts, hrun⟩, fun d hd => hdocuments d (hrest d hd), ?_⟩
      intro hne
      obtain ⟨pre, since, hs⟩ := hseen hne
      exact ⟨pre, since, hs.notified, hs.marker, hs.newest⟩
  | ask =>
    obtain rfl := Option.some.inj h
    refine ⟨⟨acts, hrun⟩, hdocuments, ?_⟩
    intro hne
    obtain ⟨pre, since, hs⟩ := hseen hne
    exact ⟨pre, since, hs.notified, hs.marker, fun hasked => absurd hasked (Nat.succ_ne_zero _)⟩
  | events_handler =>
    cases hasked : p.asked with
    | zero => simp [polling_step, hasked] at h
    | succ asked =>
      simp only [polling_step, hasked] at h
      obtain rfl := Option.some.inj h
      refine ⟨⟨acts, hrun⟩, hdocuments, ?_⟩
      intro hne
      obtain ⟨pre, since, hs⟩ := hseen hne
      refine ⟨pre, since, hs.notified, hs.marker, fun _ => ⟨since, [], ?_, ?_⟩⟩
      · rw [List.append_nil]
      · rw [Polling.newest, List.getLast?_append_of_ne_nil _ (List.cons_ne_nil _ _), ← hs.notified]
        exact firmware_recent hrun
  | loadEvents i =>
    obtain rfl : i = 0 := ha
    obtain ⟨list, hlist, rfl⟩ := Option.map_eq_some_iff.mp h
    refine ⟨⟨acts, hrun⟩, hdocuments, ?_⟩
    intro hne
    obtain ⟨pre, since, hs⟩ := hseen hne
    refine ⟨pre, since, hs.notified, hs.marker, ?_⟩
    -- the oldest comes first, so the newest stays the newest
    have hsame : Polling.newest { p with lists := p.lists.eraseIdx 0, shown := list } =
        p.newest := by
      unfold Polling.newest
      cases hlists : p.lists with
      | nil => simp [hlists] at hlist
      | cons first rest =>
        obtain rfl : first = list := by simpa [hlists] using hlist
        cases rest <;> simp [List.getLast?_cons]
    intro hasked
    rw [hsame]
    exact hs.newest hasked
  | failed answer => exact absurd ha id

/-! ## No switch is missed -/

/-- Where the marker is the same the pump has not been switched. -/
theorem MadeAt.unswitched {json json' : StatusJson} {pre since : List Event}
    (h : MadeAt json pre) (h' : MadeAt json' (pre ++ since)) (hsame : marker json = marker json')
    (halternating : Alternating (ons .pump (pre ++ since)))
    (hstarts : starts (pre ++ since) < 4294967296) : ∀ e ∈ since, e.type ≠ .pump := by
  obtain ⟨c, settings, clock, rfl, hon, hcount⟩ := h.fields
  obtain ⟨c', settings', clock', rfl, hon', hcount'⟩ := h'.fields
  obtain ⟨hsame_on, hsame_count⟩ := marker_inj hsame
  rw [ons_append] at halternating hon'
  rw [starts_append] at hcount' hstarts
  -- no start since then, as the counter cannot have come round
  have hnone : starts since = 0 := by
    have heq : UInt32.ofNat (starts pre) = UInt32.ofNat (starts pre + starts since) := by
      rw [← hcount, hsame_count]
      exact hcount'
    have hnat := congrArg UInt32.toNat heq
    rw [UInt32.toNat_ofNat_of_lt' (lt_of_le_of_lt (Nat.le_add_right _ _) hstarts),
      UInt32.toNat_ofNat_of_lt' hstarts] at hnat
    omega
  have hlow : true ∉ ons .pump since := by
    intro hmem
    obtain ⟨e, he, hone⟩ := List.mem_map.mp hmem
    obtain ⟨he, htype⟩ := List.mem_filter.mp he
    have hzero := List.countP_eq_zero.mp hnone e he
    simp [hone, of_decide_eq_true htype] at hzero
  have hlevel : level (ons .pump pre ++ ons .pump since) = level (ons .pump pre) := by
    rw [← hon, ← hon', hsame_on]
  have hempty := halternating.back hlevel hlow
  intro e he htype
  have hmem : e.on ∈ ons .pump since :=
    List.mem_map.mpr ⟨e, List.mem_filter.mpr ⟨he, decide_eq_true htype⟩, rfl⟩
  rw [hempty] at hmem
  exact absurd hmem List.not_mem_nil

/-- Of two moments of a run one comes first. -/
theorem moments_ordered {N pre since pre' since' : List Event} (h : N = pre ++ since)
    (h' : N = pre' ++ since') (hlonger : pre.length ≤ pre'.length) :
    ∃ between, pre' = pre ++ between ∧ since = between ++ since' := by
  rcases List.append_eq_append_iff.mp (h.symm.trans h') with ⟨between, rfl, rfl⟩ | ⟨x, rfl, rfl⟩
  · exact ⟨between, rfl, rfl⟩
  · have hx : x = [] := by
      rw [List.length_append] at hlonger
      exact List.eq_nil_of_length_eq_zero (by omega)
    exact ⟨[], by simp [hx], by simp [hx]⟩

/-- One of the last elements, counted from the front. -/
theorem mem_take_reverse {N M post : List Event} {size n : Nat} {e : Event} (h : N = M ++ post)
    (hn : N[n]? = some e) (hlast : N.length ≤ n + size) (hlt : n < M.length) :
    e ∈ M.reverse.take size := by
  rw [h, List.getElem?_append_left hlt] at hn
  have hlen := congrArg List.length h
  rw [List.length_append] at hlen
  refine List.mem_iff_getElem?.mpr ⟨M.length - 1 - n, ?_⟩
  rw [List.getElem?_take_of_lt (by omega), List.getElem?_reverse (by omega), ← hn]
  congr 1
  omega

/-- **The app never misses a switch.**  However the status documents, the
    lists and the steps of the firmware fall, if every list has come and none
    has overtaken another: when a poll leaves no list on its way, each switch
    of the pump that had been published when its document was made, and that
    the device still has, is in the list that is shown.  Without that
    condition an older list may come last, and then the switch is missing
    until the next one. -/
theorem polled_list_complete (nvs : NvsBlob) (clock_us : Nat) (acts : List PollLabel)
    (p : Polling) (h : polling.exec ⟨boot nvs clock_us, [], [], 0, [], []⟩ acts = some p)
    (hok : ∀ a ∈ acts, a.InOrder) (i : Nat) (document : Document)
    (hdocument : p.documents[i]? = some document) (p' : Polling)
    (hpoll : polling_step p (.refresh i) = some p') (hasked : p'.asked = 0) (hlists : p'.lists = [])
    (hstarts : starts p.fw.dev.events.notified < 4294967296) :
    ∀ n e, p.fw.dev.events.notified[n]? = some e → n < document.published →
      p.fw.dev.events.notified.length ≤ n + EVENTS_RING_SIZE → e.type = .pump → e ∈ p'.shown := by
  have hboot : PollInv ⟨boot nvs clock_us, [], [], 0, [], []⟩ :=
    ⟨⟨[], .init ⟨nvs, clock_us, rfl⟩⟩, fun d hd => absurd hd List.not_mem_nil,
      fun hne => absurd rfl hne⟩
  obtain ⟨⟨facts, hrun⟩, hdocuments, hinv⟩ := exec_invariant (P := PollInv)
    (fun _ a _ ha hp hstep => pollInv_step ha hp hstep) hboot h hok
  simp only [polling_step, hdocument, Option.map_some] at hpoll
  obtain ⟨pre', since', hnotified, hpublished, hmade⟩ :=
    hdocuments document (List.mem_of_getElem? hdocument)
  split at hpoll
  · -- a new marker asks for a list
    obtain rfl := Option.some.inj hpoll
    exact absurd hasked (Nat.succ_ne_zero _)
  · rename_i hsame
    obtain rfl := Option.some.inj hpoll
    have hsame : marker document.json = p.eventsSeen := not_not.mp hsame
    obtain ⟨pre, since, hs⟩ := hinv (hsame ▸ marker_ne_nil _)
    obtain ⟨mid, post, rfl, hnewest⟩ := hs.newest hasked
    have hshown : p.shown = (pre ++ mid).reverse.take EVENTS_RING_SIZE := by
      rw [← hnewest, Polling.newest, show p.lists = [] from hlists]
      rfl
    intro n e hn hbefore hlast htype
    show e ∈ p.shown
    rw [hshown]
    have hN := hs.notified
    rw [← List.append_assoc] at hN
    by_cases hlt : n < (pre ++ mid).length
    · exact mem_take_reverse hN hn hlast hlt
    · -- it would be a switch that the marker does not show
      rw [hpublished] at hbefore
      rw [List.length_append] at hlt
      obtain ⟨between, rfl, -⟩ := moments_ordered hs.notified hnotified (by omega)
      obtain ⟨json, hseen, hmade'⟩ := hs.marker
      have halternating := (event_log_replays facts p.fw hrun).1
      rw [hnotified, ons_append] at halternating
      rw [hnotified, starts_append] at hstarts
      have hnone := hmade'.unswitched hmade (hseen.symm.trans hsame.symm) halternating.of_append
        (by omega)
      rw [hnotified, List.getElem?_append_left hbefore, List.getElem?_append_right (by omega)] at hn
      exact absurd htype (hnone e (List.mem_of_getElem? hn))

/-- A poll, a critical reading that starts the pump, and a poll that sees it.
    The list comes while the next document is on its way. -/
def polling_labels : List PollLabel :=
  [.status_handler 0 default_settings ⟨false, 0, 0, 0⟩, .refresh 0, .events_handler,
    .loadEvents 0] ++
  (iteration_labels ⟨0, some ⟨default_settings, true, 450⟩, default_settings,
    ⟨false, 0⟩⟩).map .other ++
  [.status_handler 0 default_settings ⟨false, 0, 0, 0⟩, .refresh 0,
    .status_handler 0 default_settings ⟨false, 0, 0, 0⟩, .events_handler, .loadEvents 0]

/-- The start is in the list. -/
theorem polled_list_complete_start : ∃ p p' e,
    polling.exec ⟨boot .missing 0, [], [], 0, [], []⟩ polling_labels = some p ∧
      polling_step p (.refresh 0) = some p' ∧ e.type = .pump ∧ e.on = true ∧ e ∈ p'.shown := by
  obtain ⟨p, hexec, hfacts⟩ : ∃ p,
      polling.exec ⟨boot .missing 0, [], [], 0, [], []⟩ polling_labels = some p ∧
        ∃ document p' n e, p.documents[0]? = some document ∧
          polling_step p (.refresh 0) = some p' ∧ p'.asked = 0 ∧ p'.lists = [] ∧
          starts p.fw.dev.events.notified < 4294967296 ∧
          p.fw.dev.events.notified[n]? = some e ∧ n < document.published ∧
          p.fw.dev.events.notified.length ≤ n + EVENTS_RING_SIZE ∧ e.type = .pump ∧
          e.on = true :=
    ⟨_, rfl, _, _, 1, _, rfl, rfl, rfl, rfl, by decide, rfl, by decide, by decide, rfl, rfl⟩
  obtain ⟨document, p', n, e, hdocument, hpoll, hasked, hlists, hstarts, hn, hbefore, hlast,
    htype, hon⟩ := hfacts
  exact ⟨p, p', e, hexec, hpoll, htype, hon, polled_list_complete .missing 0 polling_labels p hexec
    (by decide) 0 document hdocument p' hpoll hasked hlists hstarts n e hn hbefore hlast htype⟩

end FloorHeating
