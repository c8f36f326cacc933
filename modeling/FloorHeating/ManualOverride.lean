import FloorHeating.Api
import FloorHeating.Atomicity

/-! # The lifetime of a manual override

    An override comes from an accepted command, and ends at the first
    decision at or after its expiry, with the next accepted command, or, for
    a stop, at the first decision during an overheat.  Both tasks decide, and
    a refused command leaves the override in force as it is; so the override
    at any release of `s_lock` is a function of the accepted commands and the
    decisions so far. -/

namespace FloorHeating

open Binary64 LTS PastTime

/-! ## What happens to an override -/

/-- An accepted command, or a decision with the overheat flag it found. -/
inductive OverrideEvent where
  | accepted (manual : CtlManual) (duration_s : UInt32) (now_s : Int)
  | decision (now_s : Int) (overheat : Bool)
  deriving DecidableEq, Repr

/-- The event a call is, if it is one. -/
def override_event (s : CtlState) : CtlOp → Option OverrideEvent
  | .manual m duration_s now_s =>
    if (ctl_manual s m duration_s now_s).isSome then some (.accepted m duration_s now_s) else none
  | .decide _ now_s => some (.decision now_s s.overheat)
  | .sensor _ _ _ _ => none

/-- The events of a run, in order. -/
def override_log (boot_s : Int) (ops : List CtlOp) : List OverrideEvent :=
  (outputs ctl_step override_event (ctl_init boot_s) ops).filterMap id

theorem override_log_append (boot_s : Int) (ops ops' : List CtlOp) :
    override_log boot_s (ops ++ ops') = override_log boot_s ops ++
      (outputs ctl_step override_event (ctl_run boot_s ops) ops').filterMap id := by
  unfold override_log
  rw [outputs_append, List.filterMap_append]
  rfl

theorem override_log_concat (boot_s : Int) (ops : List CtlOp) (op : CtlOp) :
    override_log boot_s (ops ++ [op]) =
      override_log boot_s ops ++ (override_event (ctl_run boot_s ops) op).toList := by
  rw [override_log_append]
  show _ ++ List.filterMap id [override_event (ctl_run boot_s ops) op] = _
  cases override_event (ctl_run boot_s ops) op <;> rfl

/-- The event gives the override `m`. -/
def OverrideEvent.gives (m : CtlManual) : OverrideEvent → Prop
  | .accepted m' _ _ => m' = m
  | .decision _ _ => False

/-- When the override the event gives expires. -/
def OverrideEvent.until_s : OverrideEvent → Int
  | .accepted _ duration_s now_s => now_s + duration_s.toNat
  | .decision now_s _ => now_s

/-- The override that `a` gave is left in force by `b`: a decision before its
    expiry and, if it is a stop, without an overheat. -/
def OverrideEvent.keeps (a b : OverrideEvent) : Prop :=
  match a, b with
  | .accepted m duration_s now_s, .decision later_s overheat =>
    later_s < now_s + duration_s.toNat ∧ (m = .stop → overheat = false)
  | _, _ => False

/-- An override is left in force by a decision before its expiry that has
    nothing against a stop. -/
theorem manual_next_eq_iff (s : CtlState) (now_s : Int) {m : CtlManual} (hm : m ≠ .none) :
    manual_next s now_s = m ↔
      s.manual = m ∧ now_s < s.manual_until_s ∧ (m = .stop → s.overheat = false) := by
  have hexpires := manual_expires_iff s now_s
  have hcancels := manual_cancels_iff s now_s
  unfold manual_next
  by_cases hended : manual_expires s now_s = true ∨ manual_cancels s now_s = true
  · rw [if_pos (Bool.or_eq_true_iff.mpr hended)]
    constructor
    · intro h
      exact absurd h.symm hm
    · intro h
      obtain ⟨hman, hlt, hcool⟩ := h
      rcases hended with hexp | hcancel
      · -- expired: the decision came too late
        have huntil := (hexpires.mp hexp).2
        omega
      · -- cancelled: it was a stop, and there was an overheat
        obtain ⟨-, hstop, hover⟩ := hcancels.mp hcancel
        have hover' := hcool (hman ▸ hstop)
        simp [hover] at hover'
  · rw [if_neg (fun h => hended (Bool.or_eq_true_iff.mp h))]
    have hrun : ¬ manual_expires s now_s = true := fun h => hended (Or.inl h)
    constructor
    · intro hman
      refine ⟨hman, ?_, ?_⟩
      · by_contra hlate
        exact hrun (hexpires.mpr ⟨hman ▸ hm, by omega⟩)
      · intro hstop
        by_contra hover
        exact hended (Or.inr (hcancels.mpr ⟨hrun, hman.trans hstop, by simpa using hover⟩))
    · intro h
      exact h.1

/-- The invariant: the override in force and its expiry, in terms of the log. -/
def OverrideInv (log : List OverrideEvent) (s : CtlState) : Prop :=
  ∀ m, m ≠ .none → ∀ u, (s.manual = m ∧ s.manual_until_s = u) ↔
    Since (fun e => e.gives m ∧ e.until_s = u) OverrideEvent.keeps log

theorem overrideInv_init (boot_s : Int) : OverrideInv [] (ctl_init boot_s) := by
  intro m hm u
  constructor
  · intro h
    exact absurd h.1.symm hm
  · intro h
    exact absurd h (not_since_nil _ _)

/-- Whatever leaves the override and its expiry alone keeps the invariant. -/
theorem overrideInv_frame {log : List OverrideEvent} {s s' : CtlState} (h : OverrideInv log s)
    (hmanual : s'.manual = s.manual) (huntil : s'.manual_until_s = s.manual_until_s) :
    OverrideInv log s' := by
  intro m hm u
  rw [hmanual, huntil]
  exact h m hm u

/-- An accepted command starts its override, and keeps no older one. -/
theorem overrideInv_accepted {log : List OverrideEvent} (s : CtlState) (m : CtlManual)
    (d : UInt32) (now_s : Int) :
    OverrideInv (log ++ [.accepted m d now_s])
      { s with
        manual := m
        manual_until_s := if m = .none then 0 else now_s + d.toNat } := by
  intro m' hm' u
  rw [since_concat]
  constructor
  · intro h
    left
    obtain ⟨hman, huntil⟩ := h
    have hman' : m = m' := hman
    have hne : m ≠ .none := hman' ▸ hm'
    rw [if_neg hne] at huntil
    exact ⟨hman', huntil⟩
  · intro h
    rcases h with ⟨hman, huntil⟩ | ⟨pre, a, post, -, ⟨-, hkeeps⟩, -⟩
    · have hman' : m = m' := hman
      have hne : m ≠ .none := hman' ▸ hm'
      refine ⟨hman', ?_⟩
      rw [if_neg hne]
      exact huntil
    · cases a <;> exact absurd hkeeps (by simp [OverrideEvent.keeps])

theorem overrideInv_manual {log : List OverrideEvent} {s : CtlState} (h : OverrideInv log s)
    (m : CtlManual) (d : UInt32) (now_s : Int) :
    OverrideInv (log ++ (override_event s (.manual m d now_s)).toList)
      (ctl_step s (.manual m d now_s)) := by
  rw [ctl_step_manual]
  by_cases hrefused : m = .stop ∧ s.overheat = true
  · -- refused: no event, and the state as it was
    have hnone : ctl_manual s m d now_s = none := by
      rw [ctl_manual, if_pos hrefused]
    rw [if_pos hrefused]
    simpa [override_event, hnone] using h
  · have hsome : (ctl_manual s m d now_s).isSome = true := by
      rw [ctl_manual, if_neg hrefused]
      rfl
    rw [if_neg hrefused]
    simp only [override_event, hsome, if_true, Option.toList_some]
    exact overrideInv_accepted s m d now_s

/-- What a decision keeps of an override that expires at `u` depends on `u`
    alone, and for a stop on the overheat. -/
theorem keeps_decision_iff {m : CtlManual} {u now_s : Int} {overheat : Bool} (e : OverrideEvent) :
    ((e.gives m ∧ e.until_s = u) ∧ e.keeps (.decision now_s overheat)) ↔
      (e.gives m ∧ e.until_s = u) ∧ now_s < u ∧ (m = .stop → overheat = false) := by
  apply and_congr_right
  intro h
  cases e with
  | decision t ov => exact absurd h.1 (by simp [OverrideEvent.gives])
  | accepted m' d t =>
    obtain ⟨hman, huntil⟩ := h
    have hman' : m' = m := hman
    have huntil' : t + d.toNat = u := huntil
    simp only [OverrideEvent.keeps, hman', huntil']

theorem overrideInv_decide {log : List OverrideEvent} {s : CtlState} (h : OverrideInv log s)
    (cfg : CtlConfig) (now_s : Int) :
    OverrideInv (log ++ (override_event s (.decide cfg now_s)).toList)
      (ctl_step s (.decide cfg now_s)) := by
  intro m hm u
  rw [ctl_step_decide]
  show (manual_next s now_s = m ∧ s.manual_until_s = u) ↔ _
  simp only [override_event, Option.toList_some, since_concat]
  rw [since_congr keeps_decision_iff, since_and_const, ← h m hm u, manual_next_eq_iff s now_s hm]
  constructor
  · intro hnext
    obtain ⟨⟨hman, hlt, hcool⟩, huntil⟩ := hnext
    exact Or.inr ⟨⟨huntil ▸ hlt, hcool⟩, hman, huntil⟩
  · intro hnext
    rcases hnext with hgives | ⟨⟨hlt, hcool⟩, hman, huntil⟩
    · exact absurd hgives.1 (by simp [OverrideEvent.gives])
    · exact ⟨⟨hman, huntil ▸ hlt, hcool⟩, huntil⟩

theorem overrideInv_run (boot_s : Int) (ops : List CtlOp) :
    OverrideInv (override_log boot_s ops) (ctl_run boot_s ops) := by
  induction ops using List.reverseRecOn with
  | nil => exact overrideInv_init boot_s
  | append_singleton ops op ih =>
    rw [ctl_run_concat, override_log_concat]
    cases op with
    | manual m d now_s => exact overrideInv_manual ih m d now_s
    | decide cfg now_s => exact overrideInv_decide ih cfg now_s
    | sensor cfg now_s valid t =>
      -- no event, and nothing a read writes has to do with the override
      simp only [override_event, Option.toList_none, List.append_nil]
      cases valid with
      | false =>
        rw [ctl_step_bad]
        exact overrideInv_frame ih rfl rfl
      | true =>
        rw [ctl_step_good]
        exact overrideInv_frame ih rfl rfl

/-- The override in force is the one of the latest accepted command, if
    everything since has kept it. -/
theorem override_iff_since (boot_s : Int) (ops : List CtlOp) {m : CtlManual} (hm : m ≠ .none) :
    (ctl_run boot_s ops).manual = m ↔
      Since (OverrideEvent.gives m) OverrideEvent.keeps (override_log boot_s ops) := by
  constructor
  · intro hman
    obtain ⟨pre, a, post, hl, ha, hpost⟩ := (overrideInv_run boot_s ops m hm _).mp ⟨hman, rfl⟩
    exact ⟨pre, a, post, hl, ha.1, hpost⟩
  · intro h
    obtain ⟨pre, a, post, hl, ha, hpost⟩ := h
    exact ((overrideInv_run boot_s ops m hm a.until_s).mpr ⟨pre, a, post, hl, ⟨ha, rfl⟩, hpost⟩).1

/-! ## What the log holds -/

/-- The event is an accepted command. -/
def OverrideEvent.is_command : OverrideEvent → Prop
  | .accepted _ _ _ => True
  | .decision _ _ => False

/-- The timestamp of the event. -/
def OverrideEvent.now_s : OverrideEvent → Int
  | .accepted _ _ now_s => now_s
  | .decision now_s _ => now_s

theorem gives_is_command {m : CtlManual} (e : OverrideEvent) (h : e.gives m) : e.is_command := by
  cases e with
  | accepted m' d t => trivial
  | decision t ov => exact h

theorem keeps_not_command (a b : OverrideEvent) (h : a.keeps b) : ¬ b.is_command := by
  cases a with
  | decision t ov => exact absurd h (by simp [OverrideEvent.keeps])
  | accepted m d t =>
    cases b with
    | accepted m' d' t' => exact absurd h (by simp [OverrideEvent.keeps])
    | decision t' ov => simp [OverrideEvent.is_command]

/-- Every accepted command in the log is one of the calls. -/
theorem accepted_mem {ops : List CtlOp} {s : CtlState} {m : CtlManual} {d : UInt32} {t : Int}
    (h : OverrideEvent.accepted m d t ∈ (outputs ctl_step override_event s ops).filterMap id) :
    CtlOp.manual m d t ∈ ops := by
  induction ops generalizing s with
  | nil => simp [outputs] at h
  | cons op ops ih =>
    simp only [outputs, List.mem_filterMap, List.mem_cons, id_eq, exists_eq_right] at h ih
    rcases h with h | h
    · have hop : CtlOp.manual m d t = op := by
        cases op with
        | sensor cfg now_s valid temp => simp [override_event] at h
        | decide cfg now_s => simp [override_event] at h
        | manual m' d' t' =>
          simp only [override_event] at h
          split at h
          · simpa using h
          · simp at h
      rw [hop]
      exact List.mem_cons_self
    · exact List.mem_cons_of_mem _ (ih h)

/-- The calls of `ctl_manual` are those of the commands, with the clamped
    duration. -/
theorem manual_mem_ops {secs : List Section} {m : CtlManual} {d : UInt32} {t : Int}
    (h : CtlOp.manual m d t ∈ ops_of secs) :
    ∃ c, Section.command c ∈ secs ∧ m = c.request.manual ∧ d = c.request.clamped_s ∧
      t = c.now_s := by
  obtain ⟨sec, hsec, hop⟩ := List.mem_flatMap.mp h
  cases sec with
  | refused q now_s => simp [Section.ops] at hop
  | iteration it =>
    exfalso
    unfold Section.ops Iteration.read_ops at hop
    cases hread : it.read <;> simp [hread] at hop
  | command c =>
    simp only [Section.ops, List.mem_cons, CtlOp.manual.injEq, reduceCtorEq, List.not_mem_nil,
      or_false] at hop
    exact ⟨c, hsec, hop⟩

section consequences
variable {boot_s : Int} {ops : List CtlOp}

/-- A decision at or after its expiry ends an override. -/
theorem override_expired {pre post : List OverrideEvent} {m : CtlManual} {d : UInt32} {t : Int}
    (hlog : override_log boot_s ops = pre ++ .accepted m d t :: post)
    (hlast : ∀ b ∈ post, ¬ b.is_command) {b : OverrideEvent} (hb : b ∈ post)
    (hlate : t + d.toNat ≤ b.now_s) : (ctl_run boot_s ops).manual = .none := by
  -- an override still in force would be the one of the latest command, kept by `b` as well
  by_contra hm
  have hsince := (override_iff_since boot_s ops hm).mp rfl
  rw [hlog] at hsince
  obtain ⟨-, hkept⟩ := hsince.at_last_mark gives_is_command keeps_not_command trivial hlast
  have hb' := hkept b hb
  cases b with
  | accepted m' d' t' => exact absurd hb' (by simp [OverrideEvent.keeps])
  | decision t' ov =>
    have hlt : t' < t + d.toNat := hb'.1
    have hge : t + d.toNat ≤ t' := hlate
    omega

/-- With non-decreasing timestamps an override is in force until its expiry,
    unless a newer command or, for a stop, an overheat ends it. -/
theorem override_holds {pre post : List OverrideEvent} {m : CtlManual} {d : UInt32} {t : Int}
    (hm : m ≠ .none) (hlog : override_log boot_s ops = pre ++ .accepted m d t :: post)
    (hlast : ∀ b ∈ post, ¬ b.is_command)
    (hcool : m = .stop → ∀ now_s ov, .decision now_s ov ∈ post → ov = false)
    (hmono : ((override_log boot_s ops).map OverrideEvent.now_s).Pairwise (· ≤ ·))
    (hnow : ∀ b, post.getLast? = some b → b.now_s < t + d.toNat) :
    (ctl_run boot_s ops).manual = m := by
  rw [override_iff_since boot_s ops hm, hlog]
  refine ⟨pre, _, post, rfl, rfl, ?_⟩
  intro b hb
  cases b with
  | accepted m' d' t' => exact absurd trivial (hlast _ hb)
  | decision t' ov =>
    refine ⟨?_, fun hstop => hcool hstop t' ov hb⟩
    -- the last decision is the latest one, and it is early enough
    obtain ⟨post', last, rfl⟩ : ∃ post' last, post = post' ++ [last] := by
      rcases List.eq_nil_or_concat post with rfl | ⟨post', last, rfl⟩
      · simp at hb
      · exact ⟨post', last, by simp⟩
    have hlt := hnow last (by simp)
    rcases List.mem_append.mp hb with hb | hb
    · have hsorted : (OverrideEvent.decision t' ov).now_s ≤ last.now_s := by
        rw [hlog, List.map_append, List.pairwise_append] at hmono
        obtain ⟨-, hrest, -⟩ := hmono
        rw [List.map_cons, List.pairwise_cons, List.map_append, List.pairwise_append] at hrest
        exact hrest.2.2.2 _ (List.mem_map_of_mem hb) _ (by simp)
      exact lt_of_le_of_lt hsorted hlt
    · obtain rfl : OverrideEvent.decision t' ov = last := by simpa using hb
      exact hlt

/-- An override that has ended stays ended without a new command. -/
theorem override_stays_ended {more : List CtlOp} (hended : (ctl_run boot_s ops).manual = .none)
    (hmore : ∀ m d t, .manual m d t ∉ more) : (ctl_run boot_s (ops ++ more)).manual = .none := by
  -- an override in force now was in force then, since nothing has started one
  by_contra hm
  have hsince := (override_iff_since boot_s (ops ++ more) hm).mp rfl
  rw [override_log_append] at hsince
  have hbefore := hsince.of_append (by
    intro b hb hgives
    cases b with
    | decision t ov => exact hgives
    | accepted m d t => exact hmore m d t (accepted_mem hb))
  have hstill := (override_iff_since boot_s ops hm).mpr hbefore
  rw [hended] at hstill
  exact hm hstill.symm

end consequences

/-- **The exact lifetime of a manual override.**  Let `log` be the accepted
    commands and the decisions of a run of the firmware, up to a moment where
    `s_lock` is free.  An override is in force exactly when the latest
    accepted command gave it, at some time `t` for `d` seconds, and every
    decision since was before `t + d` and, for a stop, without an overheat.
    `d` is the requested duration clamped to 60 s..12 h; from the API the
    request is `min(43200, trunc(60 * minutes))` seconds, of the minutes as a
    double and their product rounded to one.  So no override
    survives a decision 12 h after its command; with non-decreasing
    timestamps none ends before its time but by a newer command or, a stop,
    by an overheat; and none comes back without a new command. -/
theorem manual_override_lifetime (nvs : NvsBlob) (clock_us : Nat) (acts : List Label)
    (s : Firmware) (h : firmware.exec (boot nvs clock_us) acts = some s)
    (hfree : s.s_lock = none) (log : List OverrideEvent)
    (hlog : log = override_log (boot nvs clock_us).mono_s (ops_of (sections_of acts))) :
    (∀ m, m ≠ .none →
        (s.dev.s_state.manual = m ↔ Since (OverrideEvent.gives m) OverrideEvent.keeps log)) ∧
      (∀ m d t, .accepted m d t ∈ log →
        ∃ c, .command c ∈ sections_of acts ∧ m = c.request.manual ∧ t = c.now_s ∧
          d.toNat = max 60 (min 43200 c.request.duration_s.toNat)) ∧
      (∀ (pre : List OverrideEvent) (m : CtlManual) (d : UInt32) (t : Int)
          (post : List OverrideEvent), log = pre ++ .accepted m d t :: post →
        (∀ b ∈ post, ¬ b.is_command) → (∃ b ∈ post, t + 43200 ≤ b.now_s) →
        s.dev.s_state.manual = .none) ∧
      (∀ (pre : List OverrideEvent) (m : CtlManual) (d : UInt32) (t : Int)
          (post : List OverrideEvent), m ≠ .none → log = pre ++ .accepted m d t :: post →
        (∀ b ∈ post, ¬ b.is_command) →
        (m = .stop → ∀ now_s ov, .decision now_s ov ∈ post → ov = false) →
        (log.map OverrideEvent.now_s).Pairwise (· ≤ ·) →
        (∀ b, post.getLast? = some b → b.now_s < t + d.toNat) → s.dev.s_state.manual = m) ∧
      (∀ secs more, sections_of acts = secs ++ more → (∀ c, .command c ∉ more) →
        (ctl_run (boot nvs clock_us).mono_s (ops_of secs)).manual = .none →
        s.dev.s_state.manual = .none) ∧
      ∀ body who q, pump_command body who = .ok q → q.manual ≠ .none →
        ∃ minutes : ℚ, 0 < valuedouble minutes ∧
          body "minutes".toList = some (.number minutes) ∧
          q.duration_s.toNat = min 43200 ⌊round64 (60 * valuedouble minutes)⌋₊ := by
  subst hlog
  have hstate := sections_ctl_run (firmware_free_exec h hfree)
  have hclamped : ∀ m d t,
      .accepted m d t ∈ override_log (boot nvs clock_us).mono_s (ops_of (sections_of acts)) →
      ∃ c, .command c ∈ sections_of acts ∧ m = c.request.manual ∧ t = c.now_s ∧
        d.toNat = max 60 (min 43200 c.request.duration_s.toNat) := by
    intro m d t hmem
    obtain ⟨c, hc, hm, hd, ht⟩ := manual_mem_ops (accepted_mem hmem)
    refine ⟨c, hc, hm, ht, ?_⟩
    rw [hd, clamped_s_toNat]
  rw [hstate]
  refine ⟨?_, hclamped, ?_, ?_, ?_, ?_⟩
  · intro m hm
    exact override_iff_since _ _ hm
  · -- no clamped duration is longer than 12 h
    intro pre m d t post hsplit hlast hlate
    obtain ⟨b, hb, hle⟩ := hlate
    obtain ⟨c, -, -, -, hd⟩ := hclamped m d t (by rw [hsplit]; simp)
    exact override_expired hsplit hlast hb (by omega)
  · intro pre m d t post hm hsplit hlast hcool hmono hnow
    exact override_holds hm hsplit hlast hcool hmono hnow
  · intro secs more hsecs hmore hended
    have hops : ops_of (sections_of acts) = ops_of secs ++ ops_of more := by
      rw [hsecs, ops_of, ops_of, ops_of, List.flatMap_append]
    rw [hops]
    apply override_stays_ended hended
    intro m d t hmem
    obtain ⟨c, hc, -⟩ := manual_mem_ops hmem
    exact hmore c hc
  · intro body who q hq hm
    exact pump_command_duration hq hm

/-- `{"state": "start", "minutes": 2.05}`. -/
def start_body : Body := fun key =>
  if key = "state".toList then some (.string "start".toList)
  else if key = "minutes".toList then some (.number (41 / 20))
  else none

/-- The start at boot, and the first decision of the task 122 s after it. -/
def early_labels : List Label :=
  command_labels 0 ⟨⟨.start, 122, "admin".toList⟩, 0, default_settings, ⟨false, 0⟩⟩ ++
    [.tick 122000000] ++
    iteration_labels ⟨122, some ⟨default_settings, true, 200⟩, default_settings, ⟨false, 0⟩⟩

/-- 2.05 minutes are 123 s, but a start for them is over with a decision after
    122 s. -/
theorem start_ends_early :
    pump_command start_body "admin".toList = .ok ⟨.start, 122, "admin".toList⟩ ∧
      min 43200 ⌊60 * (41 / 20 : ℚ)⌋₊ = 123 ∧
      ∃ s, firmware.exec (boot .missing 0) early_labels = some s ∧ s.s_lock = none ∧
        override_log 0 (ops_of (sections_of early_labels)) =
          [.accepted .start 122 0, .decision 0 false, .decision 122 false] ∧
        s.dev.s_state.manual = .none := by
  have hduration : minutes_duration_s (valuedouble (41 / 20)) = 122 := by decide +kernel
  have hpositive : valuedouble (41 / 20) > 0 := by decide +kernel
  refine ⟨?_, by norm_num, _, rfl, rfl, by decide, rfl⟩
  simp [pump_command, state_manual, start_body, positive_minutes, hpositive, hduration]

/-- A start for ten minutes, just given. -/
theorem manual_override_lifetime_start :
    ∃ s, firmware.exec (boot .missing 0) (command_labels 0
        ⟨⟨.start, 600, "admin".toList⟩, 0, default_settings, ⟨false, 0⟩⟩) = some s ∧
      s.dev.s_state.manual = .start := by
  have hexec : ∃ s, firmware.exec (boot .missing 0) (command_labels 0
      ⟨⟨.start, 600, "admin".toList⟩, 0, default_settings, ⟨false, 0⟩⟩) = some s ∧
      s.s_lock = none := ⟨_, rfl, rfl⟩
  obtain ⟨s, hexec, hfree⟩ := hexec
  refine ⟨s, hexec, ?_⟩
  refine ((manual_override_lifetime .missing 0 _ s hexec hfree _ rfl).1 .start (by decide)).mpr ?_
  refine ⟨[], .accepted .start 600 0, [.decision 0 false], by decide, rfl, ?_⟩
  simp [OverrideEvent.keeps]

end FloorHeating
