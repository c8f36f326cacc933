import FloorHeating.Control
import FloorHeating.ControlRuns
import FloorHeating.Lib.Transition

/-! # The device as its critical sections

    The specification of `control.c`: an atomic machine that takes one whole
    critical section in each step, in any order, with whatever timestamps,
    reads and settings the section was given.  The only thing asked of the
    settings is that they are consistent; that the firmware hands out no
    others is proved where the firmware refines this machine.

    A run of the machine is also a run of the control logic: each section is
    a few calls of `control_logic.c`, and `s_state` is what they leave. -/

namespace FloorHeating

open LTS

/-- One release of `s_lock`, with all that its section was given. -/
inductive Section where
  | iteration (it : Iteration)
  | command (c : Command)
  | refused (q : Request) (now_s : Int)
  deriving DecidableEq, Repr

/-- Every copy of the settings the section was given is consistent. -/
def Section.Sane : Section → Prop
  | .iteration it => it.settings.Valid ∧ ∀ rd, it.read = some rd → rd.settings.Valid
  | .command c => c.settings.Valid
  | .refused _ _ => True

instance (o : Option Read) : Decidable (∀ rd, o = some rd → rd.settings.Valid) :=
  match o with
  | none => .isTrue fun _ h => nomatch h
  | some rd => decidable_of_iff rd.settings.Valid
      ⟨fun h _ hrd => by cases hrd; exact h, fun h => h rd rfl⟩

instance : (sec : Section) → Decidable sec.Sane
  | .iteration _ => inferInstanceAs (Decidable (_ ∧ _))
  | .command c => inferInstanceAs (Decidable c.settings.Valid)
  | .refused _ _ => .isTrue trivial

/-- One section.  A `command` is one that is accepted, and `refused` one that
    is not. -/
def section_step (d : Device) (sec : Section) : Option Device :=
  if ¬ sec.Sane then none
  else match sec with
    | .iteration it => some (control_iteration d it)
    | .command c => match control_manual d c with
      | (.ok, d') => some d'
      | (.refused_overheat, _) => none
    | .refused q now_s => match ctl_manual d.s_state q.manual q.clamped_s now_s with
      | none => some d
      | some _ => none

/-- The sections of a device from `control_start`, in any order. -/
def sections : System Device Section where
  init d := ∃ now_s, d = control_start now_s
  step := section_step

/-! ## What one section does -/

/-- A stop is refused during an overheat, and nothing else ever is. -/
theorem ctl_manual_eq_none_iff (s : CtlState) (m : CtlManual) (duration_s : UInt32)
    (now_s : Int) :
    ctl_manual s m duration_s now_s = none ↔ m = .stop ∧ s.overheat = true := by
  unfold ctl_manual
  split
  · rename_i h
    simp [h]
  · rename_i h
    simp [h]

/-- The two ways a call of `control_manual` can end. -/
theorem control_manual_cases (d : Device) (c : Command) :
    (ctl_manual d.s_state c.request.manual c.request.clamped_s c.now_s = none ∧
        control_manual d c = (.refused_overheat, d)) ∨
      ∃ st, ctl_manual d.s_state c.request.manual c.request.clamped_s c.now_s = some st ∧
        control_manual d c = (.ok, (decide_locked { d with s_state := st } c.settings c.wall
          c.now_s {} (some c.request.detail)).1) := by
  unfold control_manual
  cases h : ctl_manual d.s_state c.request.manual c.request.clamped_s c.now_s with
  | none => exact Or.inl ⟨rfl, rfl⟩
  | some st => exact Or.inr ⟨st, rfl, rfl⟩

/-- All a section can do. -/
inductive SectionStep (d : Device) : Section → Device → Prop where
  | iteration (it : Iteration) : SectionStep d (.iteration it) (control_iteration d it)
  | command (c : Command) (st : CtlState)
      (accepted : ctl_manual d.s_state c.request.manual c.request.clamped_s c.now_s = some st) :
      SectionStep d (.command c) (decide_locked { d with s_state := st } c.settings c.wall
        c.now_s {} (some c.request.detail)).1
  | refused (q : Request) (now_s : Int)
      (refused : ctl_manual d.s_state q.manual q.clamped_s now_s = none) :
      SectionStep d (.refused q now_s) d

theorem SectionStep.iteration_eq {d d' : Device} {it : Iteration}
    (h : SectionStep d (.iteration it) d') : d' = control_iteration d it := by
  cases h with
  | iteration it => rfl

theorem section_step_inv {d d' : Device} {sec : Section} (h : section_step d sec = some d') :
    sec.Sane ∧ SectionStep d sec d' := by
  unfold section_step at h
  by_cases hsane : sec.Sane
  · rw [if_neg (not_not_intro hsane)] at h
    refine ⟨hsane, ?_⟩
    cases sec with
    | iteration it =>
      obtain rfl : control_iteration d it = d' := by simpa using h
      exact .iteration it
    | command c =>
      -- a refused call is no `command`
      rcases control_manual_cases d c with ⟨-, hm⟩ | ⟨st, hst, hm⟩
      · simp [hm] at h
      · simp only [hm, Option.some.injEq] at h
        exact h ▸ .command c st hst
    | refused q now_s =>
      cases hm : ctl_manual d.s_state q.manual q.clamped_s now_s with
      | none =>
        obtain rfl : d = d' := by simpa [hm] using h
        exact .refused q now_s hm
      | some st => simp [hm] at h
  · rw [if_pos hsane] at h
    simp at h

theorem SectionStep.step {d d' : Device} {sec : Section} (hsane : sec.Sane)
    (h : SectionStep d sec d') : section_step d sec = some d' := by
  unfold section_step
  rw [if_neg (not_not_intro hsane)]
  cases h with
  | iteration it => rfl
  | command c st hst => simp [control_manual, hst]
  | refused q now_s hm => simp [hm]

/-! ## Sections as calls of the control logic -/

/-- The calls of the iteration's read, if it made one. -/
def Iteration.read_ops (it : Iteration) : List CtlOp :=
  match it.read with
  | none => []
  | some rd => [.sensor (config_from_settings rd.settings) it.now_s rd.valid rd.temp_x10]

/-- The calls of a section on `s_state`, in order. -/
def Section.ops : Section → List CtlOp
  | .iteration it => it.read_ops ++ [.decide (config_from_settings it.settings) it.now_s]
  | .command c => [.manual c.request.manual c.request.clamped_s c.now_s,
      .decide (config_from_settings c.settings) c.now_s]
  | .refused _ _ => []

/-- The calls of a list of sections. -/
def ops_of (secs : List Section) : List CtlOp := secs.flatMap Section.ops

/-- The result a decision adds to does not change what it does to the state. -/
theorem ctl_decide_state (s : CtlState) (cfg : CtlConfig) (now_s : Int) (res : CtlResult) :
    (ctl_decide s cfg now_s res).1 = ctl_step s (.decide cfg now_s) := by
  rw [ctl_step_decide, ctl_decide_eq]

theorem iteration_sensor_state (d : Device) (it : Iteration) :
    (iteration_sensor d it.now_s it.read).1.s_state = it.read_ops.foldl ctl_step d.s_state := by
  unfold iteration_sensor Iteration.read_ops
  cases it.read <;> rfl

theorem control_iteration_state (d : Device) (it : Iteration) :
    (control_iteration d it).s_state = (Section.iteration it).ops.foldl ctl_step d.s_state := by
  have hsensor := iteration_sensor_state d it
  simp only [control_iteration, decide_locked_state, ctl_decide_state, hsensor, Section.ops,
    List.foldl_append, List.foldl_cons, List.foldl_nil]

theorem SectionStep.state {d d' : Device} {sec : Section} (h : SectionStep d sec d') :
    d'.s_state = sec.ops.foldl ctl_step d.s_state := by
  cases h with
  | iteration it => exact control_iteration_state d it
  | command c st hst =>
    have hmanual : ctl_step d.s_state (.manual c.request.manual c.request.clamped_s c.now_s) = st := by
      rw [ctl_step, hst, Option.getD_some]
    simp only [decide_locked_state, ctl_decide_state, Section.ops, List.foldl_cons,
      List.foldl_nil, hmanual]
  | refused q now_s _ => rfl

/-- **A run of the sections is a run of the control logic.** -/
theorem sections_ctl_run {boot_s : Int} {secs : List Section} {d : Device}
    (h : sections.exec (control_start boot_s) secs = some d) :
    d.s_state = ctl_run boot_s (ops_of secs) := by
  -- by induction on the sections, from any device they start at
  have hsim : ∀ {secs : List Section} {d d' : Device}, sections.exec d secs = some d' →
      d'.s_state = (ops_of secs).foldl ctl_step d.s_state := by
    intro secs
    induction secs with
    | nil =>
      intro d d' hexec
      obtain rfl : d = d' := by simpa [System.exec] using hexec
      rfl
    | cons sec secs ih =>
      intro d d' hexec
      obtain ⟨d₁, hstep, hrest⟩ := Option.bind_eq_some_iff.mp hexec
      rw [ih hrest, (section_step_inv hstep).2.state, ops_of, ops_of, List.flatMap_cons,
        List.foldl_append]
  exact hsim h

theorem sections_run_ctl_run {secs : List Section} {d : Device} (h : Run sections secs d) :
    ∃ boot_s, d.s_state = ctl_run boot_s (ops_of secs) := by
  obtain ⟨d₀, ⟨boot_s, rfl⟩, hexec⟩ := h.exists_exec
  exact ⟨boot_s, sections_ctl_run hexec⟩

/-- The settings of all sections of a run are consistent. -/
theorem sections_sane {secs : List Section} {d : Device} (h : Run sections secs d) :
    ∀ sec ∈ secs, sec.Sane := by
  induction h with
  | init _ => simp
  | @snoc secs d sec d' _ hstep ih =>
    intro sec' hsec
    rcases List.mem_append.mp hsec with hsec | hsec
    · exact ih sec' hsec
    · obtain rfl : sec' = sec := by simpa using hsec
      exact (section_step_inv hstep).1

/-! ## Flags and decision agree between sections -/

/-- The pump state and the reason are those of the rules on the flags, and a
    manual stop is never held during an overheat. -/
structure Settled (s : CtlState) : Prop where
  rule : (s.on, s.reason) = ctl_rule s
  stop : s.manual = .stop → s.overheat = false

theorem settled_init (now_s : Int) : Settled (ctl_init now_s) := ⟨rfl, fun h => nomatch h⟩

/-- Whatever the flags were, a decision settles them. -/
theorem settled_decide (s : CtlState) (cfg : CtlConfig) (now_s : Int) :
    Settled (ctl_step s (.decide cfg now_s)) := by
  rw [ctl_step_decide]
  refine ⟨rfl, ?_⟩
  show manual_next s now_s = .stop → s.overheat = false
  intro hstop
  unfold manual_next at hstop
  split at hstop
  · simp at hstop
  · -- a stop that is still running is dropped as soon as there is an overheat
    rename_i hended
    cases hover : s.overheat with
    | false => rfl
    | true =>
      have hrun : ¬ manual_expires s now_s = true := fun h => hended (by simp [h])
      have hcancel := (manual_cancels_iff s now_s).mpr ⟨hrun, hstop, hover⟩
      exact absurd (by simp [hcancel]) hended

/-- A section ends with a decision or has touched nothing. -/
theorem SectionStep.settled {d d' : Device} {sec : Section} (h : SectionStep d sec d')
    (hd : Settled d.s_state) : Settled d'.s_state := by
  rw [h.state]
  cases sec with
  | iteration it =>
    -- whatever the read did to the flags, the decision comes after it
    rw [Section.ops, List.foldl_append]
    exact settled_decide _ _ _
  | command c => exact settled_decide _ _ _
  | refused q now_s => exact hd

theorem sections_settled {secs : List Section} {d : Device} (h : Run sections secs d) :
    Settled d.s_state := by
  refine Run.invariant (P := fun d : Device => Settled d.s_state) ?_ ?_ h
  · rintro d ⟨now_s, rfl⟩
    exact settled_init now_s
  · intro d sec d' hd hstep
    exact (section_step_inv hstep).2.settled hd

end FloorHeating
