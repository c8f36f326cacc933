import Mathlib.Data.List.Basic
import Mathlib.Data.List.Induction

/-! # Labelled transition systems that can be run

    A system has initial states and a partial step function: `step s a` is
    the state after the step labelled `a`, or `none` where the label is not
    enabled.  What the environment chooses is in the label, so a list of
    labels determines a run, and a run on concrete labels can be evaluated.

    * `Run sys acts s`: some initial state reaches `s` by the labels `acts`.
    * `Run.of_exec`: a run that was evaluated is a run.
    * `Run.invariant`: what holds initially and survives every step holds of
      every state reached.
    * `exec_invariant`: the same over a stretch of a run whose labels are
      restricted, and `Run.split` to get at such a stretch.
    * `System.trace`: what is observed of some of the steps, in order.
    * `System.Steps`: a condition on every step that is taken.
    * `trace_invariant`, `history_invariant`: invariants of the state together
      with what has been observed, or with the labels, on the way to it.
    * `exec_simulation`: a system simulates another one through a map that
      keeps some labels and hides the others. -/

namespace LTS

universe u v u' v' w

variable {State : Type u} {Label : Type v} {State' : Type u'} {Label' : Type v'} {β : Type w}

/-- A labelled transition system with a partial step function. -/
structure System (State : Type u) (Label : Type v) where
  init : State → Prop
  step : State → Label → Option State

/-- Take the steps of a list of labels, one after the other. -/
def System.exec (sys : System State Label) : State → List Label → Option State
  | s, [] => some s
  | s, a :: acts => (sys.step s a).bind fun s' => sys.exec s' acts

/-- `acts` leads from some initial state to `s`. -/
inductive Run (sys : System State Label) : List Label → State → Prop where
  | init : ∀ {s}, sys.init s → Run sys [] s
  | snoc : ∀ {acts s a s'}, Run sys acts s → sys.step s a = some s' → Run sys (acts ++ [a]) s'

variable {sys : System State Label}

theorem exec_append (s : State) (acts more : List Label) :
    sys.exec s (acts ++ more) = (sys.exec s acts).bind fun s' => sys.exec s' more := by
  induction acts generalizing s with
  | nil => rfl
  | cons a acts ih =>
    show (sys.step s a).bind _ = ((sys.step s a).bind _).bind _
    cases sys.step s a with
    | none => rfl
    | some s₁ => exact ih s₁

/-- A run goes on with every list of labels that can be executed. -/
theorem Run.append {acts : List Label} {s : State} (h : Run sys acts s) :
    ∀ {more : List Label} {s' : State}, sys.exec s more = some s' → Run sys (acts ++ more) s' := by
  intro more
  induction more generalizing acts s with
  | nil =>
    intro s' hexec
    obtain rfl : s = s' := by simpa [System.exec] using hexec
    simpa using h
  | cons a more ih =>
    intro s' hexec
    obtain ⟨s₁, hstep, hrest⟩ := Option.bind_eq_some_iff.mp hexec
    have := ih (Run.snoc h hstep) hrest
    simpa using this

theorem Run.of_exec {s s' : State} {acts : List Label} (hinit : sys.init s)
    (hexec : sys.exec s acts = some s') : Run sys acts s' := by
  simpa using Run.append (Run.init hinit) hexec

/-- The last step of a run, taken off. -/
theorem Run.unsnoc {acts : List Label} {a : Label} {s' : State} (h : Run sys (acts ++ [a]) s') :
    ∃ s, Run sys acts s ∧ sys.step s a = some s' := by
  generalize hl : acts ++ [a] = l at h
  cases h with
  | init => simp at hl
  | snoc hrun hstep =>
    obtain ⟨rfl, ha⟩ := List.append_inj' hl rfl
    obtain rfl : a = _ := by simpa using ha
    exact ⟨_, hrun, hstep⟩

/-- A run, cut in two anywhere. -/
theorem Run.split {acts more : List Label} {s' : State} (h : Run sys (acts ++ more) s') :
    ∃ s, Run sys acts s ∧ sys.exec s more = some s' := by
  induction more generalizing acts with
  | nil =>
    refine ⟨s', ?_, rfl⟩
    simpa using h
  | cons a more ih =>
    have h' : Run sys ((acts ++ [a]) ++ more) s' := by simpa using h
    obtain ⟨s₁, hrun, hexec⟩ := ih h'
    obtain ⟨s, hs, hstep⟩ := hrun.unsnoc
    refine ⟨s, hs, ?_⟩
    show (sys.step s a).bind _ = some s'
    rw [hstep]
    exact hexec

/-- A run starts in an initial state. -/
theorem Run.exists_exec {acts : List Label} {s : State} (h : Run sys acts s) :
    ∃ s₀, sys.init s₀ ∧ sys.exec s₀ acts = some s := by
  have h' : Run sys ([] ++ acts) s := h
  obtain ⟨s₀, hrun, hexec⟩ := h'.split
  generalize hl : ([] : List Label) = l at hrun
  cases hrun with
  | init hinit => exact ⟨s₀, hinit, hexec⟩
  | snoc => simp at hl

/-! ## Invariants -/

/-- What holds initially and survives every step holds of every state reached. -/
theorem Run.invariant {P : State → Prop} (hinit : ∀ s, sys.init s → P s)
    (hstep : ∀ s a s', P s → sys.step s a = some s' → P s')
    {acts : List Label} {s : State} (h : Run sys acts s) : P s := by
  induction h with
  | init h₀ => exact hinit _ h₀
  | snoc _ hs ih => exact hstep _ _ _ ih hs

/-- What survives every step with an `ok` label survives a stretch of them. -/
theorem exec_invariant {P : State → Prop} {ok : Label → Prop}
    (hstep : ∀ s a s', ok a → P s → sys.step s a = some s' → P s')
    {acts : List Label} {s s' : State} (hs : P s) (hexec : sys.exec s acts = some s')
    (hok : ∀ a ∈ acts, ok a) : P s' := by
  induction acts generalizing s with
  | nil =>
    obtain rfl : s = s' := by simpa [System.exec] using hexec
    exact hs
  | cons a acts ih =>
    obtain ⟨s₁, ha, hrest⟩ := Option.bind_eq_some_iff.mp hexec
    have hs₁ : P s₁ := hstep s a s₁ (hok a (by simp)) hs ha
    exact ih hs₁ hrest fun b hb => hok b (by simp [hb])

/-! ## Observations -/

/-- What `obs` sees of the steps of a list of labels, as far as they can be taken. -/
def System.trace (sys : System State Label) (obs : State → Label → Option β) :
    State → List Label → List β
  | _, [] => []
  | s, a :: acts => (obs s a).toList ++ match sys.step s a with
    | some s' => sys.trace obs s' acts
    | none => []

/-- Every step that is taken meets the condition, in the state before it. -/
def System.Steps (sys : System State Label) (ok : State → Label → Prop) :
    State → List Label → Prop
  | _, [] => True
  | s, a :: acts => ok s a ∧ ∀ s', sys.step s a = some s' → sys.Steps ok s' acts

theorem trace_append {obs : State → Label → Option β} {s s' : State} {acts : List Label}
    (hexec : sys.exec s acts = some s') (more : List Label) :
    sys.trace obs s (acts ++ more) = sys.trace obs s acts ++ sys.trace obs s' more := by
  induction acts generalizing s with
  | nil =>
    obtain rfl : s = s' := by simpa [System.exec] using hexec
    rfl
  | cons a acts ih =>
    obtain ⟨s₁, hstep, hrest⟩ := Option.bind_eq_some_iff.mp hexec
    simp only [List.cons_append, System.trace, hstep, ih hrest, List.append_assoc]

/-- The observation of one step, in the middle of the others. -/
theorem trace_cut {obs : State → Label → Option β} {s s₁ : State} {pre : List Label}
    (hexec : sys.exec s pre = some s₁) (a : Label) (post : List Label) :
    ∃ rest, sys.trace obs s (pre ++ a :: post) =
      sys.trace obs s pre ++ (obs s₁ a).toList ++ rest := by
  rw [trace_append hexec, System.trace]
  exact ⟨_, (List.append_assoc _ _ _).symm⟩

theorem trace_concat {obs : State → Label → Option β} {s s₁ : State} {acts : List Label}
    (hexec : sys.exec s acts = some s₁) (a : Label) :
    sys.trace obs s (acts ++ [a]) = sys.trace obs s acts ++ (obs s₁ a).toList := by
  rw [trace_append hexec, System.trace]
  cases sys.step s₁ a <;> simp [System.trace]

/-- What holds of the state and of the labels that led to it. -/
theorem history_invariant {P : List Label → State → Prop} {s₀ : State} (hinit : P [] s₀)
    (hstep : ∀ past s a s', sys.exec s₀ past = some s → P past s → sys.step s a = some s' →
      P (past ++ [a]) s')
    {acts : List Label} {s : State} (hexec : sys.exec s₀ acts = some s) : P acts s := by
  induction acts using List.reverseRecOn generalizing s with
  | nil =>
    obtain rfl : s₀ = s := by simpa [System.exec] using hexec
    exact hinit
  | append_singleton acts a ih =>
    rw [exec_append] at hexec
    obtain ⟨s₁, hpast, hlast⟩ := Option.bind_eq_some_iff.mp hexec
    have hlast' : sys.step s₁ a = some s := by
      rw [← hlast, System.exec]
      cases sys.step s₁ a <;> rfl
    exact hstep acts s₁ a s hpast (ih hpast) hlast'

/-- Labels of which nothing is asked in any state. -/
theorem steps_of_forall {ok : State → Label → Prop} {acts : List Label}
    (h : ∀ a ∈ acts, ∀ s, ok s a) (s : State) : sys.Steps ok s acts := by
  induction acts generalizing s with
  | nil => trivial
  | cons a acts ih => exact ⟨h a (by simp) s, fun s' _ => ih (fun b hb => h b (by simp [hb])) s'⟩

theorem steps_append {ok : State → Label → Prop} {s s' : State} {acts more : List Label}
    (hacts : sys.Steps ok s acts) (hexec : sys.exec s acts = some s')
    (hmore : sys.Steps ok s' more) : sys.Steps ok s (acts ++ more) := by
  induction acts generalizing s with
  | nil =>
    obtain rfl : s = s' := by simpa [System.exec] using hexec
    exact hmore
  | cons a acts ih =>
    obtain ⟨s₁, hstep, hrest⟩ := Option.bind_eq_some_iff.mp hexec
    refine ⟨hacts.1, ?_⟩
    intro s₂ hs₂
    obtain rfl : s₁ = s₂ := Option.some.inj (hstep.symm.trans hs₂)
    exact ih (hacts.2 s₁ hstep) hrest

/-- What holds of the state and of what was observed before it, and goes on
    holding through every step that meets the condition. -/
theorem trace_invariant {obs : State → Label → Option β} {ok : State → Label → Prop}
    {P : List β → State → Prop}
    (hstep : ∀ l s a s', ok s a → P l s → sys.step s a = some s' →
      P (l ++ (obs s a).toList) s')
    {l : List β} {s s' : State} {acts : List Label} (hs : P l s)
    (hexec : sys.exec s acts = some s') (hok : sys.Steps ok s acts) :
    P (l ++ sys.trace obs s acts) s' := by
  induction acts generalizing l s with
  | nil =>
    obtain rfl : s = s' := by simpa [System.exec] using hexec
    simpa [System.trace] using hs
  | cons a acts ih =>
    obtain ⟨s₁, ha, hrest⟩ := Option.bind_eq_some_iff.mp hexec
    have hs₁ := ih (hstep l s a s₁ hok.1 hs ha) hrest (hok.2 s₁ ha)
    simp only [System.trace, ha]
    rwa [List.append_assoc] at hs₁

/-! ## Simulation -/

/-- **Forward simulation.**  `vis` keeps the labels the abstract system sees
    and hides the others; a hidden step must leave the abstract state alone. -/
theorem exec_simulation {abs : System State' Label'} (vis : Label → Option Label')
    (R : State → State' → Prop)
    (hhidden : ∀ s a s' t, R s t → sys.step s a = some s' → vis a = none → R s' t)
    (hvisible : ∀ s a s' t b, R s t → sys.step s a = some s' → vis a = some b →
      ∃ t', abs.step t b = some t' ∧ R s' t')
    {acts : List Label} {s s' : State} {t : State'} (hR : R s t)
    (hexec : sys.exec s acts = some s') :
    ∃ t', abs.exec t (acts.filterMap vis) = some t' ∧ R s' t' := by
  induction acts generalizing s t with
  | nil =>
    obtain rfl : s = s' := by simpa [System.exec] using hexec
    exact ⟨t, rfl, hR⟩
  | cons a acts ih =>
    obtain ⟨s₁, hstep, hrest⟩ := Option.bind_eq_some_iff.mp hexec
    cases hv : vis a with
    | none =>
      rw [List.filterMap_cons_none hv]
      exact ih (hhidden s a s₁ t hR hstep hv) hrest
    | some b =>
      obtain ⟨t₁, ht₁, hR₁⟩ := hvisible s a s₁ t b hR hstep hv
      obtain ⟨t', ht', hR'⟩ := ih hR₁ hrest
      refine ⟨t', ?_, hR'⟩
      rw [List.filterMap_cons_some hv]
      show (abs.step t b).bind _ = some t'
      rw [ht₁]
      exact ht'

end LTS
