import FloorHeating.Lib.Transition

/-! # Systems that are restarted

    Between any two steps of a system it may be restarted.  A restart makes
    an initial state out of the state it finds: what is durable goes into
    it, the rest is lost.

    * `System.restarting`: the system together with its restarts.
    * `Run.life`: what is reached in spite of restarts is reached by the
      system alone, since the last restart.  So every invariant of the system
      is one of the restarted system.
    * `restarting_invariant`: what is observed of the steps, and survives
      both the steps and the restarts. -/

namespace LTS

universe u v w x

variable {State : Type u} {Label : Type v} {Restart : Type w} {β : Type x}

/-- The system, with a restart possible in every state. -/
def System.restarting (sys : System State Label) (restart : State → Restart → State) :
    System State (Label ⊕ Restart) where
  init := sys.init
  step
    | s, .inl a => sys.step s a
    | s, .inr r => some (restart s r)

variable {sys : System State Label} {restart : State → Restart → State}

/-- The life a state is in: a run of the system alone that leads to it, by
    labels of the whole run. -/
theorem Run.life (hrestart : ∀ s r, sys.init (restart s r)) {acts : List (Label ⊕ Restart)}
    {s : State} (h : Run (sys.restarting restart) acts s) :
    ∃ since, Run sys since s ∧ ∀ a ∈ since, .inl a ∈ acts := by
  induction h with
  | init hinit => exact ⟨[], .init hinit, fun _ ha => absurd ha List.not_mem_nil⟩
  | @snoc acts s a s' _ hstep ih =>
    cases a with
    | inl a =>
      obtain ⟨since, hsince, hmem⟩ := ih
      refine ⟨since ++ [a], hsince.snoc hstep, ?_⟩
      intro b hb
      rcases List.mem_append.mp hb with hb | hb
      · exact List.mem_append_left _ (hmem b hb)
      · obtain rfl : b = a := by simpa using hb
        simp
    | inr r =>
      -- a new life begins
      obtain rfl : restart s r = s' := Option.some.inj hstep
      exact ⟨[], .init (hrestart s r), fun _ ha => absurd ha List.not_mem_nil⟩

/-- A step is observed, a restart is not. -/
def observed (obs : State → Label → Option β) (s : State) : Label ⊕ Restart → Option β
  | .inl a => obs s a
  | .inr _ => none

/-- What holds of the state and of the observations before it, and survives
    the steps as well as the restarts that meet the condition. -/
theorem restarting_invariant {obs : State → Label → Option β} {ok : Restart → Prop}
    {P : List β → State → Prop}
    (hstep : ∀ l s a s', P l s → sys.step s a = some s' → P (l ++ (obs s a).toList) s')
    (hrestart : ∀ l s r, ok r → P l s → P l (restart s r))
    {l : List β} {s s' : State} {acts : List (Label ⊕ Restart)} (hs : P l s)
    (hexec : (sys.restarting restart).exec s acts = some s') (hok : ∀ r, .inr r ∈ acts → ok r) :
    P (l ++ (sys.restarting restart).trace (observed obs) s acts) s' := by
  have hkeep : ∀ l s a s', (∀ r, a = .inr r → ok r) → P l s →
      (sys.restarting restart).step s a = some s' → P (l ++ (observed obs s a).toList) s' := by
    intro l s a s' hok hs hstep'
    cases a with
    | inl a => exact hstep l s a s' hs hstep'
    | inr r =>
      obtain rfl : restart s r = s' := Option.some.inj hstep'
      simpa [observed] using hrestart l s r (hok r rfl) hs
  have hall : (sys.restarting restart).Steps (fun _ a => ∀ r, a = .inr r → ok r) s acts := by
    refine steps_of_forall ?_ s
    rintro a ha _ r rfl
    exact hok r ha
  exact trace_invariant hkeep hs hexec hall

end LTS
