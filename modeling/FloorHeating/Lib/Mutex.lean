import Mathlib.Logic.Basic

/-! # Mutual exclusion by one lock

    `Held lock inside` is the invariant of a lock that names its owner: a
    party is inside its critical section exactly when the lock names it.  One
    rule for each thing a step can do to it: take the lock, give it back, or
    neither. -/

namespace Mutex

universe u

variable {ι : Type u} {lock : Option ι} {inside inside' : ι → Bool}

/-- The party inside is the one the lock names. -/
def Held (lock : Option ι) (inside : ι → Bool) : Prop :=
  ∀ o, inside o = true ↔ lock = some o

/-- At most one party is inside. -/
theorem Held.unique (h : Held lock inside) {o o' : ι} (ho : inside o = true)
    (ho' : inside o' = true) : o = o' := by
  have hlock := (h o).mp ho
  rw [(h o').mp ho'] at hlock
  exact (Option.some.inj hlock).symm

/-- Under a free lock nobody is inside. -/
theorem Held.outside (h : Held none inside) (o : ι) : inside o = false := by
  cases ho : inside o with
  | false => rfl
  | true => exact absurd ((h o).mp ho) (by simp)

/-- Nobody moved in or out. -/
theorem Held.keep (h : Held lock inside) (hsame : ∀ o, inside' o = inside o) :
    Held lock inside' := by
  intro o
  rw [hsame o]
  exact h o

/-- A free lock was taken. -/
theorem Held.acquire (h : Held none inside) {o : ι} (ho : inside' o = true)
    (hother : ∀ o', o' ≠ o → inside' o' = inside o') : Held (some o) inside' := by
  intro o'
  by_cases heq : o' = o
  · subst heq
    simp [ho]
  · -- the others were outside before, since the lock was free
    rw [hother o' heq, h.outside o']
    simp [Ne.symm heq]

/-- The party inside left and gave the lock back. -/
theorem Held.release (h : Held lock inside) {o : ι} (ho : inside o = true)
    (hout : inside' o = false) (hother : ∀ o', o' ≠ o → inside' o' = inside o') :
    Held none inside' := by
  intro o'
  by_cases heq : o' = o
  · subst heq
    simp [hout]
  · -- the others were outside before, since `o` was inside
    have hnot : ¬ inside o' = true := fun ho' => heq (h.unique ho' ho)
    rw [hother o' heq]
    simp [hnot]

end Mutex
