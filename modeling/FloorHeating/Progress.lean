import FloorHeating.Persistence
import FloorHeating.Lib.Fairness
import Mathlib.Algebra.BigOperators.Group.Finset.Basic

/-! # Every call returns

    Nothing the tasks wait for is held by somebody who waits.  `s_lock` and
    `s_write_lock` are never taken together, and between taking and giving
    back either of them there is only a bounded number of steps, none of
    which waits.  So no interleaving ends in a deadlock; where the scheduler
    is fair, every call of `control_manual` and of `settings_set` returns,
    and `control_task` goes through its loop for ever.

    Source: `control_task`, `control_manual` (`control.c`), `settings_set`
    (`settings.c`). -/

namespace FloorHeating

open LTS Mutex

/-! ## Who moves, and what is left to do -/

/-- The task that takes the step. -/
def Label.mover : Label → Option Owner
  | .tick _ | .disturb _ => none
  | .task _ => some .task
  | .manual c _ | .settings c _ => some (.caller c)

/-- A new iteration or a new call. -/
def Label.begins : Label → Bool
  | .task .start | .manual _ (.call _) | .settings _ (.call _) => true
  | _ => false

/-- The steps an iteration still takes, at most. -/
def TaskPc.left : TaskPc → Nat
  | .top => 0
  | .released _ _ => 1
  | .relayed _ => 2
  | .decided _ => 3
  | .sensed _ _ _ => 4
  | .locked _ _ => 5
  | .ready _ _ => 6
  | .reading => 7

/-- The steps a call still takes, at most. -/
def CallerPc.left : CallerPc → Nat
  | .idle => 0
  | .manual_returned _ | .set_returned _ _ => 1
  | .manual_decided _ | .manual_refused _ _ | .set_saved _ _ => 2
  | .manual_accepted _ _ | .set_written _ => 3
  | .manual_locked _ | .set_opened _ => 4
  | .manual_called _ | .set_applied _ => 5
  | .set_locked _ => 6
  | .set_called _ => 7

def Firmware.left (s : Firmware) : Owner → Nat
  | .task => s.task.left
  | .caller c => (s.callers c).left

theorem TaskPc.left_eq_zero {pc : TaskPc} : pc.left = 0 ↔ pc = .top := by
  cases pc <;> simp [TaskPc.left]

theorem CallerPc.left_eq_zero {pc : CallerPc} : pc.left = 0 ↔ pc = .idle := by
  cases pc <;> simp [CallerPc.left]

theorem CallerPc.left_le (pc : CallerPc) : pc.left ≤ 7 := by
  cases pc <;> simp [CallerPc.left]

theorem TaskPc.left_le (pc : TaskPc) : pc.left ≤ 7 := by
  cases pc <;> simp [TaskPc.left]

theorem ManualStep.moves {s s' : Firmware} {c : Nat} {act : ManualAct}
    (h : ManualStep s c act s') : Moves s (.caller c) s' := by
  cases h <;> exact caller_moves c _

/-- Only the task that takes the step moves. -/
theorem step_moves {s s' : Firmware} {a : Label} (h : step s a = some s') {o : Owner}
    (ho : a.mover = some o) : Moves s o s' := by
  cases a with
  | tick _ | disturb _ => simp [Label.mover] at ho
  | task act =>
    obtain rfl := Option.some.inj ho
    exact task_moves (task_step_inv h).callers
  | manual c act =>
    obtain rfl := Option.some.inj ho
    exact (manual_step_inv h).moves
  | settings c act =>
    obtain rfl := Option.some.inj ho
    exact (settings_step_inv h).outside.toMoves

/-- The others stay where they are. -/
theorem step_others {s s' : Firmware} {a : Label} (h : step s a = some s') :
    (a.mover ≠ some .task → s'.task = s.task) ∧
      ∀ c, a.mover ≠ some (.caller c) → s'.callers c = s.callers c := by
  cases ho : a.mover with
  | none =>
    cases a with
    | tick _ | disturb _ =>
      obtain rfl := Option.some.inj h
      exact ⟨fun _ => rfl, fun _ _ => rfl⟩
    | task _ | manual _ _ | settings _ _ => simp [Label.mover] at ho
  | some o =>
    have hmoves := step_moves h ho
    exact ⟨fun hne => hmoves.task fun heq => hne (heq ▸ rfl),
      fun c hne => hmoves.callers c fun heq => hne (heq ▸ rfl)⟩

theorem step_left_others {s s' : Firmware} {a : Label} (h : step s a = some s') {o : Owner}
    (ho : a.mover ≠ some o) : s'.left o = s.left o := by
  cases o with
  | task => exact congrArg TaskPc.left ((step_others h).1 ho)
  | caller c => exact congrArg CallerPc.left ((step_others h).2 c ho)

theorem TaskStep.left_lt {s s' : Firmware} {act : TaskAct} (h : TaskStep s act s')
    (hact : act ≠ .start) : s'.task.left < s.task.left := by
  cases h with
  | start _ => exact absurd rfl hact
  | history it on pc =>
    have htop : (s.task_history it on).task = .top := by
      unfold Firmware.task_history
      split
      · split <;> rfl
      · rfl
    rw [htop, pc]
    exact Nat.zero_lt_one
  | sample _ pc | lock _ _ pc _ | sensor _ _ pc | decide _ _ _ _ pc | relay _ pc | unlock _ pc =>
    rw [pc]
    exact Nat.lt_succ_self _

theorem ManualStep.left_lt {s s' : Firmware} {c : Nat} {act : ManualAct}
    (h : ManualStep s c act s') (hact : ∀ q, act ≠ .call q) :
    (s'.callers c).left < (s.callers c).left := by
  cases h with
  | call q _ => exact absurd rfl (hact q)
  | decide _ _ _ pc =>
    unfold Firmware.manual_decide
    rw [set_caller_same, pc]
    simp [CallerPc.left]
  | lock _ pc _ | accept _ _ pc _ | reject _ pc _ | unlock _ pc | refuse _ _ pc | leave _ pc =>
    rw [set_caller_same, pc]
    simp [CallerPc.left]

theorem SetStep.left_lt {s s' : Firmware} {c : Nat} {act : SetAct}
    (h : SetStep s c act s') (hact : ∀ v, act ≠ .call v) :
    (s'.callers c).left < (s.callers c).left := by
  cases h with
  | call v _ => exact absurd rfl (hact v)
  | nvs_open _ ok pc | nvs_set_blob _ ok _ pc =>
    -- an error skips steps, it never adds any
    rw [set_caller_same, pc]
    cases ok <;> simp [CallerPc.left]
  | lock _ pc _ | apply _ pc | nvs_commit _ _ _ pc | unlock _ _ pc | leave _ _ pc =>
    rw [set_caller_same, pc]
    simp [CallerPc.left]

/-- A step that begins nothing brings its task closer to the end. -/
theorem step_left_lt {s s' : Firmware} {a : Label} (h : step s a = some s') {o : Owner}
    (ho : a.mover = some o) (hgoes : a.begins = false) : s'.left o < s.left o := by
  cases a with
  | tick _ | disturb _ => simp [Label.mover] at ho
  | task act =>
    obtain rfl := Option.some.inj ho
    exact (task_step_inv h).left_lt fun hact => by simp [hact, Label.begins] at hgoes
  | manual c act =>
    obtain rfl := Option.some.inj ho
    exact (manual_step_inv h).left_lt fun q hact => by simp [hact, Label.begins] at hgoes
  | settings c act =>
    obtain rfl := Option.some.inj ho
    exact (settings_step_inv h).left_lt fun v hact => by simp [hact, Label.begins] at hgoes

/-! ## Who can move -/

/-- The step the task takes next, with some answer of the sensor and the
    clock. -/
def TaskPc.next : TaskPc → TaskAct
  | .top => .start
  | .reading => .sample ⟨true, 300⟩
  | .ready _ _ => .lock
  | .locked _ _ => .sensor
  | .sensed _ _ _ => .decide ⟨false, 0⟩
  | .decided _ => .relay
  | .relayed it => .unlock it
  | .released _ _ => .history

/-- Only `s_lock` can keep `control_task` waiting. -/
theorem task_next (s : Firmware) (hlock : s.task.next = .lock → s.s_lock = none) :
    ∃ s', step s (.task s.task.next) = some s' := by
  show ∃ s', task_step s s.task.next = some s'
  cases hpc : s.task with
  | ready now_s smp =>
    have hfree := hlock (by rw [hpc]; rfl)
    simp [TaskPc.next, task_step, hpc, hfree]
  | top | reading | locked _ _ | sensed _ _ _ | decided _ | relayed _ | released _ _ =>
    simp [TaskPc.next, task_step, hpc]

/-- The caller is before `s_lock`. -/
def CallerPc.waits_lock : CallerPc → Bool
  | .manual_called _ => true
  | _ => false

/-- The caller is before `s_write_lock`. -/
def CallerPc.waits_write : CallerPc → Bool
  | .set_called _ => true
  | _ => false

/-- The caller is in `control_manual`. -/
def CallerPc.commands : CallerPc → Bool
  | .manual_called _ | .manual_locked _ | .manual_accepted _ _ | .manual_refused _ _
  | .manual_decided _ | .manual_returned _ => true
  | _ => false

/-- A step of `control_task` or of `control_manual`. -/
def Label.controls : Label → Bool
  | .task _ | .manual _ _ => true
  | _ => false

/-- Only the two locks can keep a call waiting. -/
theorem caller_next (s : Firmware) (c : Nat) (hbusy : s.callers c ≠ .idle)
    (hlock : (s.callers c).waits_lock = true → s.s_lock = none)
    (hwrite : (s.callers c).waits_write = true → s.s_write_lock = none) :
    ∃ a : Label, a.mover = some (.caller c) ∧ a.begins = false ∧
      a.controls = (s.callers c).commands ∧ (step s a).isSome := by
  cases hpc : s.callers c with
  | idle => exact absurd hpc hbusy
  | manual_called q =>
    have hfree := hlock (by rw [hpc]; rfl)
    exact ⟨.manual c .lock, rfl, rfl, rfl, by simp [step, manual_step, hpc, hfree]⟩
  | manual_locked q => exact ⟨.manual c .apply, rfl, rfl, rfl, by simp [step, manual_step, hpc]⟩
  | manual_accepted q now_s =>
    exact ⟨.manual c (.decide ⟨false, 0⟩), rfl, rfl, rfl, by simp [step, manual_step, hpc]⟩
  | manual_refused q now_s =>
    exact ⟨.manual c (.refuse q now_s), rfl, rfl, rfl, by simp [step, manual_step, hpc]⟩
  | manual_decided cmd => exact ⟨.manual c (.unlock cmd), rfl, rfl, rfl, by simp [step, manual_step, hpc]⟩
  | manual_returned res => exact ⟨.manual c .leave, rfl, rfl, rfl, by simp [step, manual_step, hpc]⟩
  | set_called v =>
    have hfree := hwrite (by rw [hpc]; rfl)
    exact ⟨.settings c .lock, rfl, rfl, rfl, by simp [step, settings_step, hpc, hfree]⟩
  | set_locked v => exact ⟨.settings c .apply, rfl, rfl, rfl, by simp [step, settings_step, hpc]⟩
  | set_applied v =>
    exact ⟨.settings c (.nvs_open true), rfl, rfl, rfl, by simp [step, settings_step, hpc]⟩
  | set_opened v =>
    exact ⟨.settings c (.nvs_set_blob true true), rfl, rfl, rfl, by simp [step, settings_step, hpc]⟩
  | set_written v =>
    exact ⟨.settings c (.nvs_commit true true), rfl, rfl, rfl, by simp [step, settings_step, hpc]⟩
  | set_saved v ok => exact ⟨.settings c .unlock, rfl, rfl, rfl, by simp [step, settings_step, hpc]⟩
  | set_returned v ok => exact ⟨.settings c .leave, rfl, rfl, rfl, by simp [step, settings_step, hpc]⟩

/-- Both locks are held by those that are past them. -/
structure LocksHeld (s : Firmware) : Prop where
  control : LockInv s
  write : Held s.s_write_lock fun c => (s.callers c).saving

theorem firmware_locks {acts : List Label} {s : Firmware} (h : Run firmware acts s) :
    LocksHeld s := by
  obtain ⟨s₀, ⟨nvs, clock_us, rfl⟩, hexec⟩ := h.exists_exec
  obtain ⟨d, -, hR⟩ := firmware_refines_sections hexec
  exact ⟨hR.lock, (firmware_saves hexec).lock⟩

/-- **Whoever holds a lock can go on**, also while others hold the other one. -/
theorem holder_next {s : Firmware} (hs : LocksHeld s) :
    (s.s_lock = some .task → s.task.next ≠ .lock) ∧
      (∀ c, s.s_lock = some (.caller c) →
        (s.callers c).waits_lock = false ∧ (s.callers c).waits_write = false) ∧
      ∀ c, s.s_write_lock = some c →
        (s.callers c).waits_lock = false ∧ (s.callers c).waits_write = false := by
  refine ⟨?_, ?_, ?_⟩
  · intro hlock
    have hinside : s.task.inside = true := (hs.control .task).mpr hlock
    cases hpc : s.task <;> simp_all [TaskPc.inside, TaskPc.next]
  · intro c hlock
    have hinside : (s.callers c).inside = true := (hs.control (.caller c)).mpr hlock
    cases hpc : s.callers c <;>
      simp_all [CallerPc.inside, CallerPc.waits_lock, CallerPc.waits_write]
  · intro c hlock
    have hsaving : (s.callers c).saving = true := (hs.write c).mpr hlock
    cases hpc : s.callers c <;>
      simp_all [CallerPc.saving, CallerPc.waits_lock, CallerPc.waits_write]

/-! ## Fair executions -/

/-- What a fair scheduler owes a task: every step of `control_task`, and every
    step of a call that is under way. -/
def Due : Owner → Label → Prop
  | .task, a => a.mover = some .task
  | .caller c, a => a.mover = some (.caller c) ∧ a.begins = false

/-- Only who is done begins anew. -/
theorem begins_done {s s' : Firmware} {a : Label} (h : step s a = some s') {o : Owner}
    (ho : a.mover = some o) (hbegins : a.begins = true) : s.left o = 0 := by
  cases a with
  | tick _ | disturb _ => simp [Label.mover] at ho
  | task act =>
    obtain rfl := Option.some.inj ho
    cases task_step_inv h with
    | start pc => exact congrArg TaskPc.left pc
    | sample _ _ | lock _ _ _ _ | sensor _ _ _ | decide _ _ _ _ _ | relay _ _ | unlock _ _
    | history _ _ _ => simp [Label.begins] at hbegins
  | manual c act =>
    obtain rfl := Option.some.inj ho
    cases manual_step_inv h with
    | call _ pc => exact congrArg CallerPc.left pc
    | lock _ _ _ | accept _ _ _ _ | reject _ _ _ | decide _ _ _ _ | unlock _ _ | refuse _ _ _
    | leave _ _ => simp [Label.begins] at hbegins
  | settings c act =>
    obtain rfl := Option.some.inj ho
    cases settings_step_inv h with
    | call _ pc => exact congrArg CallerPc.left pc
    | lock _ _ _ | apply _ _ | nvs_open _ _ _ | nvs_set_blob _ _ _ _ | nvs_commit _ _ _ _
    | unlock _ _ _ | leave _ _ _ => simp [Label.begins] at hbegins

section busy
variable {s s' : Firmware} {a : Label} (h : step s a = some s') {o : Owner}
         (hbusy : s.left o ≠ 0)
include h hbusy

/-- A step of a busy task is one that it is owed. -/
theorem due_of_mover (ho : a.mover = some o) : Due o a := by
  cases o with
  | task => exact ho
  | caller c =>
    refine ⟨ho, ?_⟩
    cases hbegins : a.begins with
    | false => rfl
    | true => exact absurd (begins_done h ho hbegins) hbusy

theorem due_left_lt (hdue : Due o a) : s'.left o < s.left o := by
  have ho : a.mover = some o := by
    cases o with
    | task => exact hdue
    | caller c => exact hdue.1
  cases hbegins : a.begins with
  | false => exact step_left_lt h ho hbegins
  | true => exact absurd (begins_done h ho hbegins) hbusy

theorem not_due_left (hdue : ¬ Due o a) : s'.left o = s.left o :=
  step_left_others h fun ho => hdue (due_of_mover h hbusy ho)

end busy

/-- `s_lock` changes hands through being free. -/
theorem step_s_lock {s s' : Firmware} {a : Label} (h : step s a = some s') :
    s'.s_lock = s.s_lock ∨ s.s_lock = none ∨ s'.s_lock = none := by
  cases a with
  | tick _ | disturb _ =>
    obtain rfl := Option.some.inj h
    exact Or.inl rfl
  | task act =>
    cases task_step_inv h with
    | start pc => exact Or.inl (task_start_outside pc).lock
    | history it on pc => exact Or.inl (task_history_outside pc).lock
    | lock _ _ _ free => exact Or.inr (Or.inl free)
    | unlock _ _ => exact Or.inr (Or.inr rfl)
    | sample _ _ | sensor _ _ _ | decide _ _ _ _ _ | relay _ _ => exact Or.inl rfl
  | manual c act =>
    cases manual_step_inv h with
    | lock _ _ free => exact Or.inr (Or.inl free)
    | unlock _ _ | refuse _ _ _ => exact Or.inr (Or.inr rfl)
    | call _ _ | accept _ _ _ _ | reject _ _ _ | decide _ _ _ _ | leave _ _ => exact Or.inl rfl
  | settings c act => exact Or.inl (settings_step_inv h).outside.lock

/-- So does `s_write_lock`. -/
theorem step_s_write_lock {s s' : Firmware} {a : Label} (h : step s a = some s') :
    s'.s_write_lock = s.s_write_lock ∨ s.s_write_lock = none ∨ s'.s_write_lock = none := by
  cases a with
  | tick _ | disturb _ =>
    obtain rfl := Option.some.inj h
    exact Or.inl rfl
  | task act => exact Or.inl (task_step_inv h).settings_frame.write_lock
  | manual c act => exact Or.inl (manual_step_inv h).settings_frame.write_lock
  | settings c act =>
    cases settings_step_inv h with
    | lock _ _ free => exact Or.inr (Or.inl free)
    | unlock _ _ _ => exact Or.inr (Or.inr rfl)
    | call _ _ | apply _ _ | nvs_open _ _ _ | nvs_set_blob _ _ _ _ | nvs_commit _ _ _ _
    | leave _ _ _ => exact Or.inl rfl

/-- Whoever holds `s_lock` is busy. -/
theorem holds_s_lock_busy {s : Firmware} (hs : LocksHeld s) {o : Owner}
    (hlock : s.s_lock = some o) : s.left o ≠ 0 := by
  intro hleft
  have hinside : s.inside o = true := (hs.control o).mpr hlock
  cases o with
  | task =>
    rw [Firmware.inside, TaskPc.left_eq_zero.mp hleft] at hinside
    simp [TaskPc.inside] at hinside
  | caller c =>
    rw [Firmware.inside, CallerPc.left_eq_zero.mp hleft] at hinside
    simp [CallerPc.inside] at hinside

/-- Whoever holds `s_write_lock` is busy. -/
theorem holds_write_lock_busy {s : Firmware} (hs : LocksHeld s) {c : Nat}
    (hlock : s.s_write_lock = some c) : s.left (.caller c) ≠ 0 := by
  intro hleft
  have hsaving : (s.callers c).saving = true := (hs.write c).mpr hlock
  rw [CallerPc.left_eq_zero.mp hleft] at hsaving
  simp [CallerPc.saving] at hsaving

/-- A task that does not wait for `s_lock` is ready. -/
theorem task_ready (s : Firmware) (hlock : s.task.next = .lock → s.s_lock = none) :
    firmware.Ready (Due .task) s := by
  obtain ⟨s', hstep⟩ := task_next s hlock
  exact ⟨.task s.task.next, s', rfl, hstep⟩

/-- A call under way that waits for no lock is ready. -/
theorem caller_ready (s : Firmware) (c : Nat) (hbusy : s.left (.caller c) ≠ 0)
    (hlock : (s.callers c).waits_lock = true → s.s_lock = none)
    (hwrite : (s.callers c).waits_write = true → s.s_write_lock = none) :
    firmware.Ready (Due (.caller c)) s := by
  have hidle : s.callers c ≠ .idle := fun h => hbusy (CallerPc.left_eq_zero.mpr h)
  obtain ⟨a, hmover, hgoes, -, hstep⟩ := caller_next s c hidle hlock hwrite
  obtain ⟨s', hs'⟩ := Option.isSome_iff_exists.mp hstep
  exact ⟨a, s', ⟨hmover, hgoes⟩, hs'⟩

section fair
variable {e : Execution firmware} (hfair : ∀ o, e.Fair (Due o))
include hfair

/-- A lock whose holder can always go on is free again and again. -/
theorem given_back {α : Type} {lock : Firmware → Option α} (owner : α → Owner)
    (hstep : ∀ {s a s'}, step s a = some s' → lock s' = lock s ∨ lock s = none ∨ lock s' = none)
    (hbusy : ∀ n x, lock (e.states n) = some x → (e.states n).left (owner x) ≠ 0)
    (hready : ∀ n x, lock (e.states n) = some x → firmware.Ready (Due (owner x)) (e.states n))
    (n : Nat) : ∃ m ≥ n, lock (e.states m) = none := by
  cases hn : lock (e.states n) with
  | none => exact ⟨n, le_rfl, hn⟩
  | some x =>
    have hleaves : ∃ m ≥ n, ¬ lock (e.states m) = some x := by
      refine (hfair (owner x)).leaves (fun s => lock s = some x) (fun s => s.left (owner x)) ?_ ?_ ?_ n
      · intro k hk hdue _
        exact (not_due_left (e.step k) (hbusy k x hk) hdue).le
      · intro k hk hdue _
        exact due_left_lt (e.step k) (hbusy k x hk) hdue
      · intro k hk
        exact ⟨k, le_rfl, hready k x (hk k le_rfl)⟩
    obtain ⟨m, hm, hgone⟩ := hleaves
    -- the step that takes it from `x` leaves it free
    obtain ⟨k, hk, -, hheld, hthen⟩ :=
      e.entered (fun s => ¬ lock s = some x) (not_not_intro hn) hm hgone
    have hheld : lock (e.states k) = some x := not_not.mp hheld
    rcases hstep (e.step k) with hsame | hfree | hfree
    · exact absurd (hsame.trans hheld) hthen
    · exact absurd (hfree.symm.trans hheld) (by simp)
    · exact ⟨k + 1, by omega, hfree⟩

/-- `s_lock` is free again and again. -/
theorem s_lock_free (n : Nat) : ∃ m ≥ n, (e.states m).s_lock = none := by
  refine given_back hfair id step_s_lock ?_ ?_ n
  · intro n o hlock
    exact holds_s_lock_busy (firmware_locks (e.run n)) hlock
  · intro n o hlock
    have hs := firmware_locks (e.run n)
    obtain ⟨htask, hcaller, -⟩ := holder_next hs
    cases o with
    | task => exact task_ready _ fun h => absurd h (htask hlock)
    | caller c =>
      obtain ⟨h₁, h₂⟩ := hcaller c hlock
      exact caller_ready _ c (holds_s_lock_busy hs hlock) (by simp [h₁]) (by simp [h₂])

/-- So is `s_write_lock`. -/
theorem s_write_lock_free (n : Nat) : ∃ m ≥ n, (e.states m).s_write_lock = none := by
  refine given_back hfair Owner.caller step_s_write_lock ?_ ?_ n
  · intro n c hlock
    exact holds_write_lock_busy (firmware_locks (e.run n)) hlock
  · intro n c hlock
    have hs := firmware_locks (e.run n)
    obtain ⟨h₁, h₂⟩ := (holder_next hs).2.2 c hlock
    exact caller_ready _ c (holds_write_lock_busy hs hlock) (by simp [h₁]) (by simp [h₂])

/-- A task that is busy does not stay so. -/
theorem gets_done (o : Owner)
    (hready : ∀ n, (∀ m ≥ n, (e.states m).left o ≠ 0) →
      ∃ m ≥ n, firmware.Ready (Due o) (e.states m)) (n : Nat) :
    ∃ m ≥ n, (e.states m).left o = 0 := by
  obtain ⟨m, hm, hdone⟩ := (hfair o).leaves (fun s => s.left o ≠ 0) (fun s => s.left o)
    (fun k hk hdue _ => (not_due_left (e.step k) hk hdue).le)
    (fun k hk hdue _ => due_left_lt (e.step k) hk hdue) hready n
  exact ⟨m, hm, not_not.mp hdone⟩

theorem task_done (n : Nat) : ∃ m ≥ n, (e.states m).task = .top := by
  have hdone := gets_done hfair .task ?_ n
  · obtain ⟨m, hm, hleft⟩ := hdone
    exact ⟨m, hm, TaskPc.left_eq_zero.mp hleft⟩
  · intro n _
    obtain ⟨m, hm, hfree⟩ := s_lock_free hfair n
    exact ⟨m, hm, task_ready _ fun _ => hfree⟩

theorem caller_done (c : Nat) (n : Nat) : ∃ m ≥ n, (e.states m).callers c = .idle := by
  have hdone := gets_done hfair (.caller c) ?_ n
  · obtain ⟨m, hm, hleft⟩ := hdone
    exact ⟨m, hm, CallerPc.left_eq_zero.mp hleft⟩
  intro n hbusy
  by_cases hmoves : ∃ m ≥ n, Due (.caller c) (e.labels m)
  · obtain ⟨m, hm, hdue⟩ := hmoves
    exact ⟨m, hm, _, _, hdue, e.step m⟩
  · -- a caller that never moves stays before its lock, until that is free
    have hstays : ∀ m ≥ n, (e.states m).callers c = (e.states n).callers c := by
      intro m hm
      induction m, hm using Nat.le_induction with
      | base => rfl
      | succ m hm ih =>
        rw [← ih]
        refine (step_others (e.step m)).2 c fun hmover => hmoves ⟨m, hm, ?_⟩
        exact due_of_mover (e.step m) (hbusy m hm) hmover
    cases hwrite : ((e.states n).callers c).waits_write with
    | true =>
      obtain ⟨m, hm, hfree⟩ := s_write_lock_free hfair n
      refine ⟨m, hm, caller_ready _ c (hbusy m hm) ?_ fun _ => hfree⟩
      rw [hstays m hm]
      intro hlock
      cases hpc : (e.states n).callers c <;>
        simp_all [CallerPc.waits_lock, CallerPc.waits_write]
    | false =>
      obtain ⟨m, hm, hfree⟩ := s_lock_free hfair n
      refine ⟨m, hm, caller_ready _ c (hbusy m hm) (fun _ => hfree) ?_⟩
      rw [hstays m hm, hwrite]
      exact fun h => absurd h Bool.false_ne_true

end fair

/-- The one way into `released` is the release. -/
theorem released_by_unlock {s s' : Firmware} {a : Label} (h : step s a = some s')
    (hbefore : ∀ it on, s.task ≠ .released it on) {it : Iteration} {on : Bool}
    (hafter : s'.task = .released it on) : a = .task (.unlock it) := by
  by_cases hmover : a.mover = some .task
  · cases a with
    | task act =>
      cases task_step_inv h with
      | unlock it' pc =>
        obtain ⟨rfl, -⟩ : it' = it ∧ _ := TaskPc.released.inj hafter
        rfl
      | history it' on' pc => exact absurd pc (hbefore it' on')
      | start pc =>
        unfold Firmware.task_start at hafter
        split at hafter <;> simp at hafter
      | sample _ _ | lock _ _ _ _ | sensor _ _ _ | decide _ _ _ _ _ | relay _ _ =>
        simp [Firmware.task_sensor, Firmware.task_decide] at hafter
    | tick _ | disturb _ | manual _ _ | settings _ _ => simp [Label.mover] at hmover
  · rw [(step_others h).1 hmover] at hafter
    exact absurd hafter (hbefore it on)

/-- The steps from anywhere in the loop to the release, at most. -/
def TaskPc.to_release : TaskPc → Nat
  | .top => 8
  | .released _ _ => 0
  | pc => pc.left

theorem TaskStep.to_release_lt {s s' : Firmware} {act : TaskAct} (h : TaskStep s act s')
    (hbefore : ∀ it on, s.task ≠ .released it on) :
    s'.task.to_release < s.task.to_release := by
  cases h with
  | start pc =>
    rw [pc]
    unfold Firmware.task_start
    split <;> simp [TaskPc.to_release, TaskPc.left]
  | history it on pc => exact absurd pc (hbefore it on)
  | sample _ pc | lock _ _ pc _ | sensor _ _ pc | decide _ _ _ _ pc | relay _ pc | unlock _ pc =>
    rw [pc]
    simp [TaskPc.to_release, TaskPc.left, Firmware.task_sensor, Firmware.task_decide,
      Firmware.task_unlock]

/-- **Every call returns, and the loop goes on.**  In every infinite run in
    which the scheduler is fair to each task, whatever the callers call, the
    sensor, the clock and the NVS answer, and however the steps interleave:
    from every moment on, each caller of `control_manual` or `settings_set`
    is done at some later one, and `control_task` completes another decision. -/
theorem every_call_returns (e : Execution firmware) (hfair : ∀ o, e.Fair (Due o)) (n : Nat) :
    (∀ c, ∃ m ≥ n, (e.states m).callers c = .idle) ∧
      ∃ m ≥ n, ∃ it, e.labels m = .task (.unlock it) := by
  refine ⟨fun c => caller_done hfair c n, ?_⟩
  let Waits : Firmware → Prop := fun s => ∀ it on, s.task ≠ .released it on
  obtain ⟨m, hm, htop⟩ := task_done hfair n
  have hwaits : Waits (e.states m) := by
    intro it on
    rw [htop]
    simp
  have hleaves : ∃ m' ≥ m, ¬ Waits (e.states m') := by
    refine (hfair .task).leaves Waits (fun s => s.task.to_release) ?_ ?_ ?_ m
    · intro k _ hdue _
      have hsame := (step_others (e.step k)).1 hdue
      exact (congrArg TaskPc.to_release hsame).le
    · intro k hk hdue _
      have hstep := e.step k
      cases ha : e.labels k with
      | task act =>
        rw [ha] at hstep
        exact (task_step_inv hstep).to_release_lt hk
      | tick _ | disturb _ | manual _ _ | settings _ _ => simp [Due, Label.mover, ha] at hdue
    · intro k _
      obtain ⟨m', hm', hfree⟩ := s_lock_free hfair k
      exact ⟨m', hm', task_ready _ fun _ => hfree⟩
  obtain ⟨m', hm', hreleased⟩ := hleaves
  obtain ⟨k, hk, -, hbefore, hafter⟩ :=
    e.entered (fun s => ¬ Waits s) (not_not_intro hwaits) hm' hreleased
  obtain ⟨it, on, hpc⟩ : ∃ it on, (e.states (k + 1)).task = .released it on := by
    by_contra hnot
    exact hafter fun it on hpc => hnot ⟨it, on, hpc⟩
  exact ⟨k, by omega, it, released_by_unlock (e.step k) (not_not.mp hbefore) hpc⟩

/-! Executions to which it applies: some calls first, and then `control_task`
    alone. -/

/-- The firmware after one more step of `control_task`. -/
def alone_step (s : Firmware) : Firmware := (step s (.task s.task.next)).getD s

/-- Nobody but `control_task` is there. -/
structure Alone (s : Firmware) : Prop where
  lock : LockInv s
  callers : ∀ c, s.callers c = .idle

theorem alone_next {s : Firmware} (h : Alone s) :
    step s (.task s.task.next) = some (alone_step s) := by
  have hfree : s.task.next = .lock → s.s_lock = none := by
    intro hnext
    cases hlock : s.s_lock with
    | none => rfl
    | some o =>
      have hinside : s.inside o = true := (h.lock o).mpr hlock
      cases o with
      | task => cases hpc : s.task <;> simp_all [Firmware.inside, TaskPc.inside, TaskPc.next]
      | caller c => simp [Firmware.inside, h.callers c, CallerPc.inside] at hinside
  obtain ⟨s', hstep⟩ := task_next s hfree
  rw [alone_step, hstep]
  rfl

theorem alone_boot (nvs : NvsBlob) (clock_us : Nat) : Alone (boot nvs clock_us) :=
  ⟨lockInv_boot nvs clock_us, fun _ => rfl⟩

/-- Nobody calls. -/
theorem Alone.keep {s s' : Firmware} {a : Label} (h : Alone s) (hstep : step s a = some s')
    (ha : ∀ c, a.mover ≠ some (.caller c)) : Alone s' := by
  refine ⟨lockInv_step s a s' h.lock hstep, ?_⟩
  intro c
  rw [(step_others hstep).2 c (ha c)]
  exact h.callers c

theorem alone_states (n : Nat) : Alone (alone_step^[n] (boot .missing 0)) := by
  induction n with
  | zero => exact alone_boot .missing 0
  | succ n ih =>
    rw [Function.iterate_succ_apply']
    exact ih.keep (alone_next ih) (by simp [Label.mover])

/-- The calls are over, and `control_task` goes on. -/
theorem fair_alone {e : Execution firmware} {k : Nat} (halone : ∀ n ≥ k, Alone (e.states n))
    (htask : ∀ n, ∃ m ≥ n, (e.labels m).mover = some .task) (o : Owner) : e.Fair (Due o) := by
  intro hready n
  cases o with
  | task => exact htask n
  | caller c =>
    -- nobody who is idle is owed a step
    obtain ⟨m, hm, a, s', hdue, hstep⟩ := hready (max n k)
    have hidle : (e.states m).left (.caller c) = 0 :=
      CallerPc.left_eq_zero.mpr ((halone m (le_trans (le_max_right _ _) hm)).callers c)
    have hlt := step_left_lt hstep hdue.1 hdue.2
    omega

/-- A run in which one caller alone has called, and is done. -/
theorem alone_after {nvs : NvsBlob} {clock_us : Nat} {acts : List Label} {s : Firmware} {c : Nat}
    (h : firmware.exec (boot nvs clock_us) acts = some s) (hdone : s.callers c = .idle)
    (hothers : ∀ a ∈ acts, ∀ c', a.mover = some (.caller c') → c' = c) : Alone s := by
  refine ⟨(firmware_locks (run_from_boot nvs clock_us h)).control, ?_⟩
  intro c'
  by_cases hc : c' = c
  · rw [hc, hdone]
  · have hnever : ∀ a ∈ acts, a.mover ≠ some (.caller c') :=
      fun a ha hmover => hc (hothers a ha c' hmover)
    refine exec_invariant (P := fun s => s.callers c' = .idle) ?_ rfl h hnever
    intro s a s' ha hidle hstep
    rw [(step_others hstep).2 c' ha, hidle]

/-- A start, given while the task makes its first read. -/
def called_labels : List Label :=
  [.task .start, .manual 0 (.call ⟨.start, 600, "admin".toList⟩), .task (.sample ⟨true, 300⟩),
    .manual 0 .lock, .manual 0 .apply, .manual 0 (.decide ⟨false, 0⟩),
    .manual 0 (.unlock ⟨⟨.start, 600, "admin".toList⟩, 0, default_settings, ⟨false, 0⟩⟩),
    .manual 0 .leave]

/-- It is under way in the third state, and returns. -/
theorem every_call_returns_start : ∃ e : Execution firmware,
    (e.states 2).callers 0 = .manual_called ⟨.start, 600, "admin".toList⟩ ∧
      (∃ m ≥ 2, (e.states m).callers 0 = .idle) ∧
      ∃ m ≥ 2, ∃ it, e.labels m = .task (.unlock it) := by
  obtain ⟨s₂, s, hcall, hexec, hcalled, hdone⟩ : ∃ s₂ s,
      firmware.exec (boot .missing 0) (called_labels.take 2) = some s₂ ∧
      firmware.exec (boot .missing 0) called_labels = some s ∧
      s₂.callers 0 = .manual_called ⟨.start, 600, "admin".toList⟩ ∧ s.callers 0 = .idle :=
    ⟨_, _, rfl, rfl, rfl, rfl⟩
  have halone : Alone s := alone_after hexec hdone (by simp [called_labels, Label.mover])
  obtain ⟨e, hfirst, hlater⟩ := Execution.carry_on (P := fun _ s => Alone s) hexec ⟨.missing, 0, rfl⟩
    (fun _ s => .task s.task.next) halone
    fun _ s h => ⟨_, alone_next h, h.keep (alone_next h) (by simp [Label.mover])⟩
  have hfair : ∀ o, e.Fair (Due o) := by
    refine fair_alone (k := called_labels.length) ?_ ?_
    · intro n hn
      obtain ⟨m, rfl⟩ := Nat.exists_eq_add_of_le hn
      exact (hlater m).1
    · intro n
      refine ⟨called_labels.length + n, by omega, ?_⟩
      rw [(hlater n).2]
      rfl
  have hsecond : e.states 2 = s₂ :=
    Option.some.inj ((hfirst 2 (by decide)).symm.trans hcall)
  have hreturns := every_call_returns e hfair 2
  exact ⟨e, by rw [hsecond, hcalled], hreturns.1 0, hreturns.2⟩

/-! ## How much is left -/

/-- A call of `control_manual` or of `settings_set`. -/
def Label.calls : Label → Bool
  | .manual _ (.call _) | .settings _ (.call _) => true
  | _ => false

/-- A step of one of the tasks. -/
def Label.moves (a : Label) : Bool := a.mover.isSome

/-- What the callers below `n` still have to do. -/
def Firmware.calls_left (s : Firmware) (n : Nat) : Nat :=
  ∑ c ∈ Finset.range n, (s.callers c).left

/-- Every caller from `n` on is idle. -/
def CallersBelow (n : Nat) (s : Firmware) : Prop := ∀ c ≥ n, s.callers c = .idle

theorem CallersBelow.mono {n m : Nat} {s : Firmware} (h : CallersBelow n s) (hle : n ≤ m) :
    CallersBelow m s := fun c hc => h c (le_trans hle hc)

theorem CallersBelow.calls_left {n m : Nat} {s : Firmware} (h : CallersBelow n s) (hle : n ≤ m) :
    s.calls_left m = s.calls_left n :=
  Finset.eventually_constant_sum (fun c hc => CallerPc.left_eq_zero.mpr (h c hc)) hle

/-- One caller moves, and the sum moves with it. -/
theorem calls_left_caller {s s' : Firmware} {n c : Nat} (hc : c < n)
    (hothers : ∀ c', c' ≠ c → s'.callers c' = s.callers c') :
    s'.calls_left n + (s.callers c).left = s.calls_left n + (s'.callers c).left := by
  have hmem : c ∈ Finset.range n := Finset.mem_range.mpr hc
  have hrest : ∑ c' ∈ (Finset.range n).erase c, (s'.callers c').left =
      ∑ c' ∈ (Finset.range n).erase c, (s.callers c').left :=
    Finset.sum_congr rfl fun c' hc' => by rw [hothers c' (Finset.ne_of_mem_erase hc')]
  have hafter := Finset.add_sum_erase _ (fun c' => (s'.callers c').left) hmem
  have hbefore := Finset.add_sum_erase _ (fun c' => (s.callers c').left) hmem
  unfold Firmware.calls_left
  omega

/-- What a step does to the calls. -/
theorem step_calls_left {s s' : Firmware} {a : Label} (h : step s a = some s') {n : Nat}
    (hbelow : CallersBelow n s) (hcalls : ∀ c, a.mover = some (.caller c) → c < n) :
    CallersBelow n s' ∧
      ((∀ c, a.mover ≠ some (.caller c)) → s'.calls_left n = s.calls_left n) ∧
      ∀ c, a.mover = some (.caller c) →
        s'.calls_left n + (s.callers c).left = s.calls_left n + (s'.callers c).left := by
  refine ⟨?_, ?_, ?_⟩
  · intro c hc
    rw [(step_others h).2 c fun ho => absurd (hcalls c ho) (by omega)]
    exact hbelow c hc
  · intro hnone
    exact Finset.sum_congr rfl fun c _ => by rw [(step_others h).2 c (hnone c)]
  · intro c ho
    refine calls_left_caller (hcalls c ho) fun c' hne => (step_others h).2 c' ?_
    rw [ho]
    simpa using hne.symm

/-- Who goes on with a call is among the callers that are not idle. -/
theorem mover_below {s s' : Firmware} {a : Label} (h : step s a = some s') {n : Nat}
    (hbelow : CallersBelow n s) (hgoes : a.begins = false) (c : Nat)
    (ho : a.mover = some (.caller c)) : c < n := by
  by_contra hge
  have hidle : s.left (.caller c) = 0 := CallerPc.left_eq_zero.mpr (hbelow c (by omega))
  have hlt := step_left_lt h ho hgoes
  omega

/-- Each call adds what it takes, and nothing else does. -/
theorem calls_left_le {acts : List Label} {s : Firmware} (h : Run firmware acts s) :
    ∃ n, CallersBelow n s ∧ s.calls_left n ≤ 7 * acts.countP Label.calls := by
  induction h with
  | init hinit =>
    obtain ⟨nvs, clock_us, rfl⟩ := hinit
    exact ⟨0, fun _ _ => rfl, le_rfl⟩
  | @snoc acts s a s' _ hstep ih =>
    obtain ⟨n, hbelow, hle⟩ := ih
    rw [List.countP_append, List.countP_singleton]
    cases hgoes : a.begins with
    | false =>
      -- nobody calls: no caller has more left than before
      obtain ⟨hbelow', hsame, hmoved⟩ :=
        step_calls_left hstep hbelow (mover_below hstep hbelow hgoes)
      refine ⟨n, hbelow', ?_⟩
      by_cases hcaller : ∃ c, a.mover = some (.caller c)
      · obtain ⟨c, ho⟩ := hcaller
        have hlt : (s'.callers c).left < (s.callers c).left := step_left_lt hstep ho hgoes
        have hsum := hmoved c ho
        omega
      · rw [hsame fun c ho => hcaller ⟨c, ho⟩]
        omega
    | true =>
      cases ho : a.mover with
      | none => cases a <;> simp [Label.mover, Label.begins] at ho hgoes
      | some o =>
        cases o with
        | task =>
          obtain ⟨hbelow', hsame, -⟩ :=
            step_calls_left hstep hbelow (fun c hc => by rw [ho] at hc; simp at hc)
          refine ⟨n, hbelow', ?_⟩
          rw [hsame fun c hc => by rw [ho] at hc; simp at hc]
          omega
        | caller c =>
          -- a call: from nothing to at most seven steps
          have hcalls : a.calls = true := by
            cases a with
            | manual _ act => cases act <;> simp_all [Label.begins, Label.calls]
            | settings _ act => cases act <;> simp_all [Label.begins, Label.calls]
            | tick _ | disturb _ | task _ => simp [Label.mover] at ho
          have hbelow₁ := hbelow.mono (le_max_left n (c + 1))
          obtain ⟨hbelow', -, hmoved⟩ := step_calls_left hstep hbelow₁ (by
            intro c' hc'
            obtain rfl : c = c' := by simpa [ho] using hc'
            omega)
          refine ⟨max n (c + 1), hbelow', ?_⟩
          have hsum := hmoved c ho
          rw [hbelow.calls_left (le_max_left n (c + 1))] at hsum
          have hmost := (s'.callers c).left_le
          simp only [hcalls, if_true]
          omega

/-- The step of a stretch in which nothing begins: one less is left. -/
theorem work_step {s s' : Firmware} {a : Label} (h : step s a = some s') {n : Nat}
    (hbelow : CallersBelow n s) (hgoes : a.begins = false) :
    CallersBelow n s' ∧ s'.task.left + s'.calls_left n + (if a.moves then 1 else 0) ≤
      s.task.left + s.calls_left n := by
  obtain ⟨hbelow', hsame, hmoved⟩ := step_calls_left h hbelow (mover_below h hbelow hgoes)
  refine ⟨hbelow', ?_⟩
  cases ho : a.mover with
  | none =>
    rw [(step_others h).1 (by simp [ho]), hsame (by simp [ho])]
    simp [Label.moves, ho]
  | some o =>
    have hlt := step_left_lt h ho hgoes
    cases o with
    | task =>
      have hlt' : s'.task.left < s.task.left := hlt
      rw [hsame (by simp [ho])]
      simp only [Label.moves, ho, Option.isSome_some, if_true]
      omega
    | caller c =>
      have hlt' : (s'.callers c).left < (s.callers c).left := hlt
      have hsum := hmoved c ho
      rw [(step_others h).1 (by simp [ho])]
      simp only [Label.moves, ho, Option.isSome_some, if_true]
      omega

/-- Everybody is done. -/
def AtRest (s : Firmware) : Prop := s.task = .top ∧ ∀ c, s.callers c = .idle

/-- An iteration under way goes on, unless it waits for `s_lock`. -/
theorem task_goes {s : Firmware} (htop : s.task ≠ .top)
    (hlock : s.task.next = .lock → s.s_lock = none) :
    ∃ a : Label, a.controls = true ∧ a.moves = true ∧ a.begins = false ∧ (step s a).isSome := by
  obtain ⟨s', hstep⟩ := task_next s hlock
  refine ⟨.task s.task.next, rfl, rfl, ?_, by simp [hstep]⟩
  cases hpc : s.task <;> simp_all [TaskPc.next, Label.begins]

/-- **No deadlock**: whoever waits, waits for somebody who can go on. -/
theorem somebody_next {s : Firmware} (hs : LocksHeld s) (hbusy : ¬ AtRest s) :
    ∃ a : Label, a.moves = true ∧ a.begins = false ∧ (step s a).isSome := by
  obtain ⟨htask, hcaller, hwriter⟩ := holder_next hs
  have hgo : ∀ c, s.callers c ≠ .idle →
      ((s.callers c).waits_lock = true → s.s_lock = none) →
      ((s.callers c).waits_write = true → s.s_write_lock = none) →
      ∃ a : Label, a.moves = true ∧ a.begins = false ∧ (step s a).isSome := by
    intro c hidle hlock hwrite
    obtain ⟨a, hmover, hgoes, -, hstep⟩ := caller_next s c hidle hlock hwrite
    exact ⟨a, by simp [Label.moves, hmover], hgoes, hstep⟩
  have hgo_task : s.task ≠ .top → (s.task.next = .lock → s.s_lock = none) →
      ∃ a : Label, a.moves = true ∧ a.begins = false ∧ (step s a).isSome := by
    intro htop hlock
    obtain ⟨a, -, hmoves, hgoes, hstep⟩ := task_goes htop hlock
    exact ⟨a, hmoves, hgoes, hstep⟩
  -- the holder of `s_lock` first, then that of `s_write_lock`, then anybody
  cases hlock : s.s_lock with
  | some o =>
    cases o with
    | task =>
      refine hgo_task ?_ fun h => absurd h (htask hlock)
      exact fun htop => holds_s_lock_busy hs hlock (TaskPc.left_eq_zero.mpr htop)
    | caller c =>
      obtain ⟨h₁, h₂⟩ := hcaller c hlock
      refine hgo c ?_ (by simp [h₁]) (by simp [h₂])
      exact fun hidle => holds_s_lock_busy hs hlock (CallerPc.left_eq_zero.mpr hidle)
  | none =>
    cases hwrite : s.s_write_lock with
    | some c =>
      obtain ⟨h₁, h₂⟩ := hwriter c hwrite
      refine hgo c ?_ (by simp [h₁]) (by simp [h₂])
      exact fun hidle => holds_write_lock_busy hs hwrite (CallerPc.left_eq_zero.mpr hidle)
    | none =>
      by_cases htop : s.task = .top
      · obtain ⟨c, hidle⟩ : ∃ c, s.callers c ≠ .idle := by
          by_contra hnot
          refine hbusy ⟨htop, fun c => ?_⟩
          by_contra hc
          exact hnot ⟨c, hc⟩
        exact hgo c hidle (fun _ => hlock) fun _ => hwrite
      · exact hgo_task htop fun _ => hlock

/-- **What is under way comes to an end.**  From every state of every run,
    with any number of calls under way: as long as no new call or iteration
    begins, the tasks together take at most seven more steps for the loop and
    seven for each call ever made, in whatever order and with whatever
    answers; and wherever they have got to, either everybody is done or
    somebody can take another step. -/
theorem firmware_settles (acts : List Label) (s : Firmware) (h : Run firmware acts s)
    (more : List Label) (s' : Firmware) (hexec : firmware.exec s more = some s')
    (hnone : ∀ a ∈ more, a.begins = false) :
    more.countP Label.moves ≤ 7 * (1 + acts.countP Label.calls) ∧
      (AtRest s' ∨
        ∃ a : Label, a.moves = true ∧ a.begins = false ∧ (step s' a).isSome) := by
  refine ⟨?_, ?_⟩
  · obtain ⟨n, hbelow, hle⟩ := calls_left_le h
    have hwork : s'.task.left + s'.calls_left n + more.countP Label.moves ≤
        s.task.left + s.calls_left n := by
      refine exec_work (CallersBelow n) Label.moves (fun s => s.task.left + s.calls_left n)
        ?_ ?_ hbelow hexec hnone
      · exact fun _ _ _ hgoes hs hstep => (work_step hstep hs hgoes).1
      · exact fun _ _ _ hgoes hs hstep => (work_step hstep hs hgoes).2
    have htask := s.task.left_le
    omega
  · by_cases hrest : AtRest s'
    · exact Or.inl hrest
    · exact Or.inr (somebody_next (firmware_locks (h.append hexec)) hrest)

/-- A call and an iteration under way, and some of their steps. -/
theorem firmware_settles_call :
    ∃ s s', Run firmware [.manual 0 (.call ⟨.start, 60, []⟩), .task .start] s ∧
      firmware.exec s [.manual 0 .lock, .tick 1, .task (.sample ⟨false, 0⟩), .manual 0 .apply] =
        some s' ∧
      (AtRest s' ∨
        ∃ a : Label, a.moves = true ∧ a.begins = false ∧ (step s' a).isSome) := by
  obtain ⟨s, s', hexec, hmore⟩ : ∃ s s', firmware.exec (boot .missing 0)
      [.manual 0 (.call ⟨.start, 60, []⟩), .task .start] = some s ∧ firmware.exec s
      [.manual 0 .lock, .tick 1, .task (.sample ⟨false, 0⟩), .manual 0 .apply] = some s' :=
    ⟨_, _, rfl, rfl⟩
  have hrun := run_from_boot _ _ hexec
  exact ⟨s, s', hrun, hmore, (firmware_settles _ s hrun _ s' hmore (by decide)).2⟩

/-! ## Control without the flash -/

/-- `control_task` is at the top of its loop, and every command is answered. -/
structure ControlDone (s : Firmware) : Prop where
  task : s.task = .top
  commands : ∀ c, (s.callers c).commands = false
  lock : s.s_lock = none

/-- Whatever the callers of `settings_set` are at, and wait for: control can go
    on by itself. -/
theorem control_next {s : Firmware} (hs : LocksHeld s) (hbusy : ¬ ControlDone s) :
    ∃ a : Label, a.controls = true ∧ a.moves = true ∧ a.begins = false ∧ (step s a).isSome := by
  have hgo : ∀ c, (s.callers c).commands = true →
      ((s.callers c).waits_lock = true → s.s_lock = none) →
      ∃ a : Label, a.controls = true ∧ a.moves = true ∧ a.begins = false ∧
        (step s a).isSome := by
    intro c hcommands hlock
    have hidle : s.callers c ≠ .idle := by
      intro hidle
      rw [hidle] at hcommands
      simp [CallerPc.commands] at hcommands
    have hwrite : (s.callers c).waits_write = false := by
      cases hpc : s.callers c <;> simp_all [CallerPc.commands, CallerPc.waits_write]
    obtain ⟨a, hmover, hgoes, hcontrols, hstep⟩ :=
      caller_next s c hidle hlock (by simp [hwrite])
    exact ⟨a, hcontrols.trans hcommands, by simp [Label.moves, hmover], hgoes, hstep⟩
  obtain ⟨htask, hcaller, -⟩ := holder_next hs
  cases hlock : s.s_lock with
  | some o =>
    cases o with
    | task =>
      refine task_goes ?_ fun h => absurd h (htask hlock)
      exact fun htop => holds_s_lock_busy hs hlock (TaskPc.left_eq_zero.mpr htop)
    | caller c =>
      have hinside : (s.callers c).inside = true := (hs.control (.caller c)).mpr hlock
      refine hgo c ?_ (by simp [(hcaller c hlock).1])
      cases hpc : s.callers c <;> simp_all [CallerPc.inside, CallerPc.commands]
  | none =>
    by_cases htop : s.task = .top
    · obtain ⟨c, hcommands⟩ : ∃ c, (s.callers c).commands = true := by
        by_contra hnot
        refine hbusy ⟨htop, fun c => ?_, hlock⟩
        cases hc : (s.callers c).commands with
        | false => rfl
        | true => exact absurd ⟨c, hc⟩ hnot
      exact hgo c hcommands fun _ => hlock
    · exact task_goes htop fun _ => hlock

theorem SettingsFrame.trans {s s' s'' : Firmware} (h : SettingsFrame s s')
    (h' : SettingsFrame s' s'') : SettingsFrame s s'' where
  settings := h'.settings.trans h.settings
  nvs := h'.nvs.trans h.nvs
  write_lock := h'.write_lock.trans h.write_lock
  callers := by
    intro c
    rcases h.callers c with hsame | ⟨hbefore, hafter⟩
    · rw [← hsame]
      exact h'.callers c
    · rcases h'.callers c with hsame | ⟨-, hafter'⟩
      · exact Or.inr ⟨hbefore, hsame ▸ hafter⟩
      · exact Or.inr ⟨hbefore, hafter'⟩

/-- Reached from `s` while nobody moves on with a save. -/
structure Unsaved (n : Nat) (s s' : Firmware) : Prop where
  run : ∃ acts, Run firmware acts s'
  below : CallersBelow n s'
  frame : SettingsFrame s s'

theorem unsaved_step {n : Nat} {s s₁ : Firmware} (h : Unsaved n s s₁) (hbusy : ¬ ControlDone s₁) :
    ∃ a s₂, (a.controls = true ∧ a.begins = false) ∧ firmware.step s₁ a = some s₂ ∧
      Unsaved n s s₂ ∧ s₂.task.left + s₂.calls_left n < s₁.task.left + s₁.calls_left n := by
  obtain ⟨⟨acts, hrun⟩, hbelow, hframe⟩ := h
  obtain ⟨a, hcontrols, hmoves, hgoes, hsome⟩ := control_next (firmware_locks hrun) hbusy
  obtain ⟨s₂, hstep⟩ := Option.isSome_iff_exists.mp hsome
  obtain ⟨hbelow₂, hlt⟩ := work_step hstep hbelow hgoes
  rw [if_pos hmoves] at hlt
  have hframe₂ : SettingsFrame s₁ s₂ := by
    cases a with
    | task act => exact (task_step_inv hstep).settings_frame
    | manual c act => exact (manual_step_inv hstep).settings_frame
    | tick _ | disturb _ | settings _ _ => simp [Label.controls] at hcontrols
  exact ⟨a, s₂, ⟨hcontrols, hgoes⟩, hstep, ⟨⟨_, hrun.snoc hstep⟩, hbelow₂, hframe.trans hframe₂⟩,
    by omega⟩

/-- **Pump control never waits for the flash.**  In every state of every run,
    with callers of `settings_set` stopped anywhere, also in the middle of an
    NVS write and with `s_write_lock` held: `control_task` can finish its
    iteration and every call of `control_manual` can be answered, by their own
    steps alone, no more than seven for each, while whoever is saving stays
    exactly where it is. -/
theorem control_never_waits_for_flash (acts : List Label) (s : Firmware)
    (h : Run firmware acts s) :
    ∃ more s', firmware.exec s more = some s' ∧
      (∀ a ∈ more, a.controls = true ∧ a.begins = false) ∧
      more.length ≤ 7 * (1 + acts.countP Label.calls) ∧
      SettingsFrame s s' ∧ ControlDone s' := by
  obtain ⟨n, hbelow, hle⟩ := calls_left_le h
  have htask := s.task.left_le
  obtain ⟨more, s', hexec, hall, hlen, hunsaved, hdone⟩ :=
    exec_completes (fun _ => unsaved_step) (⟨⟨acts, h⟩, hbelow, {}⟩ : Unsaved n s s)
  exact ⟨more, s', hexec, hall, by omega, hunsaved.frame, hdone⟩

/-- A caller with `s_write_lock`, one before `s_lock`, and a sensor read. -/
def busy_labels : List Label :=
  [.settings 0 (.call default_settings), .settings 0 .lock, .settings 0 .apply,
    .manual 1 (.call ⟨.start, 60, []⟩), .task .start]

theorem busy_exec : ∃ s, firmware.exec (boot .missing 0) busy_labels = some s ∧
    s.s_write_lock = some 0 := ⟨_, rfl, rfl⟩

theorem control_never_waits_for_flash_saving :
    ∃ s more s', Run firmware busy_labels s ∧ s.s_write_lock = some 0 ∧
      firmware.exec s more = some s' ∧ SettingsFrame s s' ∧ ControlDone s' := by
  obtain ⟨s, hexec, hlock⟩ := busy_exec
  have hrun := run_from_boot _ _ hexec
  obtain ⟨more, s', hmore, -, -, hframe, hdone⟩ := control_never_waits_for_flash _ s hrun
  exact ⟨s, more, s', hrun, hlock, hmore, hframe, hdone⟩

end FloorHeating
