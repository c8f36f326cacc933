import Mathlib.Data.List.DropRight

/-! # What a finite history says about the present

    Past-time operators on lists, oldest element first, each with its rule
    for one more element at the end.

    * `Since`: something happened, and everything after it keeps it alive.
    * `foldl_latch`: a latch with a dominant set input computes a `Since`.
    * `Historically`: something held of every element, given those before it.
    * `trailing`: the number of elements since a condition was last broken.
    * `latest`: the last element that satisfies a condition.
    * `outputs`: what a state machine puts out along its input.
    * `withPast`: every element, judged with the elements before it.
    * `fromLast`: the end of the list, from the last element that is marked.
    * `Edges`: the levels a flag has gone to, and where they leave it. -/

namespace PastTime

universe u v w

variable {α : Type u} {β : Type v} {σ : Type w}

/-! ## Since -/

/-- Some element starts it, and every later one keeps it (relative to that
    start). -/
def Since (start : α → Prop) (keep : α → α → Prop) (l : List α) : Prop :=
  ∃ pre a post, l = pre ++ a :: post ∧ start a ∧ ∀ b ∈ post, keep a b

theorem not_since_nil (start : α → Prop) (keep : α → α → Prop) : ¬ Since start keep [] := by
  rintro ⟨pre, a, post, h, -⟩
  simp at h

/-- One more element: it starts anew, or it keeps what was there. -/
theorem since_concat {start : α → Prop} {keep : α → α → Prop} {l : List α} {x : α} :
    Since start keep (l ++ [x]) ↔
      start x ∨ Since (fun a => start a ∧ keep a x) keep l := by
  constructor
  · rintro ⟨pre, a, post, h, ha, hpost⟩
    -- either the last element is the start itself, or it comes after it
    rcases List.eq_nil_or_concat post with rfl | ⟨post', y, rfl⟩
    · left
      obtain ⟨-, hx⟩ := List.append_inj' h rfl
      obtain rfl : x = a := by simpa using hx
      exact ha
    · right
      have h' : l ++ [x] = (pre ++ a :: post') ++ [y] := by simpa using h
      obtain ⟨hl, hx⟩ := List.append_inj' h' rfl
      obtain rfl : x = y := by simpa using hx
      refine ⟨pre, a, post', hl, ⟨ha, hpost x (by simp)⟩, fun b hb => hpost b (by simp [hb])⟩
  · rintro (hx | ⟨pre, a, post, rfl, ⟨ha, hax⟩, hpost⟩)
    · exact ⟨l, x, [], rfl, hx, by simp⟩
    · refine ⟨pre, a, post ++ [x], by simp, ha, ?_⟩
      intro b hb
      rcases List.mem_append.mp hb with hb | hb
      · exact hpost b hb
      · obtain rfl : b = x := by simpa using hb
        exact hax

/-- The rule where keeping does not depend on the start. -/
theorem since_concat_const {start keep : α → Prop} {l : List α} {x : α} :
    Since start (fun _ => keep) (l ++ [x]) ↔
      start x ∨ keep x ∧ Since start (fun _ => keep) l := by
  rw [since_concat]
  refine or_congr_right ⟨?_, ?_⟩
  · rintro ⟨pre, a, post, hl, ⟨ha, hx⟩, hpost⟩
    exact ⟨hx, pre, a, post, hl, ha, hpost⟩
  · rintro ⟨hx, pre, a, post, hl, ha, hpost⟩
    exact ⟨pre, a, post, hl, ⟨ha, hx⟩, hpost⟩

/-- What does not depend on the elements can be taken out of the start. -/
theorem since_and_const {start : α → Prop} {keep : α → α → Prop} {c : Prop} {l : List α} :
    Since (fun a => start a ∧ c) keep l ↔ c ∧ Since start keep l := by
  constructor
  · rintro ⟨pre, a, post, hl, ⟨ha, hc⟩, hpost⟩
    exact ⟨hc, pre, a, post, hl, ha, hpost⟩
  · rintro ⟨hc, pre, a, post, hl, ha, hpost⟩
    exact ⟨pre, a, post, hl, ⟨ha, hc⟩, hpost⟩

theorem since_congr {start start' : α → Prop} {keep : α → α → Prop} {l : List α}
    (h : ∀ a, start a ↔ start' a) : Since start keep l ↔ Since start' keep l := by
  have heq : start = start' := funext fun a => propext (h a)
  rw [heq]

theorem Since.mono {start start' : α → Prop} {keep : α → α → Prop} {l : List α}
    (h : Since start keep l) (hstart : ∀ a, start a → start' a) : Since start' keep l := by
  obtain ⟨pre, a, post, hl, ha, hpost⟩ := h
  exact ⟨pre, a, post, hl, hstart a ha, hpost⟩

/-- Nothing started in a suffix: it was alive before the suffix. -/
theorem Since.of_append {start : α → Prop} {keep : α → α → Prop} {l l' : List α}
    (h : Since start keep (l ++ l')) (hl' : ∀ b ∈ l', ¬ start b) : Since start keep l := by
  -- the start is generalized: each element taken off narrows it to what that one kept
  induction l' using List.reverseRecOn generalizing start with
  | nil => simpa using h
  | append_singleton l' x ih =>
    rw [← List.append_assoc, since_concat] at h
    rcases h with hx | h
    · exact absurd hx (hl' x (by simp))
    · have hl : Since (fun a => start a ∧ keep a x) keep l :=
        ih h fun b hb hstart => hl' b (by simp [hb]) hstart.1
      exact hl.mono fun a ha => ha.1

/-- Where only marked elements start and no marked one is kept, what is alive
    was started by the last marked element. -/
theorem Since.at_last_mark {mark start : α → Prop} {keep : α → α → Prop}
    (hstart : ∀ a, start a → mark a) (hkeep : ∀ a b, keep a b → ¬ mark b) {pre post : List α}
    {a : α} (h : Since start keep (pre ++ a :: post)) (ha : mark a)
    (hpost : ∀ b ∈ post, ¬ mark b) : start a ∧ ∀ b ∈ post, keep a b := by
  induction post using List.reverseRecOn generalizing start with
  | nil =>
    rw [since_concat] at h
    rcases h with h | ⟨pre', b, post', -, ⟨-, hba⟩, -⟩
    · exact ⟨h, by simp⟩
    · -- an earlier start would have to be kept by the mark
      exact absurd ha (hkeep b a hba)
  | append_singleton post x ih =>
    have hsplit : pre ++ a :: (post ++ [x]) = (pre ++ a :: post) ++ [x] := by simp
    rw [hsplit, since_concat] at h
    rcases h with hx | h
    · exact absurd (hstart x hx) (hpost x (by simp))
    · obtain ⟨⟨hs, hax⟩, hrest⟩ := ih (fun b hb => hstart b hb.1) h
        fun b hb => hpost b (by simp [hb])
      refine ⟨hs, ?_⟩
      intro b hb
      rcases List.mem_append.mp hb with hb | hb
      · exact hrest b hb
      · obtain rfl : b = x := by simpa using hb
        exact hax

/-- It lives on through elements that all keep it. -/
theorem Since.append {start keep : α → Prop} {l l' : List α}
    (h : Since start (fun _ => keep) l) (hkeep : ∀ b ∈ l', keep b) :
    Since start (fun _ => keep) (l ++ l') := by
  obtain ⟨pre, a, post, rfl, ha, hpost⟩ := h
  refine ⟨pre, a, post ++ l', by simp, ha, ?_⟩
  intro b hb
  rcases List.mem_append.mp hb with hb | hb
  · exact hpost b hb
  · exact hkeep b hb

/-- A latch that is set by `set` and reset by `reset`, where a set wins, is on
    exactly when it was set and has not been reset since. -/
theorem foldl_latch (set reset : α → Bool) (l : List α) :
    l.foldl (fun b x => set x || b && !reset x) false = true ↔
      Since (fun x => set x = true) (fun _ x => reset x = false) l := by
  induction l using List.reverseRecOn with
  | nil => simp [not_since_nil]
  | append_singleton l x ih =>
    rw [since_concat_const, ← ih, List.foldl_append]
    simp [and_comm]

/-! ## Historically -/

/-- `P` held of every element when it was appended to the ones before it. -/
def Historically (P : List α → α → Prop) (l : List α) : Prop :=
  ∀ pre a post, l = pre ++ a :: post → P pre a

theorem historically_nil (P : List α → α → Prop) : Historically P [] := by
  intro pre a post h
  simp at h

theorem historically_concat {P : List α → α → Prop} {l : List α} {x : α} :
    Historically P (l ++ [x]) ↔ Historically P l ∧ P l x := by
  constructor
  · intro h
    refine ⟨fun pre a post hl => h pre a (post ++ [x]) (by simp [hl]), h l x [] rfl⟩
  · intro h pre a post hl
    obtain ⟨hpast, hx⟩ := h
    rcases List.eq_nil_or_concat post with rfl | ⟨post', y, rfl⟩
    · obtain ⟨rfl, ha⟩ := List.append_inj' hl rfl
      obtain rfl : x = a := by simpa using ha
      exact hx
    · have hl' : l ++ [x] = (pre ++ a :: post') ++ [y] := by simpa using hl
      obtain ⟨hl'', -⟩ := List.append_inj' hl' rfl
      exact hpast pre a post' hl''

/-! ## Trailing -/

/-- How many elements at the end satisfy `p` without a break. -/
def trailing (p : α → Bool) (l : List α) : Nat := (l.rtakeWhile p).length

@[simp] theorem trailing_nil (p : α → Bool) : trailing p [] = 0 := rfl

theorem trailing_concat (p : α → Bool) (l : List α) (x : α) :
    trailing p (l ++ [x]) = if p x then trailing p l + 1 else 0 := by
  unfold trailing
  by_cases h : p x
  · rw [List.rtakeWhile_concat_pos _ _ _ h]
    simp [h]
  · rw [List.rtakeWhile_concat_neg _ _ _ h]
    simp [h]

/-- The last `n` elements all satisfy `p`. -/
theorem le_trailing_iff (p : α → Bool) (l : List α) (n : Nat) :
    n ≤ trailing p l ↔ n ≤ l.length ∧ ∀ x ∈ l.rtake n, p x = true := by
  induction l using List.reverseRecOn generalizing n with
  | nil => simp
  | append_singleton l x ih =>
    rw [trailing_concat]
    cases n with
    | zero => simp
    | succ n =>
      -- the last `n + 1` are the last `n` of `l`, and `x`
      by_cases h : p x
      · simp only [h, if_true, Nat.add_le_add_iff_right, ih, List.length_append,
          List.length_singleton, List.rtake_concat_succ, List.mem_append, List.mem_singleton]
        constructor
        · rintro ⟨hn, hall⟩
          refine ⟨hn, ?_⟩
          rintro y (hy | rfl)
          · exact hall y hy
          · exact h
        · rintro ⟨hn, hall⟩
          exact ⟨hn, fun y hy => hall y (Or.inl hy)⟩
      · simp [h, List.rtake_concat_succ]

/-! ## Latest -/

/-- The last element that satisfies `p`. -/
def latest (p : α → Bool) (l : List α) : Option α := (l.filter p).getLast?

@[simp] theorem latest_nil (p : α → Bool) : latest p [] = none := rfl

theorem latest_concat (p : α → Bool) (l : List α) (x : α) :
    latest p (l ++ [x]) = if p x then some x else latest p l := by
  unfold latest
  by_cases h : p x
  · simp [h]
  · simp [h]

/-! ## Outputs -/

/-- What a machine puts out on each input, in order. -/
def outputs (step : σ → α → σ) (out : σ → α → β) : σ → List α → List β
  | _, [] => []
  | s, a :: l => out s a :: outputs step out (step s a) l

theorem outputs_length (step : σ → α → σ) (out : σ → α → β) (s : σ) (l : List α) :
    (outputs step out s l).length = l.length := by
  induction l generalizing s with
  | nil => rfl
  | cons a l ih => simp [outputs, ih]

theorem outputs_append (step : σ → α → σ) (out : σ → α → β) (s : σ) (l₁ l₂ : List α) :
    outputs step out s (l₁ ++ l₂) =
      outputs step out s l₁ ++ outputs step out (l₁.foldl step s) l₂ := by
  induction l₁ generalizing s with
  | nil => rfl
  | cons a l₁ ih => simp [outputs, ih]

theorem outputs_concat (step : σ → α → σ) (out : σ → α → β) (s : σ) (l : List α) (a : α) :
    outputs step out s (l ++ [a]) = outputs step out s l ++ [out (l.foldl step s) a] :=
  outputs_append step out s l [a]

/-- A rank that every step takes down, and at which the outputs are good once
    it is down: only as many outputs as the rank says can be bad. -/
theorem outputs_drop {step : σ → α → σ} {out : σ → α → β} {ok : α → Prop} {good : β → Prop}
    (inv : σ → Prop) (rank : σ → Nat)
    (hinv : ∀ s a, ok a → inv s → inv (step s a))
    (hdown : ∀ s a, ok a → inv s → rank (step s a) ≤ rank s - 1)
    (hgood : ∀ s a, ok a → inv s → rank s = 0 → good (out s a))
    {s : σ} {l : List α} (hs : inv s) (hl : ∀ a ∈ l, ok a) :
    ∀ b ∈ (outputs step out s l).drop (rank s), good b := by
  induction l generalizing s with
  | nil => simp [outputs]
  | cons a l ih =>
    have ha : ok a := hl a (by simp)
    have hrest := ih (hinv s a ha hs) fun x hx => hl x (by simp [hx])
    have hle := hdown s a ha hs
    intro b hb
    cases hr : rank s with
    | zero =>
      rw [hr, List.drop_zero] at hb
      rcases List.mem_cons.mp hb with rfl | hb
      · exact hgood s a ha hs hr
      · have hzero : rank (step s a) = 0 := by omega
        rw [hzero, List.drop_zero] at hrest
        exact hrest b hb
    | succ n =>
      -- this output may be bad, and the rank of the rest is smaller
      rw [hr, outputs, List.drop_succ_cons] at hb
      exact hrest b (List.drop_subset_drop_left _ (by omega) hb)

/-- Every element, seen together with those before it. -/
def withPast (f : List α → α → β) (l : List α) : List β :=
  outputs (fun past x => past ++ [x]) f [] l

@[simp] theorem withPast_nil (f : List α → α → β) : withPast f [] = [] := rfl

theorem withPast_concat (f : List α → α → β) (l : List α) (x : α) :
    withPast f (l ++ [x]) = withPast f l ++ [f l x] := by
  have hpast : ∀ pre : List α, l.foldl (fun past y => past ++ [y]) pre = pre ++ l := by
    induction l with
    | nil => simp
    | cons y l ih => simp [ih]
  unfold withPast
  rw [outputs_concat, hpast, List.nil_append]

/-! ## From the last mark -/

/-- The list from its last element with `p` on, or all of it where there is none. -/
def fromLast (p : α → Bool) (l : List α) : List α :=
  l.foldl (fun kept x => if p x then [x] else kept ++ [x]) []

@[simp] theorem fromLast_nil (p : α → Bool) : fromLast p [] = [] := rfl

theorem fromLast_concat (p : α → Bool) (l : List α) (x : α) :
    fromLast p (l ++ [x]) = if p x then [x] else fromLast p l ++ [x] := by
  simp [fromLast]

theorem fromLast_unmarked {p : α → Bool} {l : List α} (h : ∀ x ∈ l, p x = false) :
    fromLast p l = l := by
  induction l using List.reverseRecOn with
  | nil => rfl
  | append_singleton l x ih =>
    rw [fromLast_concat, h x (by simp), ih fun y hy => h y (by simp [hy])]
    rfl

theorem fromLast_marked {p : α → Bool} {pre post : List α} {x : α} (hx : p x = true)
    (hpost : ∀ y ∈ post, p y = false) : fromLast p (pre ++ x :: post) = x :: post := by
  induction post using List.reverseRecOn with
  | nil => rw [fromLast_concat, if_pos hx]
  | append_singleton post y ih =>
    have hsplit : pre ++ x :: (post ++ [y]) = (pre ++ x :: post) ++ [y] := by simp
    rw [hsplit, fromLast_concat, hpost y (by simp), ih fun z hz => hpost z (by simp [hz])]
    rfl

/-! ## Edges -/

/-- The first `n` of `true, false, true, ...`. -/
def alternation (n : Nat) : List Bool := (List.range n).map fun i => decide (i % 2 = 0)

/-- The levels a flag has gone to, one after the other, from a low start. -/
def Alternating (l : List Bool) : Prop := l = alternation l.length

/-- The level a flag is left at by its edges. -/
def level (l : List Bool) : Bool := l.getLast?.getD false

/-- The edge of a flag that goes from `b` to `b'`, if it moves. -/
def edge (b b' : Bool) : List Bool := if b' = b then [] else [b']

theorem alternation_succ (n : Nat) :
    alternation (n + 1) = alternation n ++ [decide (n % 2 = 0)] := by
  simp [alternation, List.range_succ]

theorem level_concat (l : List Bool) (b : Bool) : level (l ++ [b]) = b := by
  simp [level]

/-- A flag is high after an odd number of edges. -/
theorem Alternating.level_eq {l : List Bool} (h : Alternating l) :
    level l = decide (l.length % 2 = 1) := by
  unfold Alternating at h
  rw [h]
  generalize l.length = n
  cases n with
  | zero => rfl
  | succ n =>
    rw [alternation_succ, level_concat]
    simp only [List.length_append, alternation, List.length_map, List.length_range,
      List.length_singleton, decide_eq_decide]
    omega

theorem Alternating.of_append {l l' : List Bool} (h : Alternating (l ++ l')) :
    Alternating l := by
  have hl : l = (l ++ l').take l.length := by simp
  rw [show l ++ l' = alternation (l ++ l').length from h, alternation, ← List.map_take,
    List.take_range, Nat.min_eq_left (by simp)] at hl
  exact hl

/-- A flag that is back where it was has risen, or not moved at all. -/
theorem Alternating.back {l l' : List Bool} (h : Alternating (l ++ l'))
    (hlevel : level (l ++ l') = level l) (hlow : true ∉ l') : l' = [] := by
  have hon : ∀ i (hi : i < l'.length), ¬ (l.length + i) % 2 = 0 := by
    intro i hi heven
    have hget : (l ++ l')[l.length + i]? = some l'[i] := by
      rw [List.getElem?_append_right (by omega), Nat.add_sub_cancel_left,
        List.getElem?_eq_getElem hi]
    rw [show l ++ l' = alternation (l ++ l').length from h, alternation, List.getElem?_map,
      List.getElem?_range (by simpa using hi), Option.map_some, heven] at hget
    have htrue : l'[i] = true := (Option.some.inj hget).symm
    exact hlow (htrue ▸ List.getElem_mem hi)
  rw [h.level_eq, h.of_append.level_eq, decide_eq_decide, List.length_append] at hlevel
  by_contra hne
  have hpos := List.length_pos_iff.mpr hne
  have h₀ := hon 0 hpos
  have h₁ := hon 1 (by omega)
  omega

/-- `l` are the edges of a flag that is at `b` now. -/
structure Edges (l : List Bool) (b : Bool) : Prop where
  alternating : Alternating l
  level : level l = b

theorem edges_nil : Edges [] false := ⟨rfl, rfl⟩

/-- The edge of a step goes on with the alternation, and ends at the new level. -/
theorem Edges.edge {l : List Bool} {b : Bool} (h : Edges l b) (b' : Bool) :
    Edges (l ++ edge b b') b' := by
  obtain ⟨halt, rfl⟩ := h
  unfold PastTime.edge
  by_cases hb : b' = PastTime.level l
  · rw [if_pos hb, List.append_nil]
    exact ⟨halt, hb.symm⟩
  · -- the new level is the other one
    have hflip : b' = decide (l.length % 2 = 0) := by
      have hother : b' = !PastTime.level l := Bool.eq_not_of_ne hb
      rw [hother, halt.level_eq, ← decide_not, decide_eq_decide]
      omega
    rw [if_neg hb]
    refine ⟨?_, level_concat l b'⟩
    rw [Alternating, List.length_append, List.length_singleton, alternation_succ, ← hflip,
      ← show l = alternation l.length from halt]

end PastTime
